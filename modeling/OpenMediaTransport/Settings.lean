import Mathlib.Data.Char
import OpenMediaTransport.OrderedMap
import OpenMediaTransport.Text

/-!
Persistent settings. They are written as one element a key and read back by a
scanner that looks for tags as substrings. Values are escaped, so no tag is found
inside one; keys are not, and the key that is named like the root closes the root.
-/

namespace OpenMediaTransport.Settings

open Text

def nameChar (char : Char) : Bool :=
  char.isAlphanum || char == '_' || char == '-' || char == '.'

def isXmlName : List Char → Bool
  | [] => false
  | first :: rest => (first.isAlpha || first == '_') && rest.all nameChar

/-- A key that `set_string` accepts. -/
abbrev XmlName := { name : List Char // isXmlName name = true }

abbrev Values := OrderedMap XmlName (List Char)

def escapeXml (text : List Char) : List Char :=
  replaceChar (replaceChar (replaceChar (replaceChar (replaceChar text '&' "&amp;".toList)
    '<' "&lt;".toList) '>' "&gt;".toList) '"' "&quot;".toList) '\'' "&apos;".toList

def unescapeXml (text : List Char) : List Char :=
  replaceText (replaceText (replaceText (replaceText (replaceText text "&lt;".toList ['<'])
    "&gt;".toList ['>']) "&quot;".toList ['"']) "&apos;".toList ['\'']) "&amp;".toList ['&']

def openTag (name : List Char) : List Char := '<' :: (name ++ ['>'])

def closeTag (name : List Char) : List Char := '<' :: '/' :: (name ++ ['>'])

def innerElement (xml tag : List Char) : Option (List Char) :=
  match splitText xml ('<' :: tag) with
  | none => none
  | some opened =>
      match splitOnce opened.2 '>' with
      | none => none
      | some parts =>
          let wholeTag := trimEndMatches isWhitespace ('<' :: tag ++ parts.1 ++ ['>'])
          if "/>".toList.isSuffixOf wholeTag then some []
          else (splitText parts.2 (closeTag tag)).map Prod.fst

inductive Scan where
  | stop
  | skip (rest : List Char)
  | child (name : XmlName) (value rest : List Char)

def skipPast (text needle : List Char) : Scan :=
  match splitText text needle with
  | some parts => .skip parts.2
  | none => .stop

def nameEnd (char : Char) : Bool := isWhitespace char || char == '>' || char == '/'

/-- An element, from behind its name. The empty name is none. -/
def scanNamed (name afterName : List Char) : Scan :=
  if named : isXmlName name = true then
    match splitOnce afterName '>' with
    | none => .stop
    | some (attributes, rest) =>
        if ['/'].isSuffixOf (trimEndMatches isWhitespace attributes) then
          .child ⟨name, named⟩ [] rest
        else
          match splitText rest (closeTag name) with
          | none => .stop
          | some (inner, rest) => .child ⟨name, named⟩ (unescapeXml (trim inner)) rest
  else .stop

def scanElement (afterLt : List Char) : Scan :=
  scanNamed (afterLt.takeWhile fun char => !nameEnd char)
    (afterLt.dropWhile fun char => !nameEnd char)

def scanChild : List Char → Scan
  | [] => .stop
  | first :: afterLt =>
      if "<!--".toList.isPrefixOf (first :: afterLt) then
        skipPast ((first :: afterLt).drop 4) "-->".toList
      else if "<?".toList.isPrefixOf (first :: afterLt) then
        skipPast (first :: afterLt) "?>".toList
      else if first ≠ '<' then
        match splitOnce (first :: afterLt) '<' with
        | some parts => .skip ('<' :: parts.2)
        | none => .stop
      else if "</".toList.isPrefixOf (first :: afterLt) then .stop
      else scanElement afterLt

def Scan.left : Scan → Option (List Char)
  | .stop => none
  | .skip rest => some rest
  | .child _ _ rest => some rest

theorem splitText_shorter (text needle front back : List Char)
    (found : splitText text needle = some (front, back)) :
    back.length + needle.length ≤ text.length := by
  have whole := congrArg List.length (splitText_parts text needle front back found)
  simp only [List.length_append] at whole
  omega

theorem splitOnce_shorter (text front back : List Char) (separator : Char)
    (found : splitOnce text separator = some (front, back)) : back.length < text.length := by
  have whole := congrArg List.length (splitOnce_parts text front back separator found).1
  simp only [List.length_append, List.length_cons] at whole
  omega

theorem skipPast_shorter (text needle rest : List Char) (some : needle ≠ [])
    (turn : (skipPast text needle).left = Option.some rest) : rest.length < text.length := by
  have positive := List.length_pos_of_ne_nil some
  unfold skipPast at turn
  cases found : splitText text needle with
  | none => simp [found, Scan.left] at turn
  | some parts =>
      rw [found] at turn
      cases turn
      have shorter := splitText_shorter text needle parts.1 parts.2 found
      omega

theorem scanElement_shorter (afterLt rest : List Char)
    (turn : (scanElement afterLt).left = some rest) : rest.length < afterLt.length := by
  have dropped := List.length_dropWhile_le (fun char => !nameEnd char) afterLt
  unfold scanElement scanNamed at turn
  split at turn
  case isFalse => cases turn
  split at turn
  · cases turn
  · rename_i attributes opened found
    have shorter := splitOnce_shorter _ _ _ _ found
    split at turn
    · cases turn
      omega
    split at turn
    · cases turn
    · rename_i inner later closed
      cases turn
      have tail := splitText_shorter _ _ _ _ closed
      omega

theorem scanChild_shorter (text rest : List Char) (turn : (scanChild text).left = some rest) :
    rest.length < text.length := by
  cases text with
  | nil => cases turn
  | cons first afterLt =>
      rw [scanChild] at turn
      split at turn
      · have shorter := skipPast_shorter _ _ rest (by decide) turn
        rw [List.length_drop] at shorter
        omega
      split at turn
      · exact skipPast_shorter _ _ rest (by decide) turn
      split at turn
      · rename_i apart
        split at turn
        · rename_i parts found
          cases turn
          -- What stands before the `<` is at least the first character.
          rw [splitOnce, if_neg apart] at found
          obtain ⟨tail, later, same⟩ := Option.map_eq_some_iff.mp found
          cases same
          have shorter := splitOnce_shorter _ _ _ _ later
          simp only [List.length_cons]
          omega
        · cases turn
      split at turn
      · cases turn
      · have shorter := scanElement_shorter afterLt rest turn
        rw [List.length_cons]
        omega

def parseRest (rest : List Char) (map : Values) : Values :=
  match _ : scanChild (trimStartMatches isWhitespace rest) with
  | .stop => map
  | .skip later => parseRest later map
  | .child name value later => parseRest later (map.insert name value)
termination_by rest.length
decreasing_by
  all_goals
    rename_i turn
    refine Nat.lt_of_lt_of_le (scanChild_shorter _ later (by rw [turn]; rfl)) ?_
    exact List.length_dropWhile_le _ rest

def parseChildren (body : List Char) : Values := parseRest body OrderedMap.empty

def byteOrderMark (char : Char) : Bool := char.toNat == 0xFEFF

def parseSettingsXml (xml : List Char) : Values :=
  match innerElement (trimStartMatches byteOrderMark xml) "Settings".toList with
  | none => OrderedMap.empty
  | some body => parseChildren body

def writtenChild (entry : XmlName × List Char) : List Char :=
  ' ' :: ' ' :: (openTag entry.1.1 ++ (escapeXml entry.2 ++ (closeTag entry.1.1 ++ ['\n'])))

def toXml (values : Values) : List Char :=
  "<Settings>\n".toList ++ (values.entries.flatMap writtenChild ++ "</Settings>\n".toList)

/-- A missing or unreadable file is empty settings. -/
def fromPath (file : Option (List Char)) : Values :=
  match file with
  | some xml => parseSettingsXml xml
  | none => OrderedMap.empty

/-- Keys that are no XML names are ignored. -/
def setString (values : Values) (key value : List Char) : Values :=
  if named : isXmlName key = true then values.insert ⟨key, named⟩ value else values

/-- `i32::to_string`. -/
def integerText (value : Int32) : List Char :=
  if value.toInt < 0 then '-' :: decimal value.toInt.natAbs else decimal value.toInt.natAbs

def setInteger (values : Values) (key : List Char) (value : Int32) : Values :=
  setString values key (integerText value)

/-- A key that is no XML name is never there. -/
def remove (values : Values) (key : List Char) : Values :=
  if named : isXmlName key = true then OrderedMap.remove values ⟨key, named⟩ else values

def toVec (values : Values) : List (List Char × List Char) :=
  values.entries.map fun entry => (entry.1.1, entry.2)

inductive Call where
  | setString (key value : List Char)
  | setInteger (key : List Char) (value : Int32)
  | remove (key : List Char)

def call (values : Values) : Call → Values
  | .setString key value => setString values key value
  | .setInteger key value => setInteger values key value
  | .remove key => remove values key

def run (values : Values) (calls : List Call) : Values := calls.foldl call values

end OpenMediaTransport.Settings
