import OpenMediaTransport.Markup
import OpenMediaTransport.Text

/-!
Well-formed documents of XML 1.0 that carry no declaration and no document type. The
productions are read off a text whose line ends are normalised. A derivation gives a tree:
elements under the names they are written with, one node for each character, and one for
each comment or instruction.
-/

namespace OpenMediaTransport.XmlGrammar

open Markup Text

inductive SyntaxNode where
  | element (name : List Char) (attributes : List (List Char × List Char))
      (children : List SyntaxNode)
  | char (content : Char)
  | other

/-- The production `S`. -/
def xmlSpace (char : Char) : Bool :=
  char == ' ' || char == '\t' || char == '\r' || char == '\n'

/-- A carriage return before a line feed is dropped; any other becomes a line feed. -/
def lineEnds : List Char → List Char
  | [] => []
  | char :: rest =>
      if char == '\r' then if rest.head? == some '\n' then lineEnds rest else '\n' :: lineEnds rest
      else char :: lineEnds rest

def within (ranges : List (Nat × Nat)) (char : Char) : Bool :=
  ranges.any fun range => range.1 ≤ char.toNat && char.toNat ≤ range.2

/-- The production `NameStartChar`. -/
def xmlNameStart : Char → Bool :=
  within [(0x3A, 0x3A), (0x41, 0x5A), (0x5F, 0x5F), (0x61, 0x7A), (0xC0, 0xD6), (0xD8, 0xF6),
    (0xF8, 0x2FF), (0x370, 0x37D), (0x37F, 0x1FFF), (0x200C, 0x200D), (0x2070, 0x218F),
    (0x2C00, 0x2FEF), (0x3001, 0xD7FF), (0xF900, 0xFDCF), (0xFDF0, 0xFFFD), (0x10000, 0xEFFFF)]

/-- The production `NameChar`. -/
def xmlNameChar (char : Char) : Bool :=
  xmlNameStart char ||
    within [(0x2D, 0x2E), (0x30, 0x39), (0xB7, 0xB7), (0x300, 0x36F), (0x203F, 0x2040)] char

def isName : List Char → Bool
  | [] => false
  | first :: rest => xmlNameStart first && rest.all xmlNameChar

def hexDigit (char : Char) : Bool :=
  within [(0x30, 0x39), (0x41, 0x46), (0x61, 0x66)] char

def digitOf (char : Char) : Nat :=
  if char.isDigit then char.toNat - 0x30
  else if char.isUpper then char.toNat - 0x41 + 10
  else char.toNat - 0x61 + 10

/-- The character of a reference to its code, if it may stand in a document. -/
def coded (base : Nat) (digits : List Char) : Option Char :=
  let code := digits.foldl (fun value char => value * base + digitOf char) 0
  if code.isValidChar ∧ xmlChar (Char.ofNat code) = true then some (Char.ofNat code) else none

/-- What is referred to between `&` and `;`; without a document type there are the
predefined entities alone. -/
def referenced : List Char → Option Char
  | '#' :: 'x' :: digits =>
      if !digits.isEmpty && digits.all hexDigit then coded 16 digits else none
  | '#' :: digits => if !digits.isEmpty && digits.all Char.isDigit then coded 10 digits else none
  | name => entityChar name

/-- `AttValue` between its quotes, with white space normalised. -/
inductive AttValue (quote : Char) : List Char → List Char → Prop where
  | nil : AttValue quote [] []
  | bare (char : Char) (written value : List Char) (legal : xmlChar char = true)
      (plain : char ≠ '<' ∧ char ≠ '&' ∧ char ≠ quote) (later : AttValue quote written value) :
      AttValue quote (char :: written) ((if xmlSpace char then ' ' else char) :: value)
  | reference (body : List Char) (char : Char) (written value : List Char)
      (refers : referenced body = some char) (later : AttValue quote written value) :
      AttValue quote ('&' :: (body ++ ';' :: written)) (char :: value)

/-- A character that is the same in an attribute's value as between its quotes. -/
def valueChar (quote char : Char) : Bool :=
  xmlChar char && !xmlSpace char && char != '<' && char != '&' && char != quote

theorem AttValue.plain (quote : Char) (text : List Char) (plain : text.all (valueChar quote) = true) :
    AttValue quote text text := by
  induction text with
  | nil => exact .nil
  | cons char rest ih =>
      simp only [List.all_cons, Bool.and_eq_true, valueChar, Bool.not_eq_true', bne_iff_ne] at plain
      obtain ⟨⟨⟨⟨⟨legal, black⟩, less⟩, ampersand⟩, apart⟩, later⟩ := plain
      simpa [black] using AttValue.bare char rest rest legal ⟨less, ampersand, apart⟩ (ih later)

/-- `(S Attribute)*`. -/
inductive Attributes : List Char → List (List Char × List Char) → Prop where
  | nil : Attributes [] []
  | cons (gap name before after written value rest : List Char) (quote : Char)
      (attributes : List (List Char × List Char)) (apart : gap ≠ [])
      (loose : gap.all xmlSpace = true ∧ before.all xmlSpace = true ∧ after.all xmlSpace = true)
      (named : isName name = true) (quoted : quote = '"' ∨ quote = '\'')
      (valued : AttValue quote written value) (later : Attributes rest attributes) :
      Attributes (gap ++ (name ++ (before ++ '=' :: (after ++ quote :: (written ++ quote :: rest)))))
        ((name, value) :: attributes)

/-- The productions `Comment` and `PI`. -/
inductive Aside : List Char → Prop where
  | comment (body : List Char) (legal : body.all xmlChar = true)
      (unclosed : ¬ ['-', '-'] <:+: body ++ ['-']) :
      Aside ('<' :: '!' :: '-' :: '-' :: (body ++ ['-', '-', '>']))
  | instruction (target tail : List Char) (named : isName target = true)
      (free : target.map asciiLower ≠ "xml".toList) (apart : tail.head?.all xmlSpace = true)
      (legal : tail.all xmlChar = true) (unclosed : ¬ ['?', '>'] <:+: tail) :
      Aside ('<' :: '?' :: (target ++ (tail ++ ['?', '>'])))

/-- `Misc*`. -/
inductive Misc : List Char → Prop where
  | nil : Misc []
  | space (char : Char) (rest : List Char) (white : xmlSpace char = true) (later : Misc rest) :
      Misc (char :: rest)
  | aside (front rest : List Char) (first : Aside front) (later : Misc rest) : Misc (front ++ rest)

/-- An element, or content behind that many closing brackets of character data. -/
inductive Kind where
  | element
  | content (brackets : Nat)

/-- The productions `element` and `content`; character data never holds `]]>`. -/
inductive Part : Kind → List Char → List SyntaxNode → Prop where
  | empty (name inside gap : List Char) (attributes : List (List Char × List Char))
      (named : isName name = true) (attached : Attributes inside attributes)
      (distinct : (attributes.map Prod.fst).Nodup) (loose : gap.all xmlSpace = true) :
      Part .element ('<' :: (name ++ (inside ++ (gap ++ ['/', '>'])))) [.element name attributes []]
  | full (name inside gap content last : List Char) (attributes : List (List Char × List Char))
      (children : List SyntaxNode) (named : isName name = true)
      (attached : Attributes inside attributes) (distinct : (attributes.map Prod.fst).Nodup)
      (loose : gap.all xmlSpace = true ∧ last.all xmlSpace = true)
      (inner : Part (.content 0) content children) :
      Part .element
        ('<' :: (name ++ (inside ++ (gap ++
          '>' :: (content ++ '<' :: '/' :: (name ++ (last ++ ['>'])))))))
        [.element name attributes children]
  | nil (brackets : Nat) : Part (.content brackets) [] []
  | char (brackets : Nat) (char : Char) (rest : List Char) (nodes : List SyntaxNode)
      (legal : xmlChar char = true) (plain : char ≠ '<' ∧ char ≠ '&')
      (unclosed : ¬ (char = '>' ∧ 2 ≤ brackets))
      (later : Part (.content (if char = ']' then brackets + 1 else 0)) rest nodes) :
      Part (.content brackets) (char :: rest) (.char char :: nodes)
  | reference (brackets : Nat) (body : List Char) (char : Char) (rest : List Char)
      (nodes : List SyntaxNode) (refers : referenced body = some char)
      (later : Part (.content 0) rest nodes) :
      Part (.content brackets) ('&' :: (body ++ ';' :: rest)) (.char char :: nodes)
  | cdata (brackets : Nat) (body rest : List Char) (nodes : List SyntaxNode)
      (legal : body.all xmlChar = true) (unclosed : ¬ [']', ']', '>'] <:+: body)
      (later : Part (.content 0) rest nodes) :
      Part (.content brackets) ("<![CDATA[".toList ++ (body ++ ("]]>".toList ++ rest)))
        (body.map .char ++ nodes)
  | aside (brackets : Nat) (front rest : List Char) (nodes : List SyntaxNode)
      (first : Aside front) (later : Part (.content 0) rest nodes) :
      Part (.content brackets) (front ++ rest) (.other :: nodes)
  | child (brackets : Nat) (front rest : List Char) (node : SyntaxNode) (nodes : List SyntaxNode)
      (first : Part .element front [node]) (later : Part (.content 0) rest nodes) :
      Part (.content brackets) (front ++ rest) (node :: nodes)

/-- The production `document`, without `XMLDecl` and `doctypedecl`. -/
def Document (text : List Char) (root : SyntaxNode) : Prop :=
  ∃ front body back, lineEnds text = front ++ (body ++ back) ∧ Misc front ∧
    Part .element body [root] ∧ Misc back

/-- A text that begins with a byte-order mark or an XML declaration, or has a document
type behind its prolog. -/
def Declares (text : List Char) : Prop :=
  text.head? = some '\uFEFF' ∨
    (∃ char rest, xmlSpace char = true ∧ text = "<?xml".toList ++ char :: rest) ∨
    ∃ prolog rest, Misc prolog ∧ lineEnds text = prolog ++ ("<!DOCTYPE".toList ++ rest)

/-! Line ends and white space around a document. -/

theorem xmlSpace_white (char : Char) (space : xmlSpace char = true) : isWhitespace char = true := by
  simp only [xmlSpace, Bool.or_eq_true, beq_iff_eq] at space
  rcases space with ((rfl | rfl) | rfl) | rfl <;> decide

theorem xmlSpace_legal (char : Char) (space : xmlSpace char = true) :
    xmlChar char = true ∧ (char ≠ '<' ∧ char ≠ '&') ∧ char ≠ '>' := by
  simp only [xmlSpace, Bool.or_eq_true, beq_iff_eq] at space
  rcases space with ((rfl | rfl) | rfl) | rfl <;> decide

theorem lineEnds_append (front back : List Char)
    (apart : front.getLast? = some '\r' → back.head? ≠ some '\n') :
    lineEnds (front ++ back) = lineEnds front ++ lineEnds back := by
  induction front with
  | nil => rfl
  | cons char rest ih =>
      have later : lineEnds (rest ++ back) = lineEnds rest ++ lineEnds back := by
        refine ih fun last => apart ?_
        rw [List.getLast?_cons, last]
        rfl
      simp only [List.cons_append, lineEnds]
      split
      · -- A return looks at the next character, which is in `back` if it is the last one here.
        rename_i carriage
        have next : ((rest ++ back).head? == some '\n') = (rest.head? == some '\n') := by
          cases rest with
          | nil =>
              rw [beq_iff_eq.mp carriage] at apart
              simpa using apart rfl
          | cons first more => rfl
        rw [next]
        split
        · exact later
        · rw [later]
          rfl
      · rw [later]
        rfl

theorem lineEnds_white (text : List Char) (white : ∀ char ∈ text, isWhitespace char = true) :
    ∀ char ∈ lineEnds text, isWhitespace char = true := by
  induction text with
  | nil => exact white
  | cons first rest ih =>
      have later := ih fun char member => white char (List.mem_cons_of_mem _ member)
      unfold lineEnds
      split
      · split
        · exact later
        · exact List.forall_mem_cons.mpr ⟨by decide, later⟩
      · exact List.forall_mem_cons.mpr ⟨white first List.mem_cons_self, later⟩

theorem lineEnds_trimmed (text : List Char) (trimmed : Trimmed text) : Trimmed (lineEnds text) where
  head := by
    intro char rest starts
    cases text with
    | nil => cases starts
    | cons first more =>
        have black := trimmed.head first more rfl
        unfold lineEnds at starts
        split at starts
        · rename_i carriage
          rw [beq_iff_eq.mp carriage] at black
          exact absurd black (by decide)
        · cases starts
          exact black
  last := by
    intro front char ends
    rcases List.eq_nil_or_concat text with rfl | ⟨init, final, rfl⟩
    · simp [lineEnds] at ends
    · rw [List.concat_eq_append] at trimmed ends
      have black := trimmed.last init final rfl
      have noFeed : final ≠ '\n' := by
        rintro rfl
        exact absurd black (by decide)
      have noReturn : (final == '\r') = false := by
        apply beq_false_of_ne
        rintro rfl
        exact absurd black (by decide)
      rw [lineEnds_append init [final] fun _ => by simpa using noFeed] at ends
      have same : lineEnds [final] = [final] := by simp [lineEnds, noReturn]
      rw [same] at ends
      rw [← (List.append_inj' ends rfl).2 |> List.singleton_inj.mp]
      exact black

theorem lineEnds_trim (text : List Char) : lineEnds (trim text) = trim (lineEnds text) := by
  obtain ⟨lead, trail, parts, before, behind⟩ := trim_parts text
  have trimmed := trim_trimmed text
  generalize trim text = middle at parts trimmed
  cases middle with
  | nil =>
      refine ((trim_eq_nil _).mpr (lineEnds_white text fun char member => ?_)).symm
      rw [parts] at member
      rcases List.mem_append.mp member with front | back
      · exact before char front
      · exact behind char back
  | cons first rest =>
      -- The cuts stand beside characters that are no part of a line end.
      have head : first ≠ '\n' := by
        rintro rfl
        exact absurd (trimmed.head _ rest rfl) (by decide)
      have last : (first :: rest).getLast? ≠ some '\r' := by
        intro ends
        obtain ⟨init, whole⟩ := List.getLast?_eq_some_iff.mp ends
        exact absurd (trimmed.last init _ whole) (by decide)
      have front := lineEnds_append lead (first :: rest ++ trail) fun _ => by simpa using head
      have back := lineEnds_append (first :: rest) trail fun ends => absurd ends last
      rw [parts, front, back]
      exact (trim_surrounded _ _ _ (lineEnds_trimmed _ trimmed) (lineEnds_white lead before)
        (lineEnds_white trail behind)).symm

/-! What stands in a document, as content. -/

theorem Aside.edges (text : List Char) (aside : Aside text) :
    ∃ inner, text = '<' :: (inner ++ ['>']) := by
  cases aside with
  | comment body => exact ⟨'!' :: '-' :: '-' :: (body ++ ['-', '-']), by simp⟩
  | instruction target tail => exact ⟨'?' :: (target ++ (tail ++ ['?'])), by simp⟩

theorem element_edges (text : List Char) (nodes : List SyntaxNode) (part : Part .element text nodes) :
    ∃ inner, text = '<' :: (inner ++ ['>']) := by
  cases part with
  | empty name inside gap => exact ⟨name ++ (inside ++ (gap ++ ['/'])), by simp⟩
  | full name inside gap content last =>
      exact ⟨name ++ (inside ++ (gap ++ '>' :: (content ++ '<' :: '/' :: (name ++ last)))), by simp⟩

theorem edge_stops (front inner : List Char) :
    (front ++ '<' :: (inner ++ ['>'])).rdropWhile isWhitespace = front ++ '<' :: (inner ++ ['>']) := by
  have whole : front ++ '<' :: (inner ++ ['>']) = (front ++ '<' :: inner) ++ ['>'] := by simp
  rw [whole, List.rdropWhile_concat_neg _ _ _ (by decide)]

theorem Misc.trimStart (prolog rest : List Char) (misc : Misc prolog) :
    ∃ left, Misc left ∧
      (prolog ++ '<' :: rest).dropWhile isWhitespace = left ++ '<' :: rest := by
  induction misc with
  | nil => exact ⟨[], .nil, List.dropWhile_cons_of_neg (by decide)⟩
  | space char later white misc ih =>
      obtain ⟨left, kept, trimmed⟩ := ih
      refine ⟨left, kept, ?_⟩
      rw [List.cons_append, List.dropWhile_cons_of_pos (xmlSpace_white char white), trimmed]
  | aside front later first misc ih =>
      refine ⟨front ++ later, .aside front later first misc, ?_⟩
      obtain ⟨inner, rfl⟩ := first.edges
      exact List.dropWhile_cons_of_neg (by decide)

theorem Misc.trimEnd (back : List Char) (misc : Misc back) :
    (∀ front, (front ++ back).rdropWhile isWhitespace = front.rdropWhile isWhitespace) ∨
      ∃ left, Misc left ∧ ∀ front, (front ++ back).rdropWhile isWhitespace = front ++ left := by
  induction misc with
  | nil => exact .inl fun front => by rw [List.append_nil]
  | space char later white misc ih =>
      have moved (front : List Char) : front ++ char :: later = front ++ [char] ++ later := by simp
      rcases ih with gone | ⟨left, kept, trimmed⟩
      · refine .inl fun front => ?_
        rw [moved, gone, List.rdropWhile_concat_pos _ _ _ (xmlSpace_white char white)]
      · refine .inr ⟨char :: left, .space char left white kept, fun front => ?_⟩
        rw [moved, trimmed]
        simp
  | aside first later aside misc ih =>
      -- Markup stays, and with it all that stands in front of it.
      rcases ih with gone | ⟨left, kept, trimmed⟩
      · refine .inr ⟨first, ?_, fun front => ?_⟩
        · rw [← List.append_nil first]
          exact .aside first [] aside .nil
        · obtain ⟨inner, rfl⟩ := aside.edges
          rw [← List.append_assoc, gone, edge_stops]
      · refine .inr ⟨first ++ left, .aside first left aside kept, fun front => ?_⟩
        rw [← List.append_assoc, trimmed, List.append_assoc]

theorem Document.trimmed (text : List Char) (root : SyntaxNode) (document : Document text root) :
    ∃ front body back, lineEnds (trim text) = front ++ (body ++ back) ∧ Misc front ∧
      Part .element body [root] ∧ Misc back := by
  obtain ⟨front, body, back, parts, before, part, behind⟩ := document
  obtain ⟨inner, edges⟩ := element_edges body [root] part
  obtain ⟨left, kept, start⟩ := before.trimStart front (inner ++ '>' :: back)
  -- The root is in the way of both trimmings.
  have whole : lineEnds text = front ++ '<' :: (inner ++ '>' :: back) := by
    rw [parts, edges]
    simp
  have shape : left ++ '<' :: (inner ++ '>' :: back) = left ++ '<' :: (inner ++ ['>']) ++ back := by simp
  rw [lineEnds_trim, trim, trimStartMatches, trimEndMatches, whole, start, shape]
  rcases behind.trimEnd back with gone | ⟨right, stays, trimmed⟩
  · refine ⟨left, body, [], ?_, kept, part, .nil⟩
    rw [gone, edge_stops, edges, List.append_nil]
  · refine ⟨left, body, right, ?_, kept, part, stays⟩
    rw [trimmed, edges, List.append_assoc]

def SyntaxNode.isElement : SyntaxNode → Bool
  | .element _ _ _ => true
  | _ => false

def Inside (text : List Char) (nodes : List SyntaxNode) : Prop :=
  ∀ brackets, Part (.content brackets) text nodes

theorem Inside.space (char : Char) (rest : List Char) (nodes : List SyntaxNode)
    (white : xmlSpace char = true) (later : Inside rest nodes) :
    Inside (char :: rest) (.char char :: nodes) := by
  obtain ⟨legal, plain, noClose⟩ := xmlSpace_legal char white
  exact fun brackets => .char brackets char rest nodes legal plain (fun close => noClose close.1) (later _)

theorem Misc.inside (text rest : List Char) (nodes : List SyntaxNode) (misc : Misc text)
    (later : Inside rest nodes) :
    ∃ others : List SyntaxNode, (∀ node ∈ others, node.isElement = false) ∧
      Inside (text ++ rest) (others ++ nodes) := by
  induction misc with
  | nil => exact ⟨[], by simp, later⟩
  | space char more white misc ih =>
      obtain ⟨others, bare, inside⟩ := ih
      exact ⟨.char char :: others, List.forall_mem_cons.mpr ⟨rfl, bare⟩, inside.space char _ _ white⟩
  | aside front more first misc ih =>
      obtain ⟨others, bare, inside⟩ := ih
      refine ⟨.other :: others, List.forall_mem_cons.mpr ⟨rfl, bare⟩, fun brackets => ?_⟩
      rw [List.append_assoc]
      exact .aside brackets front _ _ first (inside 0)

/-- A trimmed document goes anywhere into a content; its root is the one element it brings. -/
theorem Document.inside (text rest : List Char) (root : SyntaxNode) (nodes : List SyntaxNode)
    (document : Document text root) (later : Inside rest nodes) :
    ∃ front back : List SyntaxNode, (∀ node ∈ front ++ back, node.isElement = false) ∧
      Inside (lineEnds (trim text) ++ rest) (front ++ root :: (back ++ nodes)) := by
  obtain ⟨prolog, body, epilog, parts, before, part, behind⟩ := document.trimmed
  obtain ⟨back, backBare, backInside⟩ := behind.inside epilog rest nodes later
  have rootInside : Inside (body ++ (epilog ++ rest)) (root :: (back ++ nodes)) :=
    fun brackets => .child brackets body _ root _ part (backInside 0)
  obtain ⟨front, frontBare, frontInside⟩ := before.inside prolog _ _ rootInside
  refine ⟨front, back, ?_, ?_⟩
  · intro node member
    rcases List.mem_append.mp member with first | last
    · exact frontBare node first
    · exact backBare node last
  · rw [parts, List.append_assoc, List.append_assoc]
    exact frontInside

theorem tag_declares_nothing (first : Char) (rest : List Char) (named : xmlNameStart first = true) :
    ¬ Declares ('<' :: first :: rest) := by
  have apart (other : Char) (no : xmlNameStart other = false) : first ≠ other := by
    rintro rfl
    rw [no] at named
    cases named
  rintro (mark | ⟨char, more, _, declared⟩ | ⟨prolog, more, misc, declared⟩)
  · exact absurd (Option.some.inj mark) (by decide)
  · exact apart '?' (by decide) (List.cons.inj (List.cons.inj declared).2).1
  · have ends : lineEnds ('<' :: first :: rest) = '<' :: first :: lineEnds rest := by
      simp [lineEnds, apart '\r' (by decide)]
    rw [ends] at declared
    cases misc with
    | nil => exact apart '!' (by decide) (List.cons.inj (List.cons.inj declared).2).1
    | space char later white misc =>
        rw [List.cons_append] at declared
        rw [← (List.cons.inj declared).1] at white
        exact absurd white (by decide)
    | aside front later aside misc =>
        cases aside with
        | comment body =>
            simp only [List.cons_append] at declared
            exact apart '!' (by decide) (List.cons.inj (List.cons.inj declared).2).1
        | instruction target tail =>
            simp only [List.cons_append] at declared
            exact apart '?' (by decide) (List.cons.inj (List.cons.inj declared).2).1

end OpenMediaTransport.XmlGrammar
