import OpenMediaTransport.Settings

/-!
Settings that are saved and loaded. The scanner takes up one written child after
the other; what it is given is cut off at the first closing tag of the root's name,
whichever element that tag closes.
-/

namespace OpenMediaTransport.Settings

open Text

/-! Escaping and its undoing, one entity at a time. -/

def specials : List Char := ['&', '<', '>', '"', '\'']

def escapeChar (char : Char) : List Char :=
  if char = '&' then "&amp;".toList
  else if char = '<' then "&lt;".toList
  else if char = '>' then "&gt;".toList
  else if char = '"' then "&quot;".toList
  else if char = '\'' then "&apos;".toList
  else [char]

theorem escapeChar_special (char : Char) (special : char ∈ specials) :
    ∃ more, escapeChar char = '&' :: more := by
  simp only [specials, List.mem_cons, List.not_mem_nil, or_false] at special
  rcases special with rfl | rfl | rfl | rfl | rfl <;> exact ⟨_, rfl⟩

theorem escapeChar_plain (char : Char) (plain : char ∉ specials) : escapeChar char = [char] := by
  simp only [specials, List.mem_cons, List.not_mem_nil, or_false, not_or] at plain
  obtain ⟨amp, lt, gt, quot, apos⟩ := plain
  simp only [escapeChar, amp, lt, gt, quot, apos, if_false]

theorem escapeXml_chars (text : List Char) : escapeXml text = text.flatMap escapeChar := by
  have each := replaceChars_flatMap [('&', "&amp;".toList), ('<', "&lt;".toList),
    ('>', "&gt;".toList), ('"', "&quot;".toList), ('\'', "&apos;".toList)] text (by decide)
  exact each.trans (List.flatMap_congr fun _ _ => rfl)

/-- The escaped form of a character once the listed ones have been put back. -/
def restoredChar (done : List Char) (char : Char) : List Char :=
  if char ∈ done then [char] else escapeChar char

theorem entity_foreign (char target : Char) (special : char ∈ specials)
    (entity : target ∈ specials) (apart : char ≠ target) (rest : List Char) :
    replaceText (escapeChar char ++ rest) (escapeChar target) [target] =
      escapeChar char ++ replaceText rest (escapeChar target) [target] := by
  simp only [specials, List.mem_cons, List.not_mem_nil, or_false] at special entity
  rcases special with rfl | rfl | rfl | rfl | rfl <;>
    rcases entity with rfl | rfl | rfl | rfl | rfl <;>
    first
    | exact absurd rfl apart
    | rfl

theorem restore_step (done : List Char) (target : Char) (entity : target ∈ specials)
    (fresh : target ∉ done) (noAmp : '&' ∉ done) (text : List Char) :
    replaceText (text.flatMap (restoredChar done)) (escapeChar target) [target] =
      text.flatMap (restoredChar (target :: done)) := by
  obtain ⟨more, opens⟩ := escapeChar_special target entity
  refine replaceText_flatMap _ _ _ _ _ fun char rest => ?_
  have alone : ∀ other, other ≠ '&' → replaceText ([other] ++ rest) (escapeChar target) [target] =
      [other] ++ replaceText rest (escapeChar target) [target] := by
    intro other plain
    rw [opens]
    exact replaceText_skip '&' other more [target] rest (Ne.symm plain)
  unfold restoredChar
  by_cases earlier : char ∈ done
  · rw [if_pos earlier, if_pos (List.mem_cons_of_mem target earlier)]
    exact alone char fun same => noAmp (same ▸ earlier)
  by_cases here : char = target
  · subst here
    rw [if_neg earlier, if_pos List.mem_cons_self, opens]
    exact replaceText_here '&' more [char] rest
  rw [if_neg earlier, if_neg (List.not_mem_cons_of_ne_of_not_mem here earlier)]
  by_cases special : char ∈ specials
  · exact entity_foreign char target special entity here rest
  · rw [escapeChar_plain char special]
    exact alone char fun same => special (same ▸ by decide)

theorem unescapeXml_escape (text : List Char) : unescapeXml (escapeXml text) = text := by
  have start : escapeXml text = text.flatMap (restoredChar []) := by
    rw [escapeXml_chars]
    rfl
  have lt := restore_step [] '<' (by decide) (by decide) (by decide) text
  have gt := restore_step ['<'] '>' (by decide) (by decide) (by decide) text
  have quot := restore_step ['>', '<'] '"' (by decide) (by decide) (by decide) text
  have apos := restore_step ['"', '>', '<'] '\'' (by decide) (by decide) (by decide) text
  have amp := restore_step ['\'', '"', '>', '<'] '&' (by decide) (by decide) (by decide) text
  have finish : text.flatMap (restoredChar ['&', '\'', '"', '>', '<']) = text := by
    refine (List.flatMap_congr fun char _ => ?_).trans (List.flatMap_singleton' text)
    unfold restoredChar
    by_cases back : char ∈ ['&', '\'', '"', '>', '<']
    · exact if_pos back
    · rw [if_neg back]
      refine escapeChar_plain char fun special => back ?_
      simp only [specials, List.mem_cons, List.not_mem_nil, or_false] at special ⊢
      tauto
  change replaceText (replaceText (replaceText (replaceText (replaceText (escapeXml text)
    (escapeChar '<') ['<']) (escapeChar '>') ['>']) (escapeChar '"') ['"'])
    (escapeChar '\'') ['\'']) (escapeChar '&') ['&'] = text
  rw [start, lt, gt, quot, apos, amp, finish]

theorem escapeChar_black (char other : Char) (black : isWhitespace char = false)
    (member : other ∈ escapeChar char) : isWhitespace other = false := by
  by_cases special : char ∈ specials
  · have clear : (specials.flatMap escapeChar).all (fun other => !isWhitespace other) = true := by
      decide
    have inside := List.mem_flatMap.mpr ⟨char, special, member⟩
    simpa using List.all_eq_true.mp clear other inside
  · rw [escapeChar_plain char special, List.mem_singleton] at member
    rw [member]
    exact black

theorem escapeChar_some (char : Char) : escapeChar char ≠ [] := by
  by_cases special : char ∈ specials
  · obtain ⟨more, shape⟩ := escapeChar_special char special
    rw [shape]
    exact List.cons_ne_nil _ _
  · rw [escapeChar_plain char special]
    exact List.cons_ne_nil _ _

theorem escapeChar_white (char : Char) (white : isWhitespace char = true) :
    escapeChar char = [char] := by
  refine escapeChar_plain char fun special => ?_
  have clear : specials.all (fun other => !isWhitespace other) = true := by decide
  have black := List.all_eq_true.mp clear char special
  rw [white] at black
  cases black

theorem unescapeXml_trim (text : List Char) :
    unescapeXml (trim (escapeXml text)) = trim text := by
  rw [escapeXml_chars, trim_flatMap escapeChar escapeChar_white
    (fun char black => ⟨escapeChar_some char, fun other => escapeChar_black char other black⟩),
    ← escapeXml_chars, unescapeXml_escape]

theorem escapeXml_free (text : List Char) (mark : Char) (bare : mark ∈ ['<', '>', '"', '\'']) :
    mark ∉ escapeXml text := by
  rw [escapeXml_chars, List.mem_flatMap]
  rintro ⟨char, -, member⟩
  by_cases special : char ∈ specials
  · have clear : ['<', '>', '"', '\''].all
        (fun mark => !(specials.flatMap escapeChar).contains mark) = true := by
      decide
    have apart := List.all_eq_true.mp clear mark bare
    have inside := List.mem_flatMap.mpr ⟨char, special, member⟩
    rw [List.contains_iff_mem.mpr inside] at apart
    cases apart
  · rw [escapeChar_plain char special, List.mem_singleton] at member
    exact special (member ▸ List.mem_cons_of_mem '&' bare)

theorem escapeXml_noTag (text : List Char) : '<' ∉ escapeXml text :=
  escapeXml_free text '<' List.mem_cons_self

/-- Reading an escaped value back gives the value, white space around it apart. -/
theorem escaping_undone (text : List Char) :
    unescapeXml (escapeXml text) = text ∧
      (∀ mark ∈ ['<', '>', '"', '\''], mark ∉ escapeXml text) ∧
      unescapeXml (trim (escapeXml text)) = trim text := by
  refine ⟨unescapeXml_escape text, ?_, unescapeXml_trim text⟩
  intro mark bare
  exact escapeXml_free text mark bare

example : unescapeXml (escapeXml "&lt;".toList) = "&lt;".toList := by decide

/-! Names. -/

theorem nameChar_code (char : Char) (own : nameChar char = true) :
    (45 ≤ char.toNat ∧ char.toNat ≤ 57 ∧ char.toNat ≠ 47) ∨
      (65 ≤ char.toNat ∧ char.toNat ≤ 122) := by
  simp only [nameChar, Bool.or_eq_true, beq_iff_eq] at own
  rcases own with ((alphanumeric | rfl) | rfl) | rfl
  · rcases Bool.or_eq_true_iff.mp alphanumeric with alpha | digit
    · have code := alpha_code char alpha
      omega
    · have code := digit_code char digit
      omega
  all_goals decide

theorem nameChar_inside (char : Char) (own : nameChar char = true) :
    nameEnd char = false ∧ char ∉ ['<', '>', '/', '!', '?'] := by
  have code := nameChar_code char own
  constructor
  · have notGt : char ≠ '>' := fun same => by rw [same] at code; exact absurd code (by decide)
    have notSlash : char ≠ '/' := fun same => by rw [same] at code; exact absurd code (by decide)
    have black : isWhitespace char = false := by
      unfold isWhitespace
      simp only [Bool.or_eq_false_iff, Bool.and_eq_false_iff, decide_eq_false_iff_not,
        beq_eq_false_iff_ne]
      omega
    rw [nameEnd, black, beq_eq_false_iff_ne.mpr notGt, beq_eq_false_iff_ne.mpr notSlash]
    rfl
  · intro member
    have apart : ['<', '>', '/', '!', '?'].all (fun other => !nameChar other) = true := by decide
    have other := List.all_eq_true.mp apart char member
    rw [own] at other
    cases other

theorem name_chars (name : XmlName) :
    ∃ first more, name.1 = first :: more ∧ ∀ char ∈ name.1, nameChar char = true := by
  obtain ⟨text, named⟩ := name
  cases text with
  | nil => cases named
  | cons first more =>
      obtain ⟨start, rest⟩ := Bool.and_eq_true_iff.mp named
      refine ⟨first, more, rfl, fun char member => ?_⟩
      rcases List.mem_cons.mp member with rfl | later
      · unfold nameChar Char.isAlphanum
        rcases Bool.or_eq_true_iff.mp start with letter | line
        · rw [letter]
          rfl
        · rw [line, Bool.or_true]
          rfl
      · exact List.all_eq_true.mp rest char later

theorem name_free (name : XmlName) (char : Char) (mark : char ∈ ['<', '>', '/', '!', '?']) :
    char ∉ name.1 := by
  obtain ⟨_, _, _, chars⟩ := name_chars name
  intro member
  exact (nameChar_inside char (chars char member)).2 mark

/-! One written child is one turn of the scanner. -/

theorem parseRest_turn (rest : List Char) (map : Values) :
    parseRest rest map =
      match scanChild (trimStartMatches isWhitespace rest) with
      | .stop => map
      | .skip later => parseRest later map
      | .child name value later => parseRest later (map.insert name value) := by
  rw [parseRest]
  split <;> rename_i turn <;> rw [turn]

theorem parseRest_white (char : Char) (rest : List Char) (map : Values)
    (white : isWhitespace char = true) : parseRest (char :: rest) map = parseRest rest map := by
  rw [parseRest_turn, parseRest_turn rest, trimStartMatches, List.dropWhile_cons_of_pos white]
  rfl

theorem scanElement_open (name : XmlName) (tail : List Char) :
    scanElement (name.1 ++ '>' :: tail) = scanNamed name.1 ('>' :: tail) := by
  obtain ⟨_, _, _, chars⟩ := name_chars name
  have inside : ∀ char ∈ name.1, (!nameEnd char) = true := by
    intro char member
    rw [(nameChar_inside char (chars char member)).1]
    rfl
  rw [scanElement, List.takeWhile_append_of_pos inside, List.dropWhile_append_of_pos inside]
  change scanNamed (name.1 ++ []) ('>' :: tail) = _
  rw [List.append_nil]

theorem scanChild_open (name : XmlName) (tail : List Char) :
    scanChild (openTag name.1 ++ tail) = scanNamed name.1 ('>' :: tail) := by
  obtain ⟨first, more, shape, _⟩ := name_chars name
  have apart : ∀ mark ∈ ['<', '>', '/', '!', '?'], mark ≠ first := by
    intro mark member same
    exact name_free name mark member (by rw [shape, same]; exact List.mem_cons_self)
  have bang : '!' ≠ first := apart '!' (by decide)
  have query : '?' ≠ first := apart '?' (by decide)
  have slash : '/' ≠ first := apart '/' (by decide)
  rw [← scanElement_open, openTag, List.cons_append, List.append_assoc, List.singleton_append]
  rw [scanChild, shape]
  simp [List.isPrefixOf, bang, query, slash]

theorem scanNamed_closed (name : XmlName) (inner rest : List Char) (noTag : '<' ∉ inner) :
    scanNamed name.1 ('>' :: (inner ++ (closeTag name.1 ++ rest))) =
      .child name (unescapeXml (trim inner)) rest := by
  have split : splitText (inner ++ (closeTag name.1 ++ rest)) (closeTag name.1) =
      some (inner, rest) := splitText_front inner rest _ '<' noTag
  rw [scanNamed, dif_pos name.2, splitOnce, if_pos rfl]
  simp only [split]
  rfl

theorem scanNamed_unclosed (name : XmlName) (inner : List Char) (noTag : '<' ∉ inner) :
    scanNamed name.1 ('>' :: inner) = .stop := by
  have split : splitText inner (closeTag name.1) = none := splitText_none inner _ '<' noTag
  rw [scanNamed, dif_pos name.2, splitOnce, if_pos rfl]
  simp only [split]
  rfl

theorem trimStart_open (name rest : List Char) :
    trimStartMatches isWhitespace (openTag name ++ rest) = openTag name ++ rest :=
  List.dropWhile_cons_of_neg (by decide)

def trimmedEntry (entry : XmlName × List Char) : XmlName × List Char := (entry.1, trim entry.2)

theorem parseRest_child (entry : XmlName × List Char) (rest : List Char) (map : Values) :
    parseRest (writtenChild entry ++ rest) map =
      parseRest rest (map.insert entry.1 (trim entry.2)) := by
  change parseRest (' ' :: ' ' :: (openTag entry.1.1 ++ (escapeXml entry.2 ++
    (closeTag entry.1.1 ++ ['\n'])) ++ rest)) map = _
  rw [parseRest_white _ _ _ rfl, parseRest_white _ _ _ rfl, parseRest_turn, List.append_assoc,
    List.append_assoc, List.append_assoc, trimStart_open, scanChild_open,
    scanNamed_closed _ _ _ (escapeXml_noTag entry.2), unescapeXml_trim]
  exact parseRest_white '\n' rest _ rfl

theorem parseRest_children (entries : List (XmlName × List Char)) (rest : List Char)
    (map : Values) :
    parseRest (entries.flatMap writtenChild ++ rest) map =
      parseRest rest (map.insertAll (entries.map trimmedEntry)) := by
  induction entries generalizing map with
  | nil => rfl
  | cons entry later ih =>
      rw [List.flatMap_cons, List.append_assoc, parseRest_child, ih]
      rfl

theorem parseRest_nil (map : Values) : parseRest [] map = map := by
  rw [parseRest_turn]
  rfl

theorem parseRest_unclosed (name : XmlName) (value : List Char) (map : Values) :
    parseRest (' ' :: ' ' :: (openTag name.1 ++ escapeXml value)) map = map := by
  rw [parseRest_white _ _ _ rfl, parseRest_white _ _ _ rfl, parseRest_turn, trimStart_open,
    scanChild_open, scanNamed_unclosed _ _ (escapeXml_noTag value)]

/-! Where the root is cut off. -/

theorem closeTag_other (root name : XmlName) (rest : List Char) (apart : name ≠ root) :
    (closeTag root.1).isPrefixOf (closeTag name.1 ++ rest) = false := by
  rw [Bool.eq_false_iff]
  intro hit
  obtain ⟨tail, whole⟩ := List.isPrefixOf_iff_prefix.mp hit
  simp only [closeTag, List.cons_append, List.append_assoc, List.cons.injEq, true_and,
    List.nil_append] at whole
  have left := splitOnce_front root.1 tail '>' (name_free root '>' (by decide))
  have right := splitOnce_front name.1 rest '>' (name_free name '>' (by decide))
  rw [whole, right] at left
  exact apart (Subtype.ext (congrArg Prod.fst (Option.some.inj left)))

theorem cut_open (root name : XmlName) (value rest : List Char) :
    splitText (' ' :: ' ' :: (openTag name.1 ++ (escapeXml value ++ rest))) (closeTag root.1) =
      (splitText rest (closeTag root.1)).map fun parts =>
        (' ' :: ' ' :: (openTag name.1 ++ (escapeXml value ++ parts.1)), parts.2) := by
  obtain ⟨first, more, shape, _⟩ := name_chars name
  have slash : '/' ≠ first := by
    intro same
    exact name_free name '/' (by decide) (by rw [shape, same]; exact List.mem_cons_self)
  have written : ∀ tail, openTag name.1 ++ (escapeXml value ++ tail) =
      '<' :: (name.1 ++ '>' :: escapeXml value ++ tail) := by
    intro tail
    simp [openTag]
  -- A closing tag has a slash where an opening one begins its name.
  have miss : (closeTag root.1).isPrefixOf
      ('<' :: (name.1 ++ '>' :: escapeXml value ++ rest)) = false := by
    simp [closeTag, shape, List.isPrefixOf, slash]
  have clear : '<' ∉ name.1 ++ '>' :: escapeXml value := by
    intro member
    rcases List.mem_append.mp member with inside | inside
    · exact name_free name '<' (by decide) inside
    · exact escapeXml_noTag value ((List.mem_cons.mp inside).resolve_left (by decide))
  have blanks := splitText_skip [' ', ' '] ('<' :: (name.1 ++ '>' :: escapeXml value ++ rest))
    ('/' :: (root.1 ++ ['>'])) '<' (by decide)
  have opened := splitText_miss '<' _ _ miss
  have passed := splitText_skip (name.1 ++ '>' :: escapeXml value) rest
    ('/' :: (root.1 ++ ['>'])) '<' clear
  unfold closeTag at opened ⊢
  rw [written]
  refine blanks.trans ?_
  rw [opened, passed]
  cases splitText rest ('<' :: '/' :: (root.1 ++ ['>'])) with
  | none => rfl
  | some parts =>
      dsimp only [Option.map_some]
      rw [written]
      rfl

theorem writtenChild_append (entry : XmlName × List Char) (tail : List Char) :
    writtenChild entry ++ tail = ' ' :: ' ' :: (openTag entry.1.1 ++
      (escapeXml entry.2 ++ (closeTag entry.1.1 ++ '\n' :: tail))) := by
  simp [writtenChild]

theorem cut_child (root : XmlName) (entry : XmlName × List Char) (rest : List Char)
    (apart : entry.1 ≠ root) :
    splitText (writtenChild entry ++ rest) (closeTag root.1) =
      (splitText rest (closeTag root.1)).map fun parts =>
        (writtenChild entry ++ parts.1, parts.2) := by
  have clear : '<' ∉ '/' :: (entry.1.1 ++ ['>']) ++ ['\n'] := by
    have free := name_free entry.1 '<' (by decide)
    simp [free]
  have regroup : ∀ tail, closeTag entry.1.1 ++ '\n' :: tail =
      '<' :: ('/' :: (entry.1.1 ++ ['>']) ++ ['\n'] ++ tail) := by
    intro tail
    simp [closeTag]
  have miss := closeTag_other root entry.1 ('\n' :: rest) apart
  rw [regroup] at miss
  have closed := splitText_miss '<' _ _ miss
  have passed := splitText_skip ('/' :: (entry.1.1 ++ ['>']) ++ ['\n']) rest
    ('/' :: (root.1 ++ ['>'])) '<' clear
  rw [writtenChild_append, cut_open, regroup, closed]
  unfold closeTag
  rw [passed]
  cases splitText rest ('<' :: '/' :: (root.1 ++ ['>'])) with
  | none => rfl
  | some parts =>
      dsimp only [Option.map_some]
      rw [writtenChild_append, regroup]

theorem cut_children (root : XmlName) (entries : List (XmlName × List Char)) (rest : List Char)
    (apart : ∀ entry ∈ entries, entry.1 ≠ root) :
    splitText (entries.flatMap writtenChild ++ rest) (closeTag root.1) =
      (splitText rest (closeTag root.1)).map fun parts =>
        (entries.flatMap writtenChild ++ parts.1, parts.2) := by
  induction entries with
  | nil => simp
  | cons entry later ih =>
      rw [List.flatMap_cons, List.append_assoc,
        cut_child root entry _ (apart entry List.mem_cons_self),
        ih fun other member => apart other (List.mem_cons_of_mem entry member)]
      cases splitText rest (closeTag root.1) with
      | none => rfl
      | some parts => simp [List.append_assoc]

def rootName : XmlName := ⟨"Settings".toList, by decide⟩

theorem innerElement_saved (values : Values) :
    innerElement (trimStartMatches byteOrderMark (toXml values)) "Settings".toList =
      (splitText (values.entries.flatMap writtenChild ++ "</Settings>\n".toList)
        (closeTag rootName.1)).map fun parts => '\n' :: parts.1 := by
  have start : toXml values = '<' :: "Settings".toList ++
      ('>' :: '\n' :: (values.entries.flatMap writtenChild ++ "</Settings>\n".toList)) := rfl
  have marked : trimStartMatches byteOrderMark (toXml values) = toXml values :=
    List.dropWhile_cons_of_neg (by decide)
  have opened : splitOnce
      ('>' :: '\n' :: (values.entries.flatMap writtenChild ++ "</Settings>\n".toList)) '>' =
      some ([], '\n' :: (values.entries.flatMap writtenChild ++ "</Settings>\n".toList)) :=
    if_pos rfl
  have notEmpty : "/>".toList.isSuffixOf (trimEndMatches isWhitespace
      ('<' :: "Settings".toList ++ [] ++ ['>'])) = false := by decide
  have blank := splitText_skip ['\n']
    (values.entries.flatMap writtenChild ++ "</Settings>\n".toList)
    ('/' :: (rootName.1 ++ ['>'])) '<' (by decide)
  rw [marked, start, innerElement, splitText_here]
  simp only [opened, notEmpty, Bool.false_eq_true, if_false]
  refine (congrArg _ blank).trans ?_
  rw [Option.map_map]
  rfl

theorem parseSettingsXml_body (values : Values) (body rest : List Char)
    (split : splitText (values.entries.flatMap writtenChild ++ "</Settings>\n".toList)
      (closeTag rootName.1) = some (body, rest)) :
    parseSettingsXml (toXml values) = parseRest body OrderedMap.empty := by
  rw [parseSettingsXml, innerElement_saved, split]
  exact parseRest_white '\n' body _ rfl

theorem parseSettingsXml_saved (values : Values) (noRoot : rootName ∉ values.keys) :
    parseSettingsXml (toXml values) = values.mapValues trim := by
  have apart : ∀ entry ∈ values.entries, entry.1 ≠ rootName := fun entry member same =>
    noRoot (List.mem_map.mpr ⟨entry, member, same⟩)
  have closed : splitText "</Settings>\n".toList (closeTag rootName.1) = some ([], ['\n']) := by
    decide
  have split := cut_children rootName values.entries "</Settings>\n".toList apart
  rw [closed, Option.map_some] at split
  rw [parseSettingsXml_body values _ _ split, parseRest_children, parseRest_nil]
  exact OrderedMap.ext (OrderedMap.insertAll_empty _ (values.mapValues trim).ordered)

/-- A key that is named like the root closes the root: it is lost with all later keys. -/
theorem parseSettingsXml_cut (values : Values) (front back : List (XmlName × List Char))
    (value : List Char) (split : values.entries = front ++ (rootName, value) :: back) :
    (parseSettingsXml (toXml values)).entries = front.map trimmedEntry := by
  have ordered := values.ordered
  rw [split] at ordered
  obtain ⟨early, -, before⟩ := List.pairwise_append.mp ordered
  have apart : ∀ entry ∈ front, entry.1 ≠ rootName := fun entry member =>
    ne_of_lt (before entry member _ List.mem_cons_self)
  have cut := cut_children rootName front (writtenChild (rootName, value) ++
    (back.flatMap writtenChild ++ "</Settings>\n".toList)) apart
  rw [writtenChild_append, cut_open, splitText_here] at cut
  have body : values.entries.flatMap writtenChild ++ "</Settings>\n".toList =
      front.flatMap writtenChild ++ (writtenChild (rootName, value) ++
        (back.flatMap writtenChild ++ "</Settings>\n".toList)) := by
    rw [split, List.flatMap_append, List.flatMap_cons, List.append_assoc, List.append_assoc]
  rw [parseSettingsXml_body values _ _ (by rw [body, writtenChild_append, cut]; rfl),
    parseRest_children]
  have unclosed := parseRest_unclosed rootName value
    (OrderedMap.empty.insertAll (front.map trimmedEntry))
  rw [← List.append_nil (escapeXml value)] at unclosed
  rw [unclosed]
  exact OrderedMap.insertAll_empty _ (List.pairwise_map.mpr early)

/-! Any settings file, and any calls on it. -/

theorem toVec_keys (values : Values) :
    "Settings".toList ∈ (toVec values).map Prod.fst ↔ rootName ∈ values.keys := by
  unfold toVec OrderedMap.keys
  rw [List.map_map, List.mem_map, List.mem_map]
  constructor
  · rintro ⟨entry, member, same⟩
    exact ⟨entry, member, Subtype.ext same⟩
  · rintro ⟨entry, member, same⟩
    exact ⟨entry, member, congrArg Subtype.val same⟩

/-- Loading what was saved gives the same keys and the trimmed values, if and only if
no key is named like the root. -/
theorem settings_survive_iff (file : Option (List Char)) (calls : List Call) :
    let saved := run (fromPath file) calls
    toVec (parseSettingsXml (toXml saved)) =
        (toVec saved).map (fun entry => (entry.1, trim entry.2)) ↔
      "Settings".toList ∉ (toVec saved).map Prod.fst := by
  dsimp only
  generalize run (fromPath file) calls = values
  rw [toVec_keys]
  constructor
  · intro same root
    obtain ⟨entry, member, named⟩ := List.mem_map.mp root
    obtain ⟨front, back, split⟩ := List.append_of_mem member
    have loaded := parseSettingsXml_cut values front back entry.2 (by rw [split, ← named])
    have sizes := congrArg List.length same
    simp only [toVec, List.length_map, loaded, split, List.length_append, List.length_cons] at sizes
    omega
  · intro noRoot
    rw [parseSettingsXml_saved values noRoot]
    simp [toVec, OrderedMap.mapValues]

theorem settings_lost :
    let saved := run (fromPath none) [.setString "Zoom".toList "2".toList,
      .setString "Settings".toList "dark".toList, .setInteger "NetworkPortStart".toList 6500]
    (toVec saved).map Prod.fst =
        ["NetworkPortStart".toList, "Settings".toList, "Zoom".toList] ∧
      toVec (parseSettingsXml (toXml saved)) =
        [("NetworkPortStart".toList, "6500".toList)] := by
  decide +kernel

end OpenMediaTransport.Settings
