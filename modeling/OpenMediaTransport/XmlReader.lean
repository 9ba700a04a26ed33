import OpenMediaTransport.XmlGrammar

/-!
A reader of these documents: one pass, one character at a time, with a stack of the open
elements. It reads whatever the grammar derives, and gives the derived tree. It also reads
some texts that the grammar does not derive, as it leaves most conditions unchecked.
-/

namespace OpenMediaTransport.XmlReader

open Markup Text XmlGrammar

structure Tag where
  name : List Char
  attributes : List (List Char × List Char)

structure Scope where
  tag : Tag
  children : List SyntaxNode

/-- What ends at the first occurrence of its own mark. -/
inductive Section where
  | comment
  | cdata
  | instruction

/-- The mark, less its closing `>`. -/
def Section.mark : Section → List Char
  | .comment => ['-', '-']
  | .cdata => [']', ']']
  | .instruction => ['?']

inductive Mode where
  | data
  | opened
  | startName (seen : List Char)
  | tag (tag : Tag)
  | key (tag : Tag) (seen : List Char)
  | quote (tag : Tag) (key : List Char)
  | value (tag : Tag) (key : List Char) (quote : Char) (seen : List Char)
  | valueReference (tag : Tag) (key : List Char) (quote : Char) (value seen : List Char)
  | solidus (tag : Tag)
  | endName (seen : List Char)
  | reference (seen : List Char)
  | bang (seen : List Char)
  | body (kind : Section) (seen : List Char)

structure Reader where
  mode : Mode
  stack : List Scope
  root : Option SyntaxNode

namespace Reader

def grow (stack : List Scope) (root : Option SyntaxNode) (nodes : List SyntaxNode) : Option Reader :=
  match stack with
  | [] => none
  | scope :: outer => some ⟨.data, ⟨scope.tag, scope.children ++ nodes⟩ :: outer, root⟩

def place (stack : List Scope) (root : Option SyntaxNode) (node : SyntaxNode) : Option Reader :=
  match stack, root with
  | scope :: outer, root => some ⟨.data, ⟨scope.tag, scope.children ++ [node]⟩ :: outer, root⟩
  | [], none => some ⟨.data, [], some node⟩
  | [], some _ => none

def aside (stack : List Scope) (root : Option SyntaxNode) : Reader :=
  match stack with
  | [] => ⟨.data, [], root⟩
  | scope :: outer => ⟨.data, ⟨scope.tag, scope.children ++ [.other]⟩ :: outer, root⟩

def finish (stack : List Scope) (root : Option SyntaxNode) (kind : Section) (body : List Char) :
    Option Reader :=
  match kind with
  | .cdata => grow stack root (body.map .char)
  | _ => some (aside stack root)

def openElement (stack : List Scope) (root : Option SyntaxNode) (tag : Tag) : Reader :=
  ⟨.data, ⟨tag, []⟩ :: stack, root⟩

def closeElement (stack : List Scope) (root : Option SyntaxNode) (name : List Char) : Option Reader :=
  match stack with
  | [] => none
  | scope :: outer =>
      if scope.tag.name == name then
        place outer root (.element scope.tag.name scope.tag.attributes scope.children)
      else none

/-- Between elements there is only white space outside the root. -/
def datum (stack : List Scope) (root : Option SyntaxNode) (char : Char) : Option Reader :=
  match stack with
  | [] => if xmlSpace char then some ⟨.data, [], root⟩ else none
  | scope :: outer => grow (scope :: outer) root [.char char]

def step (reader : Reader) (char : Char) : Option Reader :=
  let stay := fun mode => some { reader with mode }
  match reader.mode with
  | .data =>
      if char == '<' then stay .opened
      else if char == '&' then stay (.reference [])
      else datum reader.stack reader.root char
  | .opened =>
      if char == '/' then stay (.endName [])
      else if char == '!' then stay (.bang [])
      else if char == '?' then stay (.body .instruction [])
      else stay (.startName [char])
  | .startName seen =>
      if xmlSpace char then stay (.tag ⟨seen, []⟩)
      else if char == '/' then stay (.solidus ⟨seen, []⟩)
      else if char == '>' then some (openElement reader.stack reader.root ⟨seen, []⟩)
      else stay (.startName (seen ++ [char]))
  | .tag tag =>
      if xmlSpace char then some reader
      else if char == '/' then stay (.solidus tag)
      else if char == '>' then some (openElement reader.stack reader.root tag)
      else stay (.key tag [char])
  | .key tag seen =>
      if xmlSpace char then some reader
      else if char == '=' then stay (.quote tag seen)
      else stay (.key tag (seen ++ [char]))
  | .quote tag key =>
      if xmlSpace char then some reader
      else if char == '"' || char == '\'' then stay (.value tag key char [])
      else none
  | .value tag key quote seen =>
      if char == quote then stay (.tag ⟨tag.name, tag.attributes ++ [(key, seen)]⟩)
      else if char == '&' then stay (.valueReference tag key quote seen [])
      else stay (.value tag key quote (seen ++ [if xmlSpace char then ' ' else char]))
  | .valueReference tag key quote value seen =>
      if char == ';' then
        match referenced seen with
        | some named => stay (.value tag key quote (value ++ [named]))
        | none => none
      else stay (.valueReference tag key quote value (seen ++ [char]))
  | .solidus tag =>
      if char == '>' then place reader.stack reader.root (.element tag.name tag.attributes [])
      else none
  | .endName seen =>
      if xmlSpace char then some reader
      else if char == '>' then closeElement reader.stack reader.root seen
      else stay (.endName (seen ++ [char]))
  | .reference seen =>
      if char == ';' then
        match referenced seen with
        | some named => grow reader.stack reader.root [.char named]
        | none => none
      else stay (.reference (seen ++ [char]))
  | .bang seen =>
      if seen ++ [char] == "--".toList then stay (.body .comment [])
      else if seen ++ [char] == "[CDATA[".toList then stay (.body .cdata [])
      else stay (.bang (seen ++ [char]))
  | .body kind seen =>
      if char == '>' && kind.mark.isSuffixOf seen then
        finish reader.stack reader.root kind (seen.take (seen.length - kind.mark.length))
      else stay (.body kind (seen ++ [char]))

def run (reader : Reader) : List Char → Option Reader
  | [] => some reader
  | char :: rest => (reader.step char).bind fun next => next.run rest

end Reader

def start : Reader := ⟨.data, [], none⟩

def read (text : List Char) : Option SyntaxNode :=
  match start.run (lineEnds text) with
  | some ⟨.data, [], some root⟩ => some root
  | _ => none

/-! What each mode does with a stretch of text. -/

namespace Reader

section Stretches
variable (stack : List Scope) (root : Option SyntaxNode)

theorem run_step (reader next : Reader) (char : Char) (rest : List Char)
    (taken : reader.step char = some next) : reader.run (char :: rest) = next.run rest := by
  rw [run, taken]
  rfl

theorem run_gather (mode : List Char → Mode) (fits : Char → Prop)
    (gathers : ∀ seen char, fits char →
      step ⟨mode seen, stack, root⟩ char = some ⟨mode (seen ++ [char]), stack, root⟩)
    (text seen rest : List Char) (all : ∀ char ∈ text, fits char) :
    run ⟨mode seen, stack, root⟩ (text ++ rest) = run ⟨mode (seen ++ text), stack, root⟩ rest := by
  induction text generalizing seen with
  | nil => rw [List.append_nil, List.nil_append]
  | cons char more ih =>
      have first := gathers seen char (all char List.mem_cons_self)
      have later := ih (seen ++ [char]) fun other member => all other (List.mem_cons_of_mem _ member)
      rw [List.append_assoc] at later
      rw [List.cons_append, run_step _ _ _ _ first]
      exact later

theorem run_gap (reader : Reader) (passes : ∀ char, xmlSpace char = true → reader.step char = some reader)
    (gap rest : List Char) (white : gap.all xmlSpace = true) :
    reader.run (gap ++ rest) = reader.run rest := by
  induction gap with
  | nil => rfl
  | cons char more ih =>
      simp only [List.all_cons, Bool.and_eq_true] at white
      rw [List.cons_append, run_step _ _ _ _ (passes char white.1), ih white.2]

theorem xmlNameChar_plain (char : Char) (named : xmlNameChar char = true) :
    xmlSpace char = false ∧ char ≠ '/' ∧ char ≠ '>' ∧ char ≠ '=' ∧ char ≠ '!' ∧ char ≠ '?' := by
  have apart (other : Char) (no : xmlNameChar other = false) : char ≠ other := by
    rintro rfl
    rw [no] at named
    cases named
  refine ⟨?_, apart _ (by decide), apart _ (by decide), apart _ (by decide), apart _ (by decide),
    apart _ (by decide)⟩
  simp [xmlSpace, apart ' ' (by decide), apart '\t' (by decide), apart '\r' (by decide),
    apart '\n' (by decide)]

theorem isName_cons (name : List Char) (named : isName name = true) :
    ∃ first more, name = first :: more ∧ ∀ char ∈ name, xmlNameChar char = true := by
  cases name with
  | nil => cases named
  | cons first more =>
      simp only [isName, Bool.and_eq_true, List.all_eq_true] at named
      refine ⟨first, more, rfl, List.forall_mem_cons.mpr ⟨?_, named.2⟩⟩
      simp [xmlNameChar, named.1]

theorem run_startName (name rest : List Char) (named : isName name = true) :
    run ⟨.opened, stack, root⟩ (name ++ rest) = run ⟨.startName name, stack, root⟩ rest := by
  obtain ⟨first, more, rfl, all⟩ := isName_cons name named
  obtain ⟨_, slash, _, _, bang, question⟩ := xmlNameChar_plain first (all first List.mem_cons_self)
  have entered : step ⟨.opened, stack, root⟩ first = some ⟨.startName [first], stack, root⟩ := by
    simp [step, slash, bang, question]
  rw [List.cons_append, run_step _ _ _ _ entered]
  refine run_gather stack root .startName (fun char => xmlNameChar char = true) ?_ more [first] rest
    fun char member => all char (List.mem_cons_of_mem _ member)
  intro seen char fits
  obtain ⟨space, slash, close, _⟩ := xmlNameChar_plain char fits
  simp [step, space, slash, close]

theorem run_endName (name rest : List Char) (named : isName name = true) :
    run ⟨.endName [], stack, root⟩ (name ++ rest) = run ⟨.endName name, stack, root⟩ rest := by
  obtain ⟨_, _, _, all⟩ := isName_cons name named
  refine run_gather stack root .endName (fun char => xmlNameChar char = true) ?_ name [] rest all
  intro seen char fits
  obtain ⟨space, _, close, _⟩ := xmlNameChar_plain char fits
  simp [step, space, close]

theorem run_key (tag : Tag) (name rest : List Char) (named : isName name = true) :
    run ⟨.tag tag, stack, root⟩ (name ++ rest) = run ⟨.key tag name, stack, root⟩ rest := by
  obtain ⟨first, more, rfl, all⟩ := isName_cons name named
  obtain ⟨space, slash, close, _⟩ := xmlNameChar_plain first (all first List.mem_cons_self)
  have entered : step ⟨.tag tag, stack, root⟩ first = some ⟨.key tag [first], stack, root⟩ := by
    simp [step, space, slash, close]
  rw [List.cons_append, run_step _ _ _ _ entered]
  refine run_gather stack root (.key tag) (fun char => xmlNameChar char = true) ?_ more [first] rest
    fun char member => all char (List.mem_cons_of_mem _ member)
  intro seen char fits
  obtain ⟨space, _, _, equals, _⟩ := xmlNameChar_plain char fits
  simp [step, space, equals]

theorem referenced_plain (body : List Char) (char : Char) (refers : referenced body = some char) :
    ∀ other ∈ body, other ≠ ';' := by
  have hex : hexDigit ';' = false := by decide
  have digit : Char.isDigit ';' = false := by decide
  rintro other member rfl
  unfold referenced at refers
  split at refers
  · split at refers
    · rename_i digits
      simp only [Bool.and_eq_true, List.all_eq_true] at digits
      simp only [List.mem_cons, Char.reduceEq, false_or] at member
      rw [digits.2 _ member] at hex
      cases hex
    · cases refers
  · split at refers
    · rename_i digits
      simp only [Bool.and_eq_true, List.all_eq_true] at digits
      simp only [List.mem_cons, Char.reduceEq, false_or] at member
      rw [digits.2 _ member] at digit
      cases digit
    · cases refers
  · exact (Markup.Reader.entityChar_cases body char refers).1 member

theorem run_reference (body : List Char) (char : Char) (rest : List Char) (scope : Scope)
    (refers : referenced body = some char) :
    run ⟨.data, scope :: stack, root⟩ ('&' :: (body ++ ';' :: rest)) =
      run ⟨.data, ⟨scope.tag, scope.children ++ [.char char]⟩ :: stack, root⟩ rest := by
  have entered : step ⟨.data, scope :: stack, root⟩ '&' =
      some ⟨.reference [], scope :: stack, root⟩ := by simp [step]
  have gathers (seen : List Char) (other : Char) (plain : other ≠ ';') :
      step ⟨.reference seen, scope :: stack, root⟩ other =
        some ⟨.reference (seen ++ [other]), scope :: stack, root⟩ := by simp [step, plain]
  have left : step ⟨.reference body, scope :: stack, root⟩ ';' =
      some ⟨.data, ⟨scope.tag, scope.children ++ [.char char]⟩ :: stack, root⟩ := by
    simp [step, refers, grow]
  rw [run_step _ _ _ _ entered,
    run_gather (scope :: stack) root .reference _ gathers body [] _ (referenced_plain body char refers)]
  exact run_step _ _ _ _ left

theorem run_value (tag : Tag) (key : List Char) (quote : Char) (written value seen rest : List Char)
    (quoted : quote = '"' ∨ quote = '\'') (valued : AttValue quote written value) :
    run ⟨.value tag key quote seen, stack, root⟩ (written ++ quote :: rest) =
      run ⟨.tag ⟨tag.name, tag.attributes ++ [(key, seen ++ value)]⟩, stack, root⟩ rest := by
  induction valued generalizing seen with
  | nil =>
      rw [List.append_nil]
      exact run_step _ _ _ _ (by simp [step])
  | bare char written value legal plain later ih =>
      have taken : step ⟨.value tag key quote seen, stack, root⟩ char =
          some ⟨.value tag key quote (seen ++ [if xmlSpace char then ' ' else char]), stack, root⟩ := by
        simp [step, plain]
      rw [List.cons_append, run_step _ _ _ _ taken, ih, List.append_assoc]
      rfl
  | reference body char written value refers later ih =>
      have apart : '&' ≠ quote := by rcases quoted with rfl | rfl <;> decide
      have entered : step ⟨.value tag key quote seen, stack, root⟩ '&' =
          some ⟨.valueReference tag key quote seen [], stack, root⟩ := by simp [step, apart]
      have gathers (more : List Char) (other : Char) (plain : other ≠ ';') :
          step ⟨.valueReference tag key quote seen more, stack, root⟩ other =
            some ⟨.valueReference tag key quote seen (more ++ [other]), stack, root⟩ := by
        simp [step, plain]
      have left : step ⟨.valueReference tag key quote seen body, stack, root⟩ ';' =
          some ⟨.value tag key quote (seen ++ [char]), stack, root⟩ := by simp [step, refers]
      rw [List.cons_append, List.append_assoc, run_step _ _ _ _ entered,
        run_gather stack root (.valueReference tag key quote seen) _ gathers body [] _
          (referenced_plain body char refers),
        List.nil_append, List.cons_append, run_step _ _ _ _ left, ih, List.append_assoc]
      rfl

theorem run_attributes (tag : Tag) (inside rest : List Char) (attributes : List (List Char × List Char))
    (attached : Attributes inside attributes) :
    run ⟨.tag tag, stack, root⟩ (inside ++ rest) =
      run ⟨.tag ⟨tag.name, tag.attributes ++ attributes⟩, stack, root⟩ rest := by
  induction attached generalizing tag with
  | nil => rw [List.append_nil, List.nil_append]
  | cons gap name before after written value more quote attributes apart loose named quoted valued later ih =>
      have inTag (char : Char) (white : xmlSpace char = true) :
          step ⟨.tag tag, stack, root⟩ char = some ⟨.tag tag, stack, root⟩ := by simp [step, white]
      have inKey (char : Char) (white : xmlSpace char = true) :
          step ⟨.key tag name, stack, root⟩ char = some ⟨.key tag name, stack, root⟩ := by
        simp [step, white]
      have inQuote (char : Char) (white : xmlSpace char = true) :
          step ⟨.quote tag name, stack, root⟩ char = some ⟨.quote tag name, stack, root⟩ := by
        simp [step, white]
      have equals : step ⟨.key tag name, stack, root⟩ '=' = some ⟨.quote tag name, stack, root⟩ := by
        simp [step, xmlSpace]
      have entered : step ⟨.quote tag name, stack, root⟩ quote =
          some ⟨.value tag name quote [], stack, root⟩ := by
        rcases quoted with rfl | rfl <;> simp [step, xmlSpace]
      simp only [List.append_assoc, List.cons_append]
      rw [run_gap _ inTag gap _ loose.1, run_key stack root tag name _ named,
        run_gap _ inKey before _ loose.2.1, run_step _ _ _ _ equals,
        run_gap _ inQuote after _ loose.2.2, run_step _ _ _ _ entered,
        run_value stack root tag name quote written value [] _ quoted valued, ih]
      simp

theorem mark_front (mark front back : List Char) (plain : '>' ∉ back)
    (found : mark ++ ['>'] <:+: front ++ back) : mark ++ ['>'] <:+: front := by
  obtain ⟨before, behind, whole⟩ := found
  -- The mark ends with `>`, so that it cannot reach into `back`.
  rcases List.append_eq_append_iff.mp whole with ⟨middle, inside, tail⟩ | ⟨middle, inside, tail⟩
  · exact ⟨before, middle, inside.symm⟩
  · rcases List.eq_nil_or_concat middle with rfl | ⟨init, last, rfl⟩
    · exact ⟨before, [], by rw [List.append_nil] at inside ⊢; exact inside⟩
    · rw [List.concat_eq_append, ← List.append_assoc, ← List.append_assoc] at inside
      have same : '>' = last := List.singleton_inj.mp (List.append_inj' inside rfl).2
      refine absurd ?_ plain
      rw [tail, ← same]
      simp

theorem mark_back (first : Char) (mark front back : List Char) (plain : first ∉ front)
    (found : first :: mark <:+: front ++ back) : first :: mark <:+: back := by
  obtain ⟨before, behind, whole⟩ := found
  rw [List.append_assoc, List.cons_append] at whole
  rcases List.append_eq_append_iff.mp whole with ⟨middle, inside, tail⟩ | ⟨middle, inside, tail⟩
  · cases middle with
    | nil => exact ⟨[], behind, by simpa using tail⟩
    | cons char more =>
        rw [List.cons_append] at tail
        obtain ⟨rfl, _⟩ := List.cons.inj tail
        exact absurd (by rw [inside]; simp) plain
  · exact ⟨middle, behind, by simpa using tail.symm⟩

theorem run_open_section (kind : Section) (text seen rest : List Char)
    (unclosed : ¬ kind.mark ++ ['>'] <:+: seen ++ text) :
    run ⟨.body kind seen, stack, root⟩ (text ++ rest) =
      run ⟨.body kind (seen ++ text), stack, root⟩ rest := by
  induction text generalizing seen with
  | nil => rw [List.append_nil, List.nil_append]
  | cons char more ih =>
      -- A `>` behind the mark would be an occurrence of it.
      have goes : ¬ (char = '>' ∧ kind.mark <:+ seen) := by
        rintro ⟨rfl, init, rfl⟩
        exact unclosed ⟨init, more, by simp⟩
      have taken : step ⟨.body kind seen, stack, root⟩ char =
          some ⟨.body kind (seen ++ [char]), stack, root⟩ := by
        simp only [step, Bool.and_eq_true, beq_iff_eq, List.isSuffixOf_iff_suffix, if_neg goes]
      have moved : seen ++ char :: more = seen ++ [char] ++ more := by simp
      rw [moved] at unclosed ⊢
      rw [List.cons_append, run_step _ _ _ _ taken, ih _ unclosed]

theorem run_section (kind : Section) (body rest : List Char) (next : Reader)
    (unclosed : ¬ kind.mark ++ ['>'] <:+: body) (finished : finish stack root kind body = some next) :
    run ⟨.body kind [], stack, root⟩ (body ++ (kind.mark ++ '>' :: rest)) = next.run rest := by
  have plain : '>' ∉ kind.mark := by cases kind <;> decide
  have whole := run_open_section stack root kind (body ++ kind.mark) [] ('>' :: rest)
    fun found => unclosed (mark_front _ _ _ plain found)
  have closed : step ⟨.body kind (body ++ kind.mark), stack, root⟩ '>' = some next := by
    simp only [step, beq_self_eq_true, Bool.true_and, List.isSuffixOf_iff_suffix,
      List.suffix_append, if_true, List.length_append, Nat.add_sub_cancel, List.take_left, finished]
  rw [List.append_assoc] at whole
  rw [whole]
  exact run_step _ _ _ _ closed

theorem run_aside (text rest : List Char) (first : Aside text) :
    run ⟨.data, stack, root⟩ (text ++ rest) = run (aside stack root) rest := by
  have opened : step ⟨.data, stack, root⟩ '<' = some ⟨.opened, stack, root⟩ := by simp [step]
  cases first with
  | comment body legal unclosed =>
      have bang : step ⟨.opened, stack, root⟩ '!' = some ⟨.bang [], stack, root⟩ := by simp [step]
      have one : step ⟨.bang [], stack, root⟩ '-' = some ⟨.bang ['-'], stack, root⟩ := by simp [step]
      have two : step ⟨.bang ['-'], stack, root⟩ '-' = some ⟨.body .comment [], stack, root⟩ := by
        simp [step]
      have closes : ¬ Section.comment.mark ++ ['>'] <:+: body := by
        rintro ⟨before, behind, rfl⟩
        exact unclosed ⟨before, '>' :: (behind ++ ['-']), by simp [Section.mark]⟩
      have read := run_section stack root .comment body rest (aside stack root) closes rfl
      simp only [List.cons_append, List.append_assoc, List.nil_append]
      rw [run_step _ _ _ _ opened, run_step _ _ _ _ bang, run_step _ _ _ _ one,
        run_step _ _ _ _ two]
      exact read
  | instruction target tail named free apart legal unclosed =>
      have question : step ⟨.opened, stack, root⟩ '?' = some ⟨.body .instruction [], stack, root⟩ := by
        simp [step]
      obtain ⟨_, _, _, all⟩ := isName_cons target named
      have closes : ¬ Section.instruction.mark ++ ['>'] <:+: target ++ tail := by
        intro found
        refine unclosed (mark_back '?' ['>'] target tail (fun member => ?_) found)
        exact (xmlNameChar_plain '?' (all _ member)).2.2.2.2.2 rfl
      have read := run_section stack root .instruction (target ++ tail) rest (aside stack root) closes rfl
      rw [List.append_assoc] at read
      simp only [List.cons_append, List.append_assoc, List.nil_append]
      rw [run_step _ _ _ _ opened, run_step _ _ _ _ question]
      exact read

theorem run_misc (text rest : List Char) (misc : Misc text) :
    run ⟨.data, [], root⟩ (text ++ rest) = run ⟨.data, [], root⟩ rest := by
  induction misc with
  | nil => rfl
  | space char more white misc ih =>
      obtain ⟨_, plain, _⟩ := xmlSpace_legal char white
      have passed : step ⟨.data, [], root⟩ char = some ⟨.data, [], root⟩ := by
        simp [step, plain, datum, white]
      rw [List.cons_append, run_step _ _ _ _ passed, ih]
  | aside front more first misc ih =>
      rw [List.append_assoc, run_aside [] root front _ first]
      exact ih

theorem run_tag (name inside gap close : List Char) (attributes : List (List Char × List Char))
    (char : Char) (attached : Attributes inside attributes) (loose : gap.all xmlSpace = true)
    (closes : char = '/' ∨ char = '>') :
    run ⟨.startName name, stack, root⟩ (inside ++ (gap ++ char :: close)) =
      run ⟨.tag ⟨name, attributes⟩, stack, root⟩ (char :: close) := by
  have passes (other : Char) (white : xmlSpace other = true) :
      step ⟨.tag ⟨name, attributes⟩, stack, root⟩ other = some ⟨.tag ⟨name, attributes⟩, stack, root⟩ := by
    simp [step, white]
  have inTag : run ⟨.tag ⟨name, []⟩, stack, root⟩ (inside ++ (gap ++ char :: close)) =
      run ⟨.tag ⟨name, attributes⟩, stack, root⟩ (char :: close) := by
    rw [run_attributes stack root ⟨name, []⟩ inside _ attributes attached, List.nil_append,
      run_gap _ passes gap _ loose]
  -- Whatever comes next, the mode changes as if there had been white space.
  have same (first : Char) (more : List Char)
      (edge : xmlSpace first = true ∨ first = '/' ∨ first = '>') :
      run ⟨.startName name, stack, root⟩ (first :: more) =
        run ⟨.tag ⟨name, []⟩, stack, root⟩ (first :: more) := by
    rcases edge with white | rfl | rfl
    · simp [run, step, white]
    · simp [run, step, xmlSpace]
    · simp [run, step, xmlSpace]
  rw [← inTag]
  cases attached with
  | nil =>
      cases gap with
      | nil => exact same char close (.inr closes)
      | cons first more =>
          simp only [List.all_cons, Bool.and_eq_true] at loose
          exact same first _ (.inl loose.1)
  | cons lead key before after written value more quote attributes apart spaces named quoted valued later =>
      obtain ⟨first, others, rfl⟩ := List.exists_cons_of_ne_nil apart
      have white := spaces.1
      simp only [List.all_cons, Bool.and_eq_true] at white
      exact same first _ (.inl white.1)

end Stretches

/-- What it is to read a part: the tree is put where the reader stands. -/
def Reads : Kind → List Char → List SyntaxNode → Prop
  | .element, text, nodes => ∀ node stack root next rest, nodes = [node] →
      place stack root node = some next → run ⟨.data, stack, root⟩ (text ++ rest) = next.run rest
  | .content _, text, nodes => ∀ scope stack root rest,
      run ⟨.data, scope :: stack, root⟩ (text ++ rest) =
        run ⟨.data, ⟨scope.tag, scope.children ++ nodes⟩ :: stack, root⟩ rest

theorem run_start_tag (stack : List Scope) (root : Option SyntaxNode)
    (name inside gap close : List Char) (attributes : List (List Char × List Char)) (char : Char)
    (named : isName name = true) (attached : Attributes inside attributes)
    (loose : gap.all xmlSpace = true) (closes : char = '/' ∨ char = '>') :
    run ⟨.data, stack, root⟩ ('<' :: (name ++ (inside ++ (gap ++ char :: close)))) =
      run ⟨.tag ⟨name, attributes⟩, stack, root⟩ (char :: close) := by
  have opened : step ⟨.data, stack, root⟩ '<' = some ⟨.opened, stack, root⟩ := by simp [step]
  rw [run_step _ _ _ _ opened, run_startName stack root name _ named,
    run_tag stack root name inside gap close attributes char attached loose closes]

theorem reads_full (name inside gap content last : List Char)
    (attributes : List (List Char × List Char)) (children : List SyntaxNode)
    (named : isName name = true) (attached : Attributes inside attributes)
    (loose : gap.all xmlSpace = true ∧ last.all xmlSpace = true)
    (inner : Reads (.content 0) content children) :
    Reads .element
      ('<' :: (name ++ (inside ++ (gap ++ '>' :: (content ++ '<' :: '/' :: (name ++ (last ++ ['>'])))))))
      [.element name attributes children] := by
  intro node stack root next rest same placed
  cases same
  have entered : step ⟨.tag ⟨name, attributes⟩, stack, root⟩ '>' =
      some ⟨.data, ⟨⟨name, attributes⟩, []⟩ :: stack, root⟩ := by simp [step, xmlSpace, openElement]
  have opened (mine : List Scope) : step ⟨.data, mine, root⟩ '<' = some ⟨.opened, mine, root⟩ := by
    simp [step]
  have slash (mine : List Scope) : step ⟨.opened, mine, root⟩ '/' = some ⟨.endName [], mine, root⟩ := by
    simp [step]
  have passes (mine : List Scope) (other : Char) (white : xmlSpace other = true) :
      step ⟨.endName name, mine, root⟩ other = some ⟨.endName name, mine, root⟩ := by
    simp [step, white]
  have closed : step ⟨.endName name, ⟨⟨name, attributes⟩, children⟩ :: stack, root⟩ '>' = some next := by
    simp [step, xmlSpace, closeElement, placed]
  simp only [List.cons_append, List.append_assoc, List.nil_append]
  rw [run_start_tag stack root name inside gap _ attributes '>' named attached loose.1 (.inr rfl),
    run_step _ _ _ _ entered, inner, List.nil_append, run_step _ _ _ _ (opened _),
    run_step _ _ _ _ (slash _), run_endName _ _ name _ named, run_gap _ (passes _) last _ loose.2,
    run_step _ _ _ _ closed]

theorem part_reads (kind : Kind) (text : List Char) (nodes : List SyntaxNode)
    (part : Part kind text nodes) : Reads kind text nodes := by
  -- On the derivation; how many brackets came before only matters to the grammar.
  induction part with
  | empty name inside gap attributes named attached distinct loose =>
      intro node stack root next rest same placed
      cases same
      have slash : step ⟨.tag ⟨name, attributes⟩, stack, root⟩ '/' =
          some ⟨.solidus ⟨name, attributes⟩, stack, root⟩ := by simp [step, xmlSpace]
      have closed : step ⟨.solidus ⟨name, attributes⟩, stack, root⟩ '>' = some next := by
        simp [step, placed]
      simp only [List.cons_append, List.append_assoc, List.nil_append]
      rw [run_start_tag stack root name inside gap _ attributes '/' named attached loose (.inl rfl),
        run_step _ _ _ _ slash, run_step _ _ _ _ closed]
  | full name inside gap content last attributes children named attached distinct loose inner ih =>
      exact reads_full name inside gap content last attributes children named attached loose ih
  | nil brackets =>
      intro scope stack root rest
      rw [List.append_nil, List.nil_append]
  | char brackets char rest nodes legal plain unclosed later ih =>
      intro scope stack root more
      have taken : step ⟨.data, scope :: stack, root⟩ char =
          some ⟨.data, ⟨scope.tag, scope.children ++ [.char char]⟩ :: stack, root⟩ := by
        simp [step, plain, datum, grow]
      rw [List.cons_append, run_step _ _ _ _ taken, ih]
      simp
  | reference brackets body char rest nodes refers later ih =>
      intro scope stack root more
      simp only [List.cons_append, List.append_assoc]
      rw [run_reference stack root body char _ scope refers, ih]
      simp
  | cdata brackets body rest nodes legal unclosed later ih =>
      intro scope stack root more
      have entered (tail : List Char) :
          run ⟨.data, scope :: stack, root⟩ ("<![CDATA[".toList ++ tail) =
            run ⟨.body .cdata [], scope :: stack, root⟩ tail := rfl
      have read := run_section (scope :: stack) root .cdata body (rest ++ more)
        ⟨.data, ⟨scope.tag, scope.children ++ body.map .char⟩ :: stack, root⟩ unclosed rfl
      simp only [List.append_assoc]
      rw [entered]
      refine read.trans ?_
      rw [ih, List.append_assoc]
  | aside brackets front rest nodes first later ih =>
      intro scope stack root more
      rw [List.append_assoc, run_aside _ _ _ _ first, aside, ih]
      simp
  | child brackets front rest node nodes first later first_ih later_ih =>
      intro scope stack root more
      rw [List.append_assoc, first_ih node (scope :: stack) root _ _ rfl rfl, later_ih]
      simp

end Reader

/-- The reader gives the tree that is derived. -/
theorem read_document (text : List Char) (root : SyntaxNode) (document : Document text root) :
    read text = some root := by
  obtain ⟨front, body, back, parts, before, part, behind⟩ := document
  have placed := Reader.part_reads _ _ _ part root [] none ⟨.data, [], some root⟩ back rfl rfl
  have ended := Reader.run_misc (some root) back [] behind
  rw [List.append_nil] at ended
  rw [read, parts, start, Reader.run_misc none front _ before, placed, ended]
  rfl

example : read "<!--top--><a b='&#49;'>\r\n]]<c/></a>".toList =
    some (.element ['a'] [(['b'], ['1'])]
      [.char '\n', .char ']', .char ']', .element ['c'] [] []]) := rfl

end OpenMediaTransport.XmlReader
