import Mathlib.Data.List.Basic

/-!
Documents of elements and character data, without attributes. `Written` relates a
content to the texts that write it; a parser that is relied on reads each of them
back. `read` is such a parser for this part of XML alone: one pass, with a stack of
the open elements.
-/

namespace OpenMediaTransport.Markup

inductive XmlNode where
  | element (name : List Char) (attributes : List (List Char × List Char))
      (children : List XmlNode)
  | text (content : List Char)
  | other

/-- The production `Char`; surrogates are no characters anyway. -/
def xmlChar (char : Char) : Bool :=
  char == '\t' || char == '\n' || char == '\r' ||
    (0x20 ≤ char.toNat && char.toNat != 0xFFFE && char.toNat != 0xFFFF)

mutual
def XmlNode.clean : XmlNode → Bool
  | .element _ _ children => cleanAll children
  | .text content => content.all xmlChar
  | .other => true

def cleanAll : List XmlNode → Bool
  | [] => true
  | node :: rest => node.clean && cleanAll rest
end

def entityChar (name : List Char) : Option Char :=
  if name == "amp".toList then some '&'
  else if name == "lt".toList then some '<'
  else if name == "gt".toList then some '>'
  else if name == "quot".toList then some '"'
  else if name == "apos".toList then some '\''
  else none

/-- A character that may stand for itself: no markup, and no line end that is normalised. -/
def bareChar (char : Char) : Bool :=
  xmlChar char && char != '<' && char != '&' && char != '>' && char != '\r'

inductive WrittenText : List Char → List Char → Prop where
  | nil : WrittenText [] []
  | bare (char : Char) (text written : List Char) (stands : bareChar char = true)
      (rest : WrittenText text written) : WrittenText (char :: text) (char :: written)
  | entity (char : Char) (name text written : List Char) (known : entityChar name = some char)
      (rest : WrittenText text written) :
      WrittenText (char :: text) ('&' :: (name ++ ';' :: written))

inductive Content where
  | last (text : List Char)
  | more (text name : List Char) (inner rest : Content)

def textNodes (text : List Char) : List XmlNode := if text.isEmpty then [] else [.text text]

def Content.nodes : Content → List XmlNode
  | .last text => textNodes text
  | .more text name inner rest => textNodes text ++ .element name [] inner.nodes :: rest.nodes

/-- Letters; XML allows more. -/
def tagName (name : List Char) : Bool := !name.isEmpty && name.all Char.isAlpha

def opening (name : List Char) : List Char := '<' :: (name ++ ['>'])

def closing (name : List Char) : List Char := '<' :: '/' :: (name ++ ['>'])

inductive Written : Content → List Char → Prop where
  | last (text written : List Char) (data : WrittenText text written) :
      Written (.last text) written
  | more (text written name inside after : List Char) (inner rest : Content)
      (data : WrittenText text written) (named : tagName name = true)
      (nested : Written inner inside) (later : Written rest after) :
      Written (.more text name inner rest)
        (written ++ (opening name ++ (inside ++ (closing name ++ after))))

def WrittenDocument (name : List Char) (content : Content) (text : List Char) : Prop :=
  tagName name = true ∧
    ∃ inside, Written content inside ∧ text = opening name ++ (inside ++ closing name)

/-- What is relied on: documents read back, and no character comes out that XML forbids. -/
structure ReadsXml (documentParse : List Char → Except String XmlNode) : Prop where
  reads : ∀ name content text, WrittenDocument name content text →
    documentParse text = .ok (.element name [] content.nodes)
  clean : ∀ text root, documentParse text = .ok root → root.clean = true

/-! The reader. -/

/-- An open element: its children so far, and the characters since the last of them. -/
structure Scope where
  name : List Char
  children : List XmlNode
  pending : List Char

def Scope.flush (scope : Scope) : Scope :=
  { scope with children := scope.children ++ textNodes scope.pending, pending := [] }

inductive Mode where
  | data
  | tag (seen : List Char)
  | entity (seen : List Char)

structure Reader where
  mode : Mode
  stack : List Scope
  root : Option XmlNode

namespace Reader

def push (stack : List Scope) (root : Option XmlNode) (char : Char) : Option Reader :=
  match stack with
  | [] => none
  | scope :: rest => some ⟨.data, { scope with pending := scope.pending ++ [char] } :: rest, root⟩

def openTag (stack : List Scope) (root : Option XmlNode) (name : List Char) : Option Reader :=
  match stack, root with
  | scope :: rest, root => some ⟨.data, ⟨name, [], []⟩ :: scope.flush :: rest, root⟩
  | [], none => some ⟨.data, [⟨name, [], []⟩], none⟩
  | [], some _ => none

def closeTag (stack : List Scope) (root : Option XmlNode) (name : List Char) : Option Reader :=
  match stack with
  | [] => none
  | scope :: rest =>
      if scope.name == name then
        let node := XmlNode.element name [] scope.flush.children
        match rest with
        | [] => some ⟨.data, [], some node⟩
        | parent :: outer =>
            some ⟨.data, { parent with children := parent.children ++ [node] } :: outer, root⟩
      else none

def endTag (stack : List Scope) (root : Option XmlNode) : List Char → Option Reader
  | '/' :: name => closeTag stack root name
  | name => openTag stack root name

def step (reader : Reader) (char : Char) : Option Reader :=
  match reader.mode with
  | .data =>
      if char == '<' then some { reader with mode := .tag [] }
      else if char == '&' then some { reader with mode := .entity [] }
      else push reader.stack reader.root char
  | .tag seen =>
      if char == '>' then endTag reader.stack reader.root seen
      else some { reader with mode := .tag (seen ++ [char]) }
  | .entity seen =>
      if char == ';' then
        match entityChar seen with
        | some named => push reader.stack reader.root named
        | none => none
      else some { reader with mode := .entity (seen ++ [char]) }

def run (reader : Reader) : List Char → Option Reader
  | [] => some reader
  | char :: rest => (reader.step char).bind fun next => next.run rest

end Reader

def read (text : List Char) : Except String XmlNode :=
  match Reader.run ⟨.data, [], none⟩ text with
  | some ⟨.data, [], some root⟩ => if root.clean then .ok root else .error "invalid character"
  | _ => .error "not a document"

/-! It reads what is written. -/

namespace Reader

theorem run_append (reader : Reader) (front back : List Char) :
    reader.run (front ++ back) = (reader.run front).bind fun next => next.run back := by
  induction front generalizing reader with
  | nil => rfl
  | cons char rest ih =>
      rw [List.cons_append, run, run]
      cases reader.step char with
      | none => rfl
      | some next => exact ih next

theorem run_single (reader : Reader) (char : Char) : reader.run [char] = reader.step char := by
  rw [run]
  cases reader.step char <;> rfl

theorem run_tag (stack : List Scope) (root : Option XmlNode) (seen name : List Char)
    (plain : '>' ∉ name) :
    run ⟨.tag seen, stack, root⟩ (name ++ ['>']) = endTag stack root (seen ++ name) := by
  induction name generalizing seen with
  | nil =>
      rw [List.append_nil, List.nil_append, run_single]
      rfl
  | cons char rest ih =>
      obtain ⟨apart, later⟩ := List.ne_and_not_mem_of_not_mem_cons plain
      have other : (char == '>') = false := beq_false_of_ne (Ne.symm apart)
      have tail := ih (seen ++ [char]) later
      rw [List.append_assoc] at tail
      rw [List.cons_append, run, step]
      dsimp only
      rw [other, if_neg Bool.false_ne_true]
      exact tail

theorem run_entity (stack : List Scope) (root : Option XmlNode) (seen name : List Char)
    (plain : ';' ∉ name) (char : Char) (known : entityChar (seen ++ name) = some char) :
    run ⟨.entity seen, stack, root⟩ (name ++ [';']) = push stack root char := by
  induction name generalizing seen with
  | nil =>
      rw [List.append_nil] at known
      rw [List.nil_append, run_single, step]
      dsimp only
      rw [if_pos (beq_self_eq_true _), known]
  | cons first rest ih =>
      obtain ⟨apart, later⟩ := List.ne_and_not_mem_of_not_mem_cons plain
      have other : (first == ';') = false := beq_false_of_ne (Ne.symm apart)
      have tail := ih (seen ++ [first]) later (by rw [List.append_assoc]; exact known)
      rw [List.cons_append, run, step]
      dsimp only
      rw [other, if_neg Bool.false_ne_true]
      exact tail

theorem entityChar_cases (name : List Char) (char : Char) (known : entityChar name = some char) :
    ';' ∉ name ∧ xmlChar char = true := by
  unfold entityChar at known
  repeat' split at known
  all_goals first
    | contradiction
    | (rename_i hit
       cases known
       rw [beq_iff_eq.mp hit]
       decide)

theorem run_text (scope : Scope) (stack : List Scope) (root : Option XmlNode)
    (text written : List Char) (data : WrittenText text written) :
    run ⟨.data, scope :: stack, root⟩ written =
      some ⟨.data, { scope with pending := scope.pending ++ text } :: stack, root⟩ := by
  induction data generalizing scope with
  | nil =>
      rw [List.append_nil]
      rfl
  | bare char text written stands rest ih =>
      simp only [bareChar, Bool.and_eq_true, bne_iff_ne] at stands
      rw [run, step]
      dsimp only
      rw [if_neg (by simpa using stands.1.1.1.2), if_neg (by simpa using stands.1.1.2)]
      have tail := ih { scope with pending := scope.pending ++ [char] }
      rw [List.append_assoc] at tail
      exact tail
  | entity char name text written known rest ih =>
      have whole : '&' :: (name ++ ';' :: written) = '&' :: (name ++ [';']) ++ written := by simp
      have entered : run ⟨.data, scope :: stack, root⟩ ('&' :: (name ++ [';'])) =
          push (scope :: stack) root char :=
        run_entity (scope :: stack) root [] name (entityChar_cases name char known).1 char known
      have tail := ih { scope with pending := scope.pending ++ [char] }
      rw [List.append_assoc] at tail
      rw [whole, run_append, entered]
      exact tail

theorem tagName_plain (name : List Char) (named : tagName name = true) :
    '>' ∉ name ∧ ∀ rest, name ≠ '/' :: rest := by
  obtain ⟨_, letters⟩ := Bool.and_eq_true_iff.mp named
  rw [List.all_eq_true] at letters
  constructor
  · intro member
    exact absurd (letters '>' member) (by decide)
  · rintro rest rfl
    exact absurd (letters '/' List.mem_cons_self) (by decide)

theorem run_opening (stack : List Scope) (root : Option XmlNode) (name : List Char)
    (named : tagName name = true) :
    run ⟨.data, stack, root⟩ (opening name) = openTag stack root name := by
  obtain ⟨plain, noSlash⟩ := tagName_plain name named
  refine (run_tag stack root [] name plain).trans ?_
  rw [List.nil_append]
  cases name with
  | nil => rfl
  | cons char rest =>
      unfold endTag
      split
      · rename_i slash
        exact absurd slash (noSlash _)
      · rfl

theorem run_closing (stack : List Scope) (root : Option XmlNode) (name : List Char)
    (named : tagName name = true) :
    run ⟨.data, stack, root⟩ (closing name) = closeTag stack root name := by
  have plain : '>' ∉ '/' :: name :=
    List.not_mem_cons_of_ne_of_not_mem (by decide) (tagName_plain name named).1
  exact run_tag stack root [] ('/' :: name) plain

/-- After a content, its nodes are the children, up to the characters still pending. -/
theorem run_content (content : Content) (written : List Char) (writes : Written content written)
    (name : List Char) (children : List XmlNode) (stack : List Scope) (root : Option XmlNode) :
    ∃ after : Scope,
      run ⟨.data, ⟨name, children, []⟩ :: stack, root⟩ written =
        some ⟨.data, after :: stack, root⟩ ∧
      after.flush = ⟨name, children ++ content.nodes, []⟩ := by
  -- The reader's scopes are those of the derivation: one more while an element is read.
  induction writes generalizing name children stack with
  | last text written data =>
      exact ⟨_, run_text _ stack root text written data, rfl⟩
  | more text written tag inside after inner rest data named nested later inner_ih rest_ih =>
      obtain ⟨deep, entered, innerNodes⟩ :=
        inner_ih tag [] (⟨name, children ++ textNodes text, []⟩ :: stack)
      have sameTag : deep.name = tag := congrArg Scope.name innerNodes
      have sameNodes : deep.flush.children = inner.nodes := congrArg Scope.children innerNodes
      obtain ⟨last, left, nodes⟩ := rest_ih name
        (children ++ textNodes text ++ [.element tag [] inner.nodes]) stack
      refine ⟨last, ?_, ?_⟩
      · have closed : closeTag (deep :: ⟨name, children ++ textNodes text, []⟩ :: stack) root tag =
            some ⟨.data, ⟨name, children ++ textNodes text ++ [.element tag [] inner.nodes], []⟩ ::
              stack, root⟩ := by
          rw [closeTag, sameTag, if_pos (beq_self_eq_true _), sameNodes]
        rw [run_append, run_text _ stack root text written data]
        dsimp only [Option.bind_some]
        rw [run_append, run_opening _ root tag named]
        change (some (Reader.mk .data (⟨tag, [], []⟩ :: ⟨name, children ++ textNodes text, []⟩ :: stack)
          root)).bind _ = _
        dsimp only [Option.bind_some]
        rw [run_append, entered]
        dsimp only [Option.bind_some]
        rw [run_append, run_closing _ root tag named, closed]
        exact left
      · rw [nodes, Content.nodes]
        simp

end Reader

theorem clean_textNodes (text written : List Char) (data : WrittenText text written) :
    cleanAll (textNodes text) = true := by
  have allowed : text.all xmlChar = true := by
    induction data with
    | nil => rfl
    | bare char text written stands rest ih =>
        simp only [bareChar, Bool.and_eq_true] at stands
        rw [List.all_cons, stands.1.1.1.1, ih]
        rfl
    | entity char name text written known rest ih =>
        rw [List.all_cons, (Reader.entityChar_cases name char known).2, ih]
        rfl
  unfold textNodes
  split
  · rfl
  · rw [cleanAll, XmlNode.clean, allowed]
    rfl

theorem cleanAll_append (front back : List XmlNode) :
    cleanAll (front ++ back) = (cleanAll front && cleanAll back) := by
  induction front with
  | nil => rfl
  | cons node rest ih => rw [List.cons_append, cleanAll, cleanAll, ih, Bool.and_assoc]

theorem clean_written (content : Content) (written : List Char)
    (writes : Written content written) : cleanAll content.nodes = true := by
  induction writes with
  | last text written data => exact clean_textNodes text written data
  | more text written tag inside after inner rest data named nested later inner_ih rest_ih =>
      rw [Content.nodes, cleanAll_append, clean_textNodes text written data, cleanAll,
        XmlNode.clean, inner_ih, rest_ih]
      rfl

theorem read_readsXml : ReadsXml read where
  reads := by
    rintro name content text ⟨named, inside, writes, rfl⟩
    obtain ⟨after, entered, nodes⟩ := Reader.run_content content inside writes name [] [] none
    have sameTag : after.name = name := congrArg Scope.name nodes
    have sameNodes : after.flush.children = content.nodes := congrArg Scope.children nodes
    have closed : Reader.closeTag [after] none name =
        some ⟨.data, [], some (.element name [] content.nodes)⟩ := by
      rw [Reader.closeTag, sameTag, if_pos (beq_self_eq_true _), sameNodes]
    have whole : Reader.run ⟨.data, [], none⟩ (opening name ++ (inside ++ closing name)) =
        some ⟨.data, [], some (.element name [] content.nodes)⟩ := by
      rw [Reader.run_append, Reader.run_opening [] none name named]
      change (some (Reader.mk .data [⟨name, [], []⟩] none)).bind _ = _
      dsimp only [Option.bind_some]
      rw [Reader.run_append, entered]
      dsimp only [Option.bind_some]
      rw [Reader.run_closing _ none name named, closed]
    rw [read, whole]
    dsimp only
    rw [if_pos]
    rw [XmlNode.clean, clean_written content inside writes]
  clean := by
    intro text root accepted
    unfold read at accepted
    split at accepted
    · split at accepted
      · rename_i clean
        cases accepted
        exact clean
      · cases accepted
    · cases accepted

end OpenMediaTransport.Markup
