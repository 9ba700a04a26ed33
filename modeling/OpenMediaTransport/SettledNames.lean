import OpenMediaTransport.NameLimits

/-!
A name that `from_full_name` has read once reads back to itself: taken apart and
cut once, it is neither split elsewhere nor cut again. This is what keeps the key
of a source the same from hop to hop.
-/

namespace OpenMediaTransport

open Text

/-- The address's instance name gives the address again. -/
structure Settled (address : OmtAddress) : Prop where
  named : address.instanceName ≠ []
  trimmed : Trimmed address.instanceName
  again : OmtAddress.fromFullName address.instanceName address.port =
    .ok { address with addresses := [], removed := false }

def bareAddress (machine name : List Char) (port : UInt16) : OmtAddress :=
  { name, machineName := machine, port, addresses := [], removed := false }

/-! What a cut leaves. -/

theorem limit_fits (address : OmtAddress)
    (fits : byteLength address.instanceName ≤ maxInstanceNameLength) :
    address.limitNameLength = .ok address := by
  unfold OmtAddress.limitNameLength
  exact if_pos fits

/-- The address as it was, or with as many bytes less at the end of its name as were over. -/
theorem limitNameLength_cases (address limited : OmtAddress)
    (returned : address.limitNameLength = .ok limited) :
    limited = address ∨ ∃ front back, address.name = front ++ back ∧ front ≠ [] ∧
      byteLength address.instanceName ≤ maxInstanceNameLength + byteLength back ∧
      limited = { address with name := trim front } := by
  unfold OmtAddress.limitNameLength at returned
  dsimp only at returned
  by_cases fits : byteLength address.instanceName ≤ maxInstanceNameLength
  · rw [if_pos fits] at returned
    exact .inl (Except.ok.inj returned).symm
  rw [if_neg fits] at returned
  by_cases cut : byteLength address.instanceName - maxInstanceNameLength < byteLength address.name
  · rw [if_pos cut] at returned
    obtain ⟨front, back, whole, size⟩ := (sliceTo_boundary _ _).mp
      ((returns_map _ fun kept => { address with name := trim kept }).mp ⟨limited, returned⟩)
    rw [← size, whole, sliceTo_front] at returned
    have total := congrArg byteLength whole
    rw [byteLength_append] at total
    refine .inr ⟨front, back, whole, ?_, by omega, (Except.ok.inj returned).symm⟩
    rintro rfl
    rw [byteLength_nil] at size
    omega
  · rw [if_neg cut] at returned
    exact .inl (Except.ok.inj returned).symm

theorem instanceName_shorter (machine front name : List Char) (port : UInt16) :
    byteLength (bareAddress machine front port).instanceName + byteLength name =
      byteLength (bareAddress machine name port).instanceName + byteLength front := by
  have length (name : List Char) : byteLength (bareAddress machine name port).instanceName =
      if machine.isEmpty then byteLength name else byteLength machine + byteLength name + 3 :=
    instanceName_length (bareAddress machine name port)
  have before := length name
  have after := length front
  by_cases bare : machine.isEmpty
  · rw [if_pos bare] at before after
    omega
  · rw [if_neg bare] at before after
    omega

/-- Limiting again changes nothing, and what is left of a name is a front of it. -/
theorem limitNameLength_settles (machine name : List Char) (port : UInt16) (limited : OmtAddress)
    (trimmed : Trimmed name) (named : name ≠ [])
    (returned : (bareAddress machine name port).limitNameLength = .ok limited) :
    ∃ kept, kept <+: name ∧ kept ≠ [] ∧ Trimmed kept ∧
      limited = bareAddress machine kept port ∧ limited.limitNameLength = .ok limited := by
  rcases limitNameLength_cases _ limited returned with rfl | ⟨front, back, whole, some, beyond, same⟩
  · exact ⟨name, List.prefix_refl _, named, trimmed, rfl, returned⟩
  · change name = front ++ back at whole
    change limited = bareAddress machine (trim front) port at same
    subst same whole
    obtain ⟨char, rest, rfl⟩ := List.exists_cons_of_ne_nil some
    obtain ⟨⟨tail, front⟩, kept⟩ := trim_front char rest (trimmed.head char (rest ++ back) rfl)
    refine ⟨trim (char :: rest), ⟨tail ++ back, ?_⟩, kept, trim_trimmed _, rfl, limit_fits _ ?_⟩
    · rw [← List.append_assoc, front]
    · have shorter := instanceName_shorter machine (trim (char :: rest)) (char :: rest ++ back) port
      have lengths := congrArg byteLength front
      rw [byteLength_append] at lengths shorter
      omega

/-! The two readings of a full name. -/

theorem split_settled (machine name : List Char) (port : UInt16) (machineTrimmed : Trimmed machine)
    (nameTrimmed : Trimmed name) (machineNamed : machine ≠ []) (nameNamed : name ≠ [])
    (first : '(' ∉ machine) (machineClean : ∀ char ∈ machine, nameChar char = true)
    (nameClean : ∀ char ∈ name, nameChar char = true)
    (limit : (bareAddress machine name port).limitNameLength = .ok (bareAddress machine name port)) :
    Settled (bareAddress machine name port) := by
  have whole : (bareAddress machine name port).instanceName =
      (machine ++ [' ']) ++ '(' :: (name ++ ')' :: []) := by
    have some : ¬ machine.isEmpty = true := by simpa using machineNamed
    change (if machine.isEmpty = true then name else _) = _
    rw [if_neg some]
    have opening : " (".toList = [' ', '('] := rfl
    have closing : ")".toList = [')'] := rfl
    simp [bareAddress, opening, closing]
  have trimmed : Trimmed (bareAddress machine name port).instanceName := by
    rw [whole]
    constructor
    · intro char rest shape
      cases machine with
      | nil => exact absurd rfl machineNamed
      | cons first tail =>
          cases shape
          exact machineTrimmed.head char tail rfl
    · intro front char shape
      have ending : machine ++ [' '] ++ '(' :: (name ++ [')']) =
          (machine ++ [' '] ++ '(' :: name) ++ [')'] := by simp
      rw [ending] at shape
      rw [← (List.append_inj_right' shape rfl |> List.singleton_inj.mp)]
      decide
  have clean : ∀ char ∈ (bareAddress machine name port).instanceName, nameChar char = true := by
    intro char member
    rw [whole] at member
    simp only [List.mem_append, List.mem_cons, List.not_mem_nil, or_false] at member
    rcases member with (inMachine | rfl) | rfl | inName | rfl
    · exact machineClean char inMachine
    · decide
    · decide
    · exact nameClean char inName
    · decide
  have machineAgain : trim (machine ++ [' ']) = machine :=
    trim_append_white machine ' ' machineTrimmed machineNamed (by decide)
  have nameAgain := trim_of_trimmed name nameTrimmed
  have split : splitFullName (sanitizeName (bareAddress machine name port).instanceName) =
      .ok (some (machine, name)) := by
    rw [sanitizeName_of_clean _ trimmed clean, whole, splitFullName_between _ _ _ _
      List.not_mem_nil (by simp), machineAgain, nameAgain, if_neg]
    · simp [machineNamed, nameNamed]
    · simp [first]
  refine ⟨by rw [whole]; simp, trimmed, ?_⟩
  rw [fromFullName_split _ _ machine name split]
  exact limit

theorem whole_settled (name : List Char) (port : UInt16) (trimmed : Trimmed name)
    (named : name ≠ []) (clean : ∀ char ∈ name, nameChar char = true)
    (split : splitFullName name = .ok none)
    (limit : (bareAddress [] name port).limitNameLength = .ok (bareAddress [] name port)) :
    Settled (bareAddress [] name port) := by
  have same : (bareAddress [] name port).instanceName = name := rfl
  have sanitized := sanitizeName_of_clean name trimmed clean
  refine ⟨named, trimmed, ?_⟩
  rw [same, fromFullName_whole name _ (sanitized.symm ▸ split), OmtAddress.create, sanitized,
    sanitized]
  exact limit

theorem splitFullName_some (full machine name : List Char)
    (split : splitFullName full = .ok (some (machine, name))) :
    ∃ front inner rest, full = front ++ '(' :: (inner ++ ')' :: rest) ∧ '(' ∉ front ∧
      machine = trim front ∧ name = trim inner ∧ machine ≠ [] ∧ name ≠ [] := by
  rcases splitFullName_cases full with none | ⟨front, inner, rest, whole, first, last, some⟩
  · rw [none] at split
    cases split
  · rw [whole, splitFullName_between front inner rest first last some] at split
    split at split
    · cases split
    · rename_i both
      rw [not_or] at both
      cases split
      exact ⟨front, inner, rest, whole, first, rfl, rfl, by simpa using both.1, by simpa using both.2⟩

/-- Cutting the end off a name does not make it one that is taken apart. -/
theorem splitFullName_front (full front : List Char) (trimmed : Trimmed full)
    (shorter : front <+: full) (whole : splitFullName full = .ok none) :
    splitFullName front = .ok none := by
  rcases splitFullName_cases front with none | ⟨machine, name, rest, rfl, first, last, named⟩
  · exact none
  obtain ⟨more, rfl⟩ := shorter
  rw [splitFullName_between machine name rest first last named]
  -- The last parenthesis of the longer name may come later, with white space up to it.
  obtain ⟨inner, back, parts, final, leading⟩ : ∃ inner back,
      name ++ ')' :: rest ++ more = inner ++ ')' :: back ∧ ')' ∉ back ∧ name <+: inner := by
    cases found : rfind? (name ++ ')' :: rest ++ more) ')' with
    | none => exact absurd (by simp) ((rfind_none _ _).mp found)
    | some index =>
        obtain ⟨inner, back, parts, final, _⟩ := rfind_split _ ')' index found
        refine ⟨inner, back, parts, final, ?_⟩
        rw [List.append_assoc] at parts
        rcases List.append_eq_append_iff.mp parts with ⟨middle, longer, _⟩ | ⟨middle, same, tail⟩
        · exact ⟨middle, longer.symm⟩
        · cases middle with
          | nil => exact ⟨[], by rw [same]; simp⟩
          | cons char middle =>
              rw [List.cons_append] at tail
              have later : ')' ∈ back := by
                rw [(List.cons.inj tail).2]
                simp
              exact absurd later final
  have again : machine ++ '(' :: (name ++ ')' :: rest) ++ more =
      machine ++ '(' :: (inner ++ ')' :: back) := by
    rw [← parts]
    simp
  rw [again, splitFullName_between machine inner back first final named] at whole
  obtain ⟨char, tail, rfl⟩ := List.exists_cons_of_ne_nil named
  have black := trimmed.head char _ rfl
  have machineSome : trim (char :: tail) ≠ [] := (trim_front char tail black).2
  split at whole
  · rename_i either
    rcases either with machineNone | innerNone
    · exact absurd (List.isEmpty_iff.mp machineNone) machineSome
    · have white := (trim_eq_nil inner).mp (List.isEmpty_iff.mp innerNone)
      have nameNone : trim name = [] :=
        (trim_eq_nil name).mpr fun char member => white char (leading.subset member)
      rw [if_pos (.inr (List.isEmpty_iff.mpr nameNone))]
  · cases whole

/-- Whatever full name an address was read from, its instance name gives it again. -/
theorem fromFullName_settled (raw : List Char) (port : UInt16) (address : OmtAddress)
    (named : sanitizeName raw ≠ []) (made : OmtAddress.fromFullName raw port = .ok address) :
    Settled address ∧ address.port = port ∧
      ∀ char ∈ address.instanceName, char ∈ sanitizeName raw ∨ char ∈ " ()".toList := by
  obtain ⟨parts, taken⟩ := splitFullName_returns (sanitizeName raw)
  have trimmed := sanitizeName_trimmed raw
  have clean := sanitizeName_clean raw
  cases parts with
  | none =>
      rw [fromFullName_whole raw port taken, OmtAddress.create, sanitizeName_idempotent] at made
      obtain ⟨kept, front, some, keptTrimmed, rfl, limit⟩ :=
        limitNameLength_settles [] (sanitizeName raw) port address trimmed named made
      have within : ∀ char ∈ kept, char ∈ sanitizeName raw := fun _ member => front.subset member
      refine ⟨whole_settled kept port keptTrimmed some (fun char member =>
        clean char (within char member)) (splitFullName_front _ kept trimmed front taken) limit,
        rfl, fun char member => .inl (within char member)⟩
  | some parts =>
      rcases parts with ⟨machine, name⟩
      rw [fromFullName_split raw port machine name taken] at made
      obtain ⟨before, inner, rest, whole, first, rfl, rfl, machineNamed, nameNamed⟩ :=
        splitFullName_some _ machine name taken
      obtain ⟨kept, front, some, keptTrimmed, rfl, limit⟩ :=
        limitNameLength_settles (trim before) (trim inner) port address (trim_trimmed _) nameNamed made
      have machineWithin : ∀ char ∈ trim before, char ∈ sanitizeName raw := by
        intro char member
        rw [whole]
        exact List.mem_append_left _ (trim_subset before char member)
      have nameWithin : ∀ char ∈ kept, char ∈ sanitizeName raw := by
        intro char member
        rw [whole]
        have inside := trim_subset inner char (front.subset member)
        exact List.mem_append_right _ (List.mem_cons_of_mem _ (List.mem_append_left _ inside))
      refine ⟨split_settled (trim before) kept port (trim_trimmed _) keptTrimmed machineNamed some
        (fun member => first (trim_subset before _ member))
        (fun char member => clean char (machineWithin char member))
        (fun char member => clean char (nameWithin char member)) limit, rfl, ?_⟩
      intro char member
      change char ∈ (if (trim before).isEmpty = true then kept else _) at member
      rw [if_neg (by simpa using machineNamed)] at member
      simp only [List.mem_append] at member
      rcases member with ((inMachine | opening) | inName) | closing
      · exact .inl (machineWithin char inMachine)
      · exact .inr (List.mem_append_left [')'] opening)
      · exact .inl (nameWithin char inName)
      · exact .inr (List.mem_of_mem_tail (List.mem_of_mem_tail closing))

end OpenMediaTransport
