import OpenMediaTransport.SourceAddress

/-!
Which names the constructors of `OmtAddress` survive. `limit_name_length` cuts
the source name so that `MACHINE (Name)` fits in 63 bytes; the cut is a byte
count, and a name with a wide character across it ends the thread. The other
slices of `address.rs` are at positions a search answered with, and are safe
for every text.
-/

namespace OpenMediaTransport

open Markup Text

/-- The call comes back instead of panicking. -/
def Returns {α : Type} (call : Except Panic α) : Prop := ∃ value, call = .ok value

theorem returns_ok {α : Type} (value : α) : Returns (Except.ok value : Except Panic α) :=
  ⟨value, rfl⟩

theorem returns_bind {α β : Type} (call : Except Panic α) (next : α → Except Panic β) :
    Returns (call >>= next) ↔ ∃ value, call = .ok value ∧ Returns (next value) := by
  cases call with
  | error panic =>
      constructor
      · rintro ⟨value, same⟩
        cases same
      · rintro ⟨value, same, _⟩
        cases same
  | ok value =>
      constructor
      · intro later
        exact ⟨value, rfl, later⟩
      · rintro ⟨_, same, later⟩
        cases same
        exact later

theorem returns_map {α β : Type} (call : Except Panic α) (result : α → β) :
    Returns (call >>= fun value => pure (result value)) ↔ Returns call := by
  rw [returns_bind]
  constructor
  · rintro ⟨value, same, _⟩
    exact ⟨value, same⟩
  · rintro ⟨value, same⟩
    exact ⟨value, same, returns_ok _⟩

/-! Sanitising twice is sanitising once. -/

theorem sanitizeName_trimmed (raw : List Char) : Trimmed (sanitizeName raw) := trim_trimmed _

theorem sanitizeName_clean (raw : List Char) (char : Char) (member : char ∈ sanitizeName raw) :
    nameChar char = true :=
  (List.mem_filter.mp (trim_subset _ char member)).2

theorem sanitizeName_of_clean (text : List Char) (trimmed : Trimmed text)
    (clean : ∀ char ∈ text, nameChar char = true) :
    sanitizeName text = text := by
  rw [sanitizeName, List.filter_eq_self.mpr clean, trim_of_trimmed text trimmed]

theorem sanitizeName_idempotent (raw : List Char) :
    sanitizeName (sanitizeName raw) = sanitizeName raw :=
  sanitizeName_of_clean _ (sanitizeName_trimmed raw) (sanitizeName_clean raw)

/-! The cut of `limit_name_length`. -/

/-- The bytes left for the source name: all 63, or what ` (`, `)` and the machine leave. -/
def nameRoom (machine : List Char) : Nat :=
  if machine.isEmpty then maxInstanceNameLength
  else maxInstanceNameLength - (byteLength machine + 3)

/-- A name that does not fit has a character boundary where it is cut. -/
def CutsCleanly (machine name : List Char) : Prop :=
  nameRoom machine < byteLength name → IsBoundary name (nameRoom machine)

theorem instanceName_length (address : OmtAddress) :
    byteLength address.instanceName =
      if address.machineName.isEmpty then byteLength address.name
      else byteLength address.machineName + byteLength address.name + 3 := by
  unfold OmtAddress.instanceName
  by_cases bare : address.machineName.isEmpty
  · rw [if_pos bare, if_pos bare]
  · rw [if_neg bare, if_neg bare]
    simp only [byteLength_append]
    have opening : byteLength " (".toList = 2 := rfl
    have closing : byteLength ")".toList = 1 := rfl
    omega

theorem isBoundary_zero (text : List Char) : IsBoundary text 0 := ⟨[], text, rfl, rfl⟩

/-- A full name fits exactly if the source name fits in its room, or the cut has nothing to cut. -/
theorem nameRoom_cut (address : OmtAddress) :
    (byteLength address.instanceName ≤ maxInstanceNameLength →
      byteLength address.name ≤ nameRoom address.machineName) ∧
    (maxInstanceNameLength < byteLength address.instanceName →
      nameRoom address.machineName = byteLength address.name -
        (byteLength address.instanceName - maxInstanceNameLength)) := by
  have length := instanceName_length address
  have limit : maxInstanceNameLength = 63 := rfl
  unfold nameRoom
  by_cases bare : address.machineName.isEmpty
  · rw [if_pos bare] at length ⊢
    omega
  · rw [if_neg bare] at length ⊢
    omega

theorem limitNameLength_returns (address : OmtAddress) :
    Returns address.limitNameLength ↔ CutsCleanly address.machineName address.name := by
  obtain ⟨roomy, cutAt⟩ := nameRoom_cut address
  unfold OmtAddress.limitNameLength CutsCleanly
  dsimp only
  by_cases fits : byteLength address.instanceName ≤ maxInstanceNameLength
  · rw [if_pos fits]
    exact ⟨fun _ beyond => absurd beyond (Nat.not_lt.mpr (roomy fits)), fun _ => returns_ok _⟩
  have room := cutAt (Nat.lt_of_not_le fits)
  rw [if_neg fits]
  by_cases cut : byteLength address.instanceName - maxInstanceNameLength < byteLength address.name
  · have beyond : nameRoom address.machineName < byteLength address.name := by omega
    rw [if_pos cut, ← room, returns_map]
    exact (sliceTo_boundary _ _).trans ⟨fun boundary _ => boundary, fun clean => clean beyond⟩
  · -- The machine name alone is too long: nothing is cut.
    have none : nameRoom address.machineName = 0 := by omega
    rw [if_neg cut, none]
    exact ⟨fun _ _ => isBoundary_zero _, fun _ => returns_ok _⟩

/-! The slices that are always safe. -/

/-- What stands before the first opening and between it and the last closing parenthesis. -/
theorem splitFullName_between (machine name rest : List Char) (first : '(' ∉ machine)
    (last : ')' ∉ rest) (named : machine ≠ []) :
    splitFullName (machine ++ '(' :: (name ++ ')' :: rest)) =
      if (trim machine).isEmpty ∨ (trim name).isEmpty then .ok none
      else .ok (some (trim machine, trim name)) := by
  have opening := find_front machine (name ++ ')' :: rest) '(' first
  have whole : machine ++ '(' :: (name ++ ')' :: rest) =
      (machine ++ '(' :: name) ++ ')' :: rest := by simp
  have closing : rfind? (machine ++ '(' :: (name ++ ')' :: rest)) ')' =
      some (byteLength (machine ++ '(' :: name)) := by
    rw [whole]
    exact rfind_back _ rest ')' last
  have start : byteLength (machine ++ ['(']) = byteLength machine + 1 := byteLength_append _ _
  have later : byteLength (machine ++ '(' :: name) = byteLength machine + 1 + byteLength name := by
    rw [List.append_cons, byteLength_append, start]
  have inside : ¬ (byteLength machine = 0 ∨
      byteLength (machine ++ '(' :: name) ≤ byteLength machine) := by
    have positive := byteLength_positive machine named
    omega
  have second : slice (machine ++ '(' :: (name ++ ')' :: rest)) (byteLength machine + 1)
      (byteLength (machine ++ '(' :: name)) = .ok name := by
    have cut := slice_middle (machine ++ ['(']) name (')' :: rest)
    rw [start, List.append_assoc, List.append_assoc] at cut
    exact cut
  rw [splitFullName, opening]
  dsimp only
  rw [closing]
  dsimp only
  rw [if_neg inside, sliceTo_front, second]
  dsimp only [bind, Except.bind]
  split <;> rfl

theorem splitFullName_cases (full : List Char) :
    splitFullName full = .ok none ∨
      ∃ machine name rest, full = machine ++ '(' :: (name ++ ')' :: rest) ∧ '(' ∉ machine ∧
        ')' ∉ rest ∧ machine ≠ [] := by
  unfold splitFullName
  cases opening : find? full '(' with
  | none => exact .inl rfl
  | some opened =>
      cases closing : rfind? full ')' with
      | none => exact .inl rfl
      | some closed =>
          dsimp only
          by_cases outside : opened = 0 ∨ closed ≤ opened
          · exact .inl (if_pos outside)
          · right
            obtain ⟨machine, tail, whole, first, machineSize⟩ := find_split full '(' opened opening
            obtain ⟨front, rest, same, last, frontSize⟩ := rfind_split full ')' closed closing
            obtain ⟨char, name, split, inner⟩ :=
              cuts_nested machine ('(' :: tail) front (')' :: rest) (whole ▸ same) (by omega)
            cases inner
            refine ⟨machine, name, rest, whole, first, last, ?_⟩
            rintro rfl
            exact outside (.inl machineSize.symm)

theorem splitFullName_returns (full : List Char) : Returns (splitFullName full) := by
  rcases splitFullName_cases full with none | ⟨machine, name, rest, rfl, first, last, named⟩
  · exact ⟨_, none⟩
  · rw [splitFullName_between machine name rest first last named]
    split <;> exact returns_ok _

theorem stripOmtServiceSuffix_returns (fqdn : List Char) :
    Returns (stripOmtServiceSuffix fqdn) := by
  unfold stripOmtServiceSuffix
  dsimp only
  cases found : findText? ((trimEndMatches (· == '.') fqdn).map asciiLower) "._omt.".toList with
  | none => exact returns_ok _
  | some position =>
      have boundary := findText_boundary _ _ position found
      exact (sliceTo_boundary _ position).mpr (boundary_of_lower _ position boundary)

/-! The constructors. -/

/-- Where `from_full_name` cuts: in the source name of `MACHINE (Source)`, else in the whole. -/
def FullNameCutsCleanly (fullName : List Char) : Prop :=
  (∀ machine name, splitFullName (sanitizeName fullName) = .ok (some (machine, name)) →
    CutsCleanly machine name) ∧
  (splitFullName (sanitizeName fullName) = .ok none → CutsCleanly [] (sanitizeName fullName))

theorem create_returns (name : List Char) (port : UInt16) :
    Returns (OmtAddress.create name port) ↔ CutsCleanly [] (sanitizeName name) :=
  limitNameLength_returns _

theorem fromFullName_split (fullName : List Char) (port : UInt16) (machine name : List Char)
    (taken : splitFullName (sanitizeName fullName) = .ok (some (machine, name))) :
    OmtAddress.fromFullName fullName port =
      OmtAddress.limitNameLength
        { name, machineName := machine, port, addresses := [], removed := false } := by
  unfold OmtAddress.fromFullName
  dsimp only
  rw [taken]
  rfl

theorem fromFullName_whole (fullName : List Char) (port : UInt16)
    (taken : splitFullName (sanitizeName fullName) = .ok none) :
    OmtAddress.fromFullName fullName port = OmtAddress.create (sanitizeName fullName) port := by
  unfold OmtAddress.fromFullName
  dsimp only
  rw [taken]
  dsimp only [bind, Except.bind]

theorem fromFullName_returns (fullName : List Char) (port : UInt16) :
    Returns (OmtAddress.fromFullName fullName port) ↔ FullNameCutsCleanly fullName := by
  unfold FullNameCutsCleanly
  obtain ⟨parts, taken⟩ := splitFullName_returns (sanitizeName fullName)
  cases parts with
  | none =>
      have kept := create_returns (sanitizeName fullName) port
      rw [sanitizeName_idempotent] at kept
      rw [fromFullName_whole fullName port taken, kept, taken]
      simp
  | some parts =>
      rcases parts with ⟨machine, name⟩
      rw [fromFullName_split fullName port machine name taken, limitNameLength_returns, taken]
      simp

/-- A DNS-SD name is cut only if it is one of a source, and the port is set. -/
def DnsSdCutsCleanly (fullname : List Char) (port : UInt16) : Prop :=
  ∀ instanceText, stripOmtServiceSuffix fullname = .ok instanceText →
    OmtAddress.isValidName instanceText = true → port ≠ 0 → FullNameCutsCleanly instanceText

theorem fromDnsSd_returns (fullname : List Char) (port : UInt16) (addresses : List (List Char)) :
    Returns (OmtAddress.fromDnsSd fullname port addresses) ↔ DnsSdCutsCleanly fullname port := by
  obtain ⟨instanceText, stripped⟩ := stripOmtServiceSuffix_returns fullname
  unfold OmtAddress.fromDnsSd DnsSdCutsCleanly
  rw [stripped]
  simp only [Except.ok.injEq, forall_eq']
  dsimp only [bind, Except.bind]
  by_cases refused : (!OmtAddress.isValidName instanceText || port == 0) = true
  · rw [if_pos refused]
    rw [Bool.or_eq_true, Bool.not_eq_true', beq_iff_eq] at refused
    constructor
    · intro _ valid numbered
      rcases refused with invalid | zero
      · rw [invalid] at valid
        cases valid
      · exact absurd zero numbered
    · exact fun _ => returns_ok _
  · rw [if_neg refused]
    rw [Bool.or_eq_true, Bool.not_eq_true', beq_iff_eq, not_or, Bool.not_eq_false] at refused
    have kept := fromFullName_returns instanceText port
    have mapped := returns_map (OmtAddress.fromFullName instanceText port)
      fun address => some { address with addresses }
    constructor
    · intro returned _ _
      exact kept.mp (mapped.mp returned)
    · intro clean
      exact mapped.mpr (kept.mpr (clean refused.1 refused.2))

/-- The name a URL gives: what follows the slash, or the host. -/
def urlName (rest host : List Char) : List Char :=
  if (urlParts rest).2.isEmpty then host else (urlParts rest).2

/-- A URL is cut only if its scheme and port are accepted. -/
def UrlCutsCleanly (url : List Char) : Prop :=
  ∀ rest host port, url = urlPrefix ++ rest → urlHostPort (urlParts rest).1 = .ok (host, port) →
    CutsCleanly [] (sanitizeName (urlName rest host))

theorem fromUrl_returns (url : List Char) :
    Returns (OmtAddress.fromUrl url) ↔ UrlCutsCleanly url := by
  unfold OmtAddress.fromUrl UrlCutsCleanly
  by_cases scheme : urlPrefix.isPrefixOf url = true
  · obtain ⟨rest, rfl⟩ := List.isPrefixOf_iff_prefix.mp scheme
    have after : sliceFrom (urlPrefix ++ rest) (byteLength urlPrefix) = .ok rest :=
      sliceFrom_back urlPrefix rest
    rw [if_neg (by rw [scheme]; exact Bool.false_ne_true), after]
    dsimp only [bind, Except.bind]
    simp only [List.append_cancel_left_eq]
    cases accepted : urlHostPort (urlParts rest).1 with
    | error error =>
        constructor
        · rintro _ _ host port rfl found
          rw [accepted] at found
          cases found
        · exact fun _ => returns_ok _
    | ok parts =>
        rcases parts with ⟨host, port⟩
        -- With scheme and port read, only the limit on the name can still cut inside a character.
        have kept := limitNameLength_returns
          { name := sanitizeName (urlName rest host), machineName := [], port,
            addresses := [host], removed := false }
        have mapped := returns_map (OmtAddress.limitNameLength
          { name := sanitizeName (urlName rest host), machineName := [], port,
            addresses := [host], removed := false })
          fun address => (.ok address : Except OmtError OmtAddress)
        constructor
        · rintro returned _ host' port' rfl found
          rw [accepted] at found
          cases found
          exact kept.mp (mapped.mp returned)
        · intro clean
          exact mapped.mpr (kept.mpr (clean rest host port rfl accepted))
  · have refused : (!urlPrefix.isPrefixOf url) = true := by
      rw [eq_false_of_ne_true scheme]
      rfl
    rw [if_pos refused]
    constructor
    · rintro _ rest host port rfl _
      exact absurd (List.isPrefixOf_iff_prefix.mpr (List.prefix_append _ _)) scheme
    · exact fun _ => returns_ok _

def firstAddressName : List Metadata → Option (List Char)
  | [] => none
  | .address name _ _ _ :: _ => some name
  | _ :: rest => firstAddressName rest

/-- A document is cut only in its first address, and only if that is named. -/
def ItemsCutCleanly (items : List Metadata) : Prop :=
  ∀ name, firstAddressName items = some name → name ≠ [] → FullNameCutsCleanly name

theorem fromItems_returns (items : List Metadata) :
    Returns (OmtAddress.fromItems items) ↔ ItemsCutCleanly items := by
  unfold ItemsCutCleanly
  induction items with
  | nil =>
      constructor
      · intro _ name found
        cases found
      · exact fun _ => returns_ok _
  | cons item rest ih =>
      cases item with
      | address name port removed addresses =>
          rw [OmtAddress.fromItems, firstAddressName]
          cases name with
          | nil =>
              constructor
              · rintro _ _ ⟨⟩ named
                exact absurd rfl named
              · exact fun _ => returns_ok _
          | cons char tail =>
              have kept := fromFullName_returns (char :: tail) port
              have mapped := returns_map (OmtAddress.fromFullName (char :: tail) port)
                fun address => (.ok { address with removed, addresses } :
                  Except OmtError OmtAddress)
              constructor
              · rintro returned _ ⟨⟩ _
                exact kept.mp (mapped.mp returned)
              · intro clean
                exact mapped.mpr (kept.mpr (clean _ rfl (List.cons_ne_nil _ _)))
      | _ => exact ih

/-- Each constructor returns exactly when the cut it makes, if it makes one, is clean; the other
slices never fail. -/
theorem address_constructors_return (documentParse : List Char → Except String XmlNode)
    (text hostname : List Char) (port : UInt16) (addresses : List (List Char)) :
    (Returns (OmtAddress.create text port) ↔ CutsCleanly [] (sanitizeName text)) ∧
    (Returns (OmtAddress.fromFullName text port) ↔ FullNameCutsCleanly text) ∧
    (Returns (OmtAddress.fromDnsSd text port addresses) ↔ DnsSdCutsCleanly text port) ∧
    (Returns (OmtAddress.fromUrl text) ↔ UrlCutsCleanly text) ∧
    (Returns (OmtAddress.fromXml documentParse text) ↔
      ItemsCutCleanly (parseMetadata documentParse text)) ∧
    (Returns (OmtAddress.localAddress hostname addresses text port) ↔
      CutsCleanly (sanitizeName hostname) (sanitizeName text)) ∧
    Returns (splitFullName text) ∧ Returns (stripOmtServiceSuffix text) :=
  ⟨create_returns text port, fromFullName_returns text port, fromDnsSd_returns text port addresses,
    fromUrl_returns text, fromItems_returns _, limitNameLength_returns _,
    splitFullName_returns text, stripOmtServiceSuffix_returns text⟩

/-- Thirty-two two-byte letters: byte 63 is the second half of the last one. -/
theorem wide_name_panics :
    OmtAddress.create (List.replicate 32 'é') 6400 = .error (.notCharBoundary 63) ∧
      ¬ ∀ name port, Returns (OmtAddress.create name port) := by
  have panics : OmtAddress.create (List.replicate 32 'é') 6400 = .error (.notCharBoundary 63) := by
    decide +kernel
  refine ⟨panics, fun returns => ?_⟩
  obtain ⟨address, same⟩ := returns (List.replicate 32 'é') 6400
  rw [panics] at same
  cases same

end OpenMediaTransport
