import OpenMediaTransport.SettledNames

/-!
Instance names as DNS labels. Only the source name is shortened, and only if something
of it is left: a machine name that fills the label by itself passes the limit uncut.
-/

namespace OpenMediaTransport

open Markup Text

def FitsLabel (address : OmtAddress) : Prop :=
  byteLength address.instanceName ≤ maxInstanceNameLength

/-- The machine name leaves room for one more byte, or there is nothing to shorten. -/
def LeavesRoom (machine name : List Char) : Prop :=
  byteLength machine < 60 ∨ byteLength machine + byteLength name + 3 ≤ maxInstanceNameLength

theorem leavesRoom_bare (name : List Char) : LeavesRoom [] name := .inl (by decide)

theorem limitNameLength_label (address limited : OmtAddress)
    (returned : address.limitNameLength = .ok limited) :
    FitsLabel limited ↔ LeavesRoom address.machineName address.name := by
  have limit : maxInstanceNameLength = 63 := rfl
  have whole := instanceName_length address
  have bare : address.machineName.isEmpty = true → byteLength address.machineName = 0 := by
    intro empty
    rw [List.isEmpty_iff.mp empty]
    rfl
  unfold OmtAddress.limitNameLength at returned
  unfold FitsLabel LeavesRoom
  dsimp only at returned
  split at returned
  · -- It fits as it is.
    rename_i fits
    cases returned
    refine ⟨fun _ => ?_, fun _ => fits⟩
    by_cases empty : address.machineName.isEmpty = true
    · exact .inl (by rw [bare empty]; decide)
    · rw [if_neg empty] at whole
      exact .inr (by omega)
  rename_i beyond
  split at returned
  · -- The source name is shortened by what is over.
    rename_i cut
    obtain ⟨front, back, parts, size⟩ := (sliceTo_boundary _ _).mp
      ((returns_map _ fun kept => { address with name := trim kept }).mp ⟨limited, returned⟩)
    rw [← size, parts, sliceTo_front] at returned
    cases returned
    have shorter := byteLength_trim front
    have kept := instanceName_length { address with name := trim front }
    dsimp only at kept
    by_cases empty : address.machineName.isEmpty = true
    · rw [if_pos empty] at kept whole
      have none := bare empty
      constructor
      · intro _
        exact .inl (by omega)
      · intro _
        omega
    · rw [if_neg empty] at kept whole
      constructor
      · intro _
        exact .inl (by omega)
      · intro _
        omega
  · -- The machine name alone is too long.
    rename_i uncut
    cases returned
    refine ⟨fun fits => absurd fits beyond, ?_⟩
    by_cases empty : address.machineName.isEmpty = true
    · rw [if_pos empty] at whole
      omega
    · rw [if_neg empty] at whole
      omega

/-- The two parts of a full name leave room for the label. -/
def FullNameLeavesRoom (fullName : List Char) : Prop :=
  ∀ machine name, splitFullName (sanitizeName fullName) = .ok (some (machine, name)) →
    LeavesRoom machine name

theorem create_label (name : List Char) (port : UInt16) (address : OmtAddress)
    (made : OmtAddress.create name port = .ok address) : FitsLabel address :=
  (limitNameLength_label _ address made).mpr (leavesRoom_bare _)

theorem fromFullName_label (fullName : List Char) (port : UInt16) (address : OmtAddress)
    (made : OmtAddress.fromFullName fullName port = .ok address) :
    FitsLabel address ↔ FullNameLeavesRoom fullName := by
  unfold FullNameLeavesRoom
  obtain ⟨parts, taken⟩ := splitFullName_returns (sanitizeName fullName)
  cases parts with
  | none =>
      rw [fromFullName_whole fullName port taken] at made
      have fits := create_label _ port address made
      simp [taken, fits]
  | some parts =>
      rcases parts with ⟨machine, name⟩
      rw [fromFullName_split fullName port machine name taken] at made
      have label := limitNameLength_label _ address made
      simp [taken, label]

theorem fromDnsSd_label (fullname : List Char) (port : UInt16) (addresses : List (List Char))
    (address : OmtAddress)
    (made : OmtAddress.fromDnsSd fullname port addresses = .ok (some address)) :
    FitsLabel address ↔
      ∀ instanceText, stripOmtServiceSuffix fullname = .ok instanceText →
        FullNameLeavesRoom instanceText := by
  obtain ⟨instanceText, stripped⟩ := stripOmtServiceSuffix_returns fullname
  unfold OmtAddress.fromDnsSd at made
  rw [stripped] at made ⊢
  dsimp only [bind, Except.bind] at made
  split at made
  · cases made
  cases whole : OmtAddress.fromFullName instanceText port with
  | error panic =>
      rw [whole] at made
      cases made
  | ok named =>
      rw [whole] at made
      cases made
      have label := fromFullName_label instanceText port named whole
      simp only [Except.ok.injEq, forall_eq']
      exact label

theorem fromUrl_label (url : List Char) (address : OmtAddress)
    (made : OmtAddress.fromUrl url = .ok (.ok address)) : FitsLabel address := by
  unfold OmtAddress.fromUrl at made
  split at made
  · cases made
  cases after : sliceFrom url (byteLength urlPrefix) with
  | error panic =>
      rw [after] at made
      cases made
  | ok rest =>
      rw [after] at made
      dsimp only [bind, Except.bind] at made
      split at made
      · cases made
      · rename_i host port accepted
        cases limited : OmtAddress.limitNameLength
            { name := sanitizeName (urlName rest host), machineName := [], port,
              addresses := [host], removed := false } with
        | error panic =>
            unfold urlName at limited
            rw [limited] at made
            cases made
        | ok kept =>
            have label := (limitNameLength_label _ kept limited).mpr (leavesRoom_bare _)
            unfold urlName at limited
            rw [limited] at made
            cases made
            exact label

theorem fromItems_label (items : List Metadata) (address : OmtAddress)
    (made : OmtAddress.fromItems items = .ok (.ok address)) :
    FitsLabel address ↔ ∀ name, firstAddressName items = some name → FullNameLeavesRoom name := by
  induction items with
  | nil => cases made
  | cons item rest ih =>
      cases item with
      | address name port removed addresses =>
          rw [OmtAddress.fromItems] at made
          split at made
          · cases made
          cases whole : OmtAddress.fromFullName name port with
          | error panic =>
              rw [whole] at made
              cases made
          | ok named =>
              rw [whole] at made
              cases made
              have label := fromFullName_label name port named whole
              simp only [firstAddressName, Option.some.injEq, forall_eq']
              exact label
      | _ => exact ih made

/-- An address built by one of the constructors has a name that fits exactly if its
machine name leaves room for the label; without a machine name it always fits. -/
theorem instance_names_fit (documentParse : List Char → Except String XmlNode)
    (text hostname : List Char) (port : UInt16) (addresses : List (List Char)) :
    (∀ address, OmtAddress.create text port = .ok address → FitsLabel address) ∧
    (∀ address, OmtAddress.fromFullName text port = .ok address →
      (FitsLabel address ↔ FullNameLeavesRoom text)) ∧
    (∀ address, OmtAddress.fromDnsSd text port addresses = .ok (some address) →
      (FitsLabel address ↔ ∀ instanceText, stripOmtServiceSuffix text = .ok instanceText →
        FullNameLeavesRoom instanceText)) ∧
    (∀ address, OmtAddress.fromUrl text = .ok (.ok address) → FitsLabel address) ∧
    (∀ address, OmtAddress.fromXml documentParse text = .ok (.ok address) →
      (FitsLabel address ↔ ∀ name, firstAddressName (parseMetadata documentParse text) = some name →
        FullNameLeavesRoom name)) ∧
    (∀ address, OmtAddress.localAddress hostname addresses text port = .ok address →
      (FitsLabel address ↔ LeavesRoom (sanitizeName hostname) (sanitizeName text))) :=
  ⟨create_label text port, fromFullName_label text port, fromDnsSd_label text port addresses,
    fromUrl_label text, fun address => fromItems_label _ address,
    fun address => limitNameLength_label _ address⟩

/-- A machine name of 60 bytes: the name of the host, or of a discovered source. -/
theorem wide_machine_overflows :
    OmtAddress.localAddress (List.replicate 60 'H') [] "C".toList 6400 =
        .ok ⟨"C".toList, List.replicate 60 'H', 6400, [], false⟩ ∧
      OmtAddress.fromFullName (List.replicate 60 'H' ++ " (C)".toList) 6400 =
        .ok ⟨"C".toList, List.replicate 60 'H', 6400, [], false⟩ ∧
      ¬ FitsLabel ⟨"C".toList, List.replicate 60 'H', 6400, [], false⟩ := by
  unfold FitsLabel
  decide +kernel

end OpenMediaTransport
