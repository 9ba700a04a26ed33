import OpenMediaTransport.AddressXml
import OpenMediaTransport.DiscoveryServer

/-!
An address handed from relay to relay: each one reads the document and writes it
again. The first reading settles the name; from then on the key and the flag stay,
and so do the addresses once there is one.
-/

namespace OpenMediaTransport

open Markup Text

def OmtAddress.hops (documentParse : List Char → Except String XmlNode) :
    Nat → OmtAddress → Except Panic (Except OmtError OmtAddress)
  | 0, address => .ok (.ok address)
  | count + 1, address =>
      match OmtAddress.fromXml documentParse address.toXml with
      | .ok (.ok next) => next.hops documentParse count
      | other => other

variable (documentParse : List Char → Except String XmlNode)

theorem OmtAddress.hops_succ (count : Nat) (address : OmtAddress) :
    address.hops documentParse (count + 1) =
      match OmtAddress.fromXml documentParse address.toXml with
      | .ok (.ok next) => next.hops documentParse count
      | other => other := rfl

theorem fromXml_relayable (reads : ReadsXml documentParse) (xml : List Char)
    (address : OmtAddress) (made : OmtAddress.fromXml documentParse xml = .ok (.ok address))
    (noReturn : ∀ ip ∈ address.addresses, '\r' ∉ ip) :
    Relayable address ∧ address.writtenIps.map trim = address.writtenIps := by
  obtain ⟨settled, writable⟩ := fromXml_settled documentParse reads xml address made
  have hosts := fromXml_hosts documentParse reads xml address made
  refine ⟨⟨settled, writable, ?_⟩, ?_⟩
  · intro ip member char inside
    have allowed := (Bool.and_eq_true_iff.mp (hosts ip member)).1
    have apart : char ≠ '\r' := fun same => noReturn ip member (same ▸ inside)
    rw [writableChar, List.all_eq_true.mp allowed char inside]
    exact bne_iff_ne.mpr apart
  · unfold OmtAddress.writtenIps
    split
    · decide
    · refine (List.map_congr_left fun ip member => ?_).trans (List.map_id _)
      exact beq_iff_eq.mp (Bool.and_eq_true_iff.mp (hosts ip member)).2

/-- One hop gives the address back, with the addresses that were written. -/
theorem fromXml_again (reads : ReadsXml documentParse) (xml : List Char)
    (address : OmtAddress) (made : OmtAddress.fromXml documentParse xml = .ok (.ok address))
    (noReturn : ∀ ip ∈ address.addresses, '\r' ∉ ip) :
    OmtAddress.fromXml documentParse address.toXml =
      .ok (.ok { address with addresses := address.writtenIps }) := by
  obtain ⟨relayable, same⟩ := fromXml_relayable documentParse reads xml address made noReturn
  rw [fromXml_toXml documentParse reads address relayable, same]

theorem writtenIps_noReturn (address : OmtAddress)
    (noReturn : ∀ ip ∈ address.addresses, '\r' ∉ ip) : ∀ ip ∈ address.writtenIps, '\r' ∉ ip := by
  unfold OmtAddress.writtenIps
  split
  · intro ip member
    rw [List.mem_singleton.mp member]
    decide
  · exact noReturn

theorem hops_keep (reads : ReadsXml documentParse) (count : Nat) (xml : List Char)
    (address : OmtAddress) (made : OmtAddress.fromXml documentParse xml = .ok (.ok address))
    (noReturn : ∀ ip ∈ address.addresses, '\r' ∉ ip) :
    ∃ last, address.hops documentParse count = .ok (.ok last) ∧ last.key = address.key ∧
      last.removed = address.removed := by
  induction count generalizing xml address with
  | zero => exact ⟨address, rfl, rfl, rfl⟩
  | succ count ih =>
      have again := fromXml_again documentParse reads xml address made noReturn
      obtain ⟨last, reached, key, removed⟩ :=
        ih address.toXml _ again (writtenIps_noReturn address noReturn)
      refine ⟨last, ?_, key, removed⟩
      rw [OmtAddress.hops_succ, again]
      exact reached

/-- An address that was read stays the same over any number of relays, but for a
missing address, which becomes the unspecified one. -/
theorem fromXml_stable (reads : ReadsXml documentParse) (xml : List Char) (address : OmtAddress)
    (made : OmtAddress.fromXml documentParse xml = .ok (.ok address))
    (noReturn : ∀ ip ∈ address.addresses, '\r' ∉ ip) :
    (address.addresses ≠ [] →
        OmtAddress.fromXml documentParse address.toXml = .ok (.ok address)) ∧
      (address.addresses = [] → OmtAddress.fromXml documentParse address.toXml =
        .ok (.ok { address with addresses := ["0.0.0.0".toList] })) ∧
      ∀ count, ∃ last, address.hops documentParse count = .ok (.ok last) ∧
        last.key = address.key ∧ last.removed = address.removed := by
  have again := fromXml_again documentParse reads xml address made noReturn
  refine ⟨fun some => ?_, fun empty => ?_, fun count => ?_⟩
  · have kept : address.writtenIps = address.addresses := if_neg (by simpa using some)
    rw [again, kept]
  · have unspecified : address.writtenIps = ["0.0.0.0".toList] := if_pos (by simp [empty])
    rw [again, unspecified]
  · exact hops_keep documentParse reads count xml address made noReturn

def cameraXml : List Char :=
  "<OMTAddress><Name>HOST (Cam)</Name><Port>6400</Port></OMTAddress>".toList

theorem fromXml_stable_camera :
    ((camera false).addresses ≠ [] →
        OmtAddress.fromXml read (camera false).toXml = .ok (.ok (camera false))) ∧
      ((camera false).addresses = [] → OmtAddress.fromXml read (camera false).toXml =
        .ok (.ok { camera false with addresses := ["0.0.0.0".toList] })) ∧
      ∀ count, ∃ last, (camera false).hops read count = .ok (.ok last) ∧
        last.key = (camera false).key ∧ last.removed = (camera false).removed :=
  fromXml_stable read read_readsXml cameraXml (camera false) (by decide +kernel) (by decide)

end OpenMediaTransport
