import OpenMediaTransport.DiscoveryRelay
import OpenMediaTransport.LastWriter

/-!
The source list of a discovery client. Its worker takes one message after the other;
the list is the table that the addresses it was told of leave.
-/

namespace OpenMediaTransport

open LastWriter

variable (documentParse : List Char → Except String Markup.XmlNode)

/-- The list after the worker's messages. A panic ends the worker and leaves the list. -/
def worker (sources : List OmtAddress) : List (List Char) → List OmtAddress
  | [] => sources
  | xml :: later =>
      match handleSource documentParse sources xml with
      | .ok next => worker next later
      | .error _ => sources

/-- The addresses in the messages that the worker gets to. -/
def addressesTold : List (List Char) → List OmtAddress
  | [] => []
  | xml :: later =>
      match OmtAddress.fromXml documentParse xml with
      | .ok (.ok address) => address :: addressesTold later
      | .ok (.error _) => addressesTold later
      | .error _ => []

theorem worker_told (sources : List OmtAddress) (messages : List (List Char)) :
    worker documentParse sources messages =
      (addressesTold documentParse messages).foldl updateSources sources := by
  induction messages generalizing sources with
  | nil => rfl
  | cons xml later ih =>
      unfold worker addressesTold handleSource
      cases OmtAddress.fromXml documentParse xml with
      -- What comes after a panic is not looked at, here as there.
      | error panic => rfl
      | ok read =>
          cases read with
          | error _ => exact ih sources
          | ok address => exact ih (updateSources sources address)

/-! One message. -/

theorem updateSources_perm (sources : List OmtAddress) (address : OmtAddress) :
    (updateSources sources address).Perm
      (sources.filter (·.key ≠ address.key) ++ if address.removed then [] else [address]) := by
  have others : sources.filter (·.key != address.key) = sources.filter (·.key ≠ address.key) := by
    apply List.filter_congr
    intro source _
    simp [bne, Bool.beq_eq_decide_eq]
  unfold updateSources
  rw [others]
  cases address.removed with
  | true => simp
  | false => exact List.perm_insertionSort _ _

def InNameOrder (sources : List OmtAddress) : Prop :=
  sources.Pairwise (·.instanceName ≤ ·.instanceName)

theorem updateSources_ordered (sources : List OmtAddress) (address : OmtAddress)
    (ordered : InNameOrder sources) : InNameOrder (updateSources sources address) := by
  unfold updateSources
  cases address.removed with
  | true => exact ordered.filter _
  | false =>
      -- The sort needs a total order of the names, and no order of what was listed.
      have total : Std.Total fun left right : OmtAddress => left.instanceName ≤ right.instanceName :=
        ⟨fun left right => le_total left.instanceName right.instanceName⟩
      have trans : IsTrans OmtAddress fun left right => left.instanceName ≤ right.instanceName :=
        ⟨fun _ _ _ => le_trans⟩
      exact List.pairwise_insertionSort _ _

/-! All of them. -/

theorem sources_told (told : List OmtAddress) :
    Holds OmtAddress.key OmtAddress.removed told (told.foldl updateSources []) ∧
      InNameOrder (told.foldl updateSources []) := by
  induction told using List.reverseRecOn with
  | nil => exact ⟨holds_nil _ _, List.Pairwise.nil⟩
  | append_singleton told address ih =>
      rw [List.foldl_append, List.foldl_cons, List.foldl_nil]
      constructor
      · exact ih.1.write address (updateSources_perm _ address)
      · exact updateSources_ordered _ address ih.2

/-- A key is listed exactly if the last message about it was no removal, with that message's
address, once, and in the order of the instance names. -/
theorem worker_lastWriter (messages : List (List Char)) :
    let sources := worker documentParse [] messages
    let told := addressesTold documentParse messages
    (sources.map OmtAddress.key).Nodup ∧
      sources.Pairwise (·.instanceName ≤ ·.instanceName) ∧
      (∀ key, key ∈ sources.map OmtAddress.key ↔
        ∃ last, lastWrite OmtAddress.key told key = some last ∧ last.removed = false) ∧
      ∀ source ∈ sources, lastWrite OmtAddress.key told source.key = some source := by
  dsimp only
  rw [worker_told]
  obtain ⟨held, ordered⟩ := sources_told (addressesTold documentParse messages)
  refine ⟨held.unique, ordered, held.key_mem, ?_⟩
  intro source member
  exact ((held.mem_iff source).mp member).1

end OpenMediaTransport
