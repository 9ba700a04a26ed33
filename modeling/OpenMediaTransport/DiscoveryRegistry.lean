import OpenMediaTransport.DiscoveryServer

/-!
Whole runs of the registry, each call one step. What the registry is for is the
union of what the connected clients register: a client registers a key while its
last message about it was a registration. The server keeps one owner for a key
and forgets later registrations of it, so the owner's disconnect, or anyone's
deregistration, takes the key from the others too.

A history is a list of steps, the newest first.
-/

namespace OpenMediaTransport

variable {stream : Type}

inductive Move (stream : Type) where
  | connect (peer : SocketAddr) (target : stream)
  | message (peer : SocketAddr) (address : OmtAddress)
  | disconnect (peer : SocketAddr)

def Shared.apply (shared : Shared stream) : Move stream → Shared stream
  | .connect peer target => (shared.acceptPeer peer target).1
  | .message peer address => (shared.handleAddress peer address).1
  | .disconnect peer => (shared.disconnectPeer peer).1

def serve : List (Move stream) → Shared stream
  | [] => .init
  | move :: past => (serve past).apply move

/-- No two live connections share an address, and only live ones act. -/
def Allowed (shared : Shared stream) : Move stream → Prop
  | .connect peer _ => peer ∉ shared.connected
  | .message peer _ => peer ∈ shared.connected
  | .disconnect peer => peer ∈ shared.connected

def Valid : List (Move stream) → Prop
  | [] => True
  | move :: past => Valid past ∧ Allowed (serve past) move

/-- The client's last message about the key, on its present connection, was a registration. -/
def Registers : List (Move stream) → SocketAddr → SourceKey → Prop
  | [], _, _ => False
  | .connect peer _ :: past, client, key => peer ≠ client ∧ Registers past client key
  | .disconnect peer :: past, client, key => peer ≠ client ∧ Registers past client key
  | .message peer address :: past, client, key =>
      if peer = client ∧ address.key = key then address.removed = false
      else Registers past client key

def RegistryIsUnion (past : List (Move stream)) : Prop :=
  ∀ key, key ∈ (serve past).keys ↔ ∃ client ∈ (serve past).connected, Registers past client key

def UnionThroughout : List (Move stream) → Prop
  | [] => RegistryIsUnion ([] : List (Move stream))
  | move :: past => UnionThroughout past ∧ RegistryIsUnion (move :: past)

/-- Nobody else registers a key that a deregistration names, or that a closing client owns. -/
def Isolated (past : List (Move stream)) : Move stream → Prop
  | .connect _ _ => True
  | .message peer address => address.removed = true →
      ∀ client ∈ (serve past).connected, client ≠ peer → ¬ Registers past client address.key
  | .disconnect peer => ∀ entry ∈ (serve past).entries, entry.owner = peer →
      ∀ client ∈ (serve past).connected, client ≠ peer → ¬ Registers past client entry.key

def StepsIsolated : List (Move stream) → Prop
  | [] => True
  | move :: past => StepsIsolated past ∧ Isolated past move

/-! Runs can be tested. -/

instance decideAllowed (shared : Shared stream) : (move : Move stream) →
    Decidable (Allowed shared move)
  | .connect peer _ => inferInstanceAs (Decidable (peer ∉ shared.connected))
  | .message peer _ => inferInstanceAs (Decidable (peer ∈ shared.connected))
  | .disconnect peer => inferInstanceAs (Decidable (peer ∈ shared.connected))

instance decideValid : (history : List (Move stream)) → Decidable (Valid history)
  | [] => .isTrue trivial
  | _ :: past => haveI := decideValid past; inferInstanceAs (Decidable (_ ∧ _))

instance decideRegisters : (past : List (Move stream)) → (client : SocketAddr) →
    (key : SourceKey) → Decidable (Registers past client key)
  | [], _, _ => .isFalse id
  | .connect _ _ :: past, client, key =>
      haveI := decideRegisters past client key; inferInstanceAs (Decidable (_ ∧ _))
  | .disconnect _ :: past, client, key =>
      haveI := decideRegisters past client key; inferInstanceAs (Decidable (_ ∧ _))
  | .message peer address :: past, client, key =>
      haveI := decideRegisters past client key
      inferInstanceAs (Decidable (if peer = client ∧ address.key = key then address.removed = false
        else Registers past client key))

instance decideIsolated (past : List (Move stream)) : (move : Move stream) →
    Decidable (Isolated past move)
  | .connect _ _ => .isTrue trivial
  | .message peer address => inferInstanceAs (Decidable (address.removed = true →
      ∀ client ∈ (serve past).connected, client ≠ peer → ¬ Registers past client address.key))
  | .disconnect peer => inferInstanceAs (Decidable (∀ entry ∈ (serve past).entries,
      entry.owner = peer →
      ∀ client ∈ (serve past).connected, client ≠ peer → ¬ Registers past client entry.key))

instance decideStepsIsolated : (history : List (Move stream)) → Decidable (StepsIsolated history)
  | [] => .isTrue trivial
  | _ :: past => haveI := decideStepsIsolated past; inferInstanceAs (Decidable (_ ∧ _))

/-! What every valid run keeps, isolated or not. -/

theorem serve_unique (history : List (Move stream)) : (serve history).keys.Nodup := by
  induction history with
  | nil => exact List.nodup_nil
  | cons move past ih =>
      cases move with
      | connect peer target => exact ih
      | message peer address => exact Shared.handleAddress_unique _ peer address ih
      | disconnect peer => exact Shared.disconnectPeer_unique _ peer ih

theorem serve_consistent (history : List (Move stream)) (valid : Valid history) :
    (serve history).Consistent := by
  induction history with
  | nil => exact Shared.init_consistent
  | cons move past ih =>
      have before := ih valid.1
      cases move with
      | connect peer target => exact Shared.acceptPeer_consistent _ peer target before
      | message peer address => exact Shared.handleAddress_consistent _ peer address before valid.2
      | disconnect peer => exact Shared.disconnectPeer_consistent _ peer before

/-- The registry is consistent in every state of a run, and a client that has
disconnected, and is not back yet, owns nothing in it. -/
theorem registry_consistent_owned (history : List (Move stream)) (valid : Valid history) :
    (serve history).Consistent ∧
      (∀ peer past, history = .disconnect peer :: past →
        ∀ entry ∈ (serve history).entries, entry.owner ≠ peer) ∧
      ∀ peer ∉ (serve history).connected, ∀ entry ∈ (serve history).entries,
        entry.owner ≠ peer := by
  have consistent := serve_consistent history valid
  refine ⟨consistent, ?_, ?_⟩
  · rintro peer past rfl entry member
    exact ((Shared.disconnectPeer_entry _ peer entry).mp member).2
  · intro peer absent entry member owned
    exact absent (owned ▸ consistent.ownerLive entry member)

def ownerLeaves : List (Move Unit) :=
  [.disconnect studio, .message backup (camera false), .message studio (camera false),
    .connect backup (), .connect studio ()]

theorem registry_consistent_owned_ownerLeaves :
    (serve ownerLeaves).Consistent ∧
      (∀ peer past, ownerLeaves = .disconnect peer :: past →
        ∀ entry ∈ (serve ownerLeaves).entries, entry.owner ≠ peer) ∧
      ∀ peer ∉ (serve ownerLeaves).connected, ∀ entry ∈ (serve ownerLeaves).entries,
        entry.owner ≠ peer :=
  registry_consistent_owned ownerLeaves (by decide)

theorem owner_registers (history : List (Move stream)) (valid : Valid history) (entry : Entry)
    (member : entry ∈ (serve history).entries) :
    entry.owner ∈ (serve history).connected ∧ Registers history entry.owner entry.key := by
  induction history generalizing entry with
  | nil => cases member
  | cons move past ih =>
      cases move with
      | connect peer target =>
          obtain ⟨live, registers⟩ := ih valid.1 entry member
          -- Who connects was not connected, and owners are.
          have apart : peer ≠ entry.owner := fun same => valid.2 (same ▸ live)
          exact ⟨(Shared.mem_connected_accept _ peer _ target).mpr (.inr live), apart, registers⟩
      | disconnect peer =>
          obtain ⟨old, apart⟩ := (Shared.disconnectPeer_entry _ peer entry).mp member
          obtain ⟨live, registers⟩ := ih valid.1 entry old
          exact ⟨(Shared.mem_connected_disconnect _ peer _).mpr ⟨live, apart⟩, Ne.symm apart, registers⟩
      | message peer address =>
          have live : (serve (.message peer address :: past)).connected = (serve past).connected :=
            congrArg (List.map Prod.fst) (Shared.handleAddress_peers _ peer address)
          rw [live, Registers]
          rcases Shared.handleAddress_entry _ peer address entry member with old | ⟨asked, rfl⟩
          · obtain ⟨connected, registers⟩ := ih valid.1 entry old
            refine ⟨connected, ?_⟩
            by_cases about : peer = entry.owner ∧ address.key = entry.key
            · -- A deregistration of this key would have taken the entry out.
              rw [if_pos about]
              have present := (Shared.mem_keys _ _).mpr ⟨entry, member, rfl⟩
              rw [serve, Shared.apply, Shared.handleAddress_keys _ peer address (serve_unique past),
                if_pos about.2] at present
              exact present
            · rw [if_neg about]
              exact registers
          · exact ⟨valid.2, (if_pos ⟨rfl, rfl⟩).mpr asked⟩

/-! One step. -/

theorem connect_keeps (past : List (Move stream)) (peer : SocketAddr) (target : stream)
    (fresh : peer ∉ (serve past).connected) (before : RegistryIsUnion past) :
    RegistryIsUnion (.connect peer target :: past) := by
  intro key
  refine (before key).trans ?_
  simp only [serve, Shared.apply, Shared.mem_connected_accept, Registers]
  constructor
  · rintro ⟨client, live, registers⟩
    exact ⟨client, .inr live, fun same => fresh (same ▸ live), registers⟩
  · rintro ⟨client, rfl | live, apart, registers⟩
    · exact absurd rfl apart
    · exact ⟨client, live, registers⟩

theorem message_keeps_iff (past : List (Move stream)) (peer : SocketAddr) (address : OmtAddress)
    (connected : peer ∈ (serve past).connected) (before : RegistryIsUnion past) :
    RegistryIsUnion (.message peer address :: past) ↔ Isolated past (.message peer address) := by
  have live : (serve (.message peer address :: past)).connected = (serve past).connected :=
    congrArg (List.map Prod.fst) (Shared.handleAddress_peers _ peer address)
  have present (key : SourceKey) : key ∈ (serve (.message peer address :: past)).keys ↔ _ :=
    Shared.handleAddress_keys _ peer address (serve_unique past) key
  unfold RegistryIsUnion
  simp only [present, live, Registers]
  constructor
  · intro after removed client member apart registers
    have both := after address.key
    rw [if_pos rfl, removed] at both
    have other : ¬ (peer = client ∧ address.key = address.key) := fun same => apart same.1.symm
    exact Bool.noConfusion (both.mpr ⟨client, member, by rw [if_neg other]; exact registers⟩)
  · intro isolated key
    -- Of other keys the message says nothing, to the registry and to the union.
    by_cases about : address.key = key
    · subst about
      rw [if_pos rfl]
      constructor
      · intro asked
        exact ⟨peer, connected, (if_pos ⟨rfl, rfl⟩).mpr asked⟩
      · rintro ⟨client, member, registers⟩
        by_cases own : peer = client
        · rw [if_pos ⟨own, rfl⟩] at registers
          exact registers
        · rw [if_neg fun same => own same.1] at registers
          by_contra kept
          exact isolated (eq_true_of_ne_false kept) client member (Ne.symm own) registers
    · rw [if_neg about]
      simp only [about, and_false, if_false]
      exact before key

theorem disconnect_keeps_iff (past : List (Move stream)) (peer : SocketAddr)
    (valid : Valid past) (before : RegistryIsUnion past) :
    RegistryIsUnion (.disconnect peer :: past) ↔ Isolated past (.disconnect peer) := by
  have present (key : SourceKey) : key ∈ (serve (.disconnect peer :: past)).keys ↔
      ∃ entry ∈ (serve past).entries, entry.owner ≠ peer ∧ entry.key = key := by
    rw [Shared.mem_keys]
    simp only [serve, Shared.apply, Shared.disconnectPeer_entry, and_assoc]
  have live (client : SocketAddr) : client ∈ (serve (.disconnect peer :: past)).connected ↔
      client ∈ (serve past).connected ∧ client ≠ peer :=
    Shared.mem_connected_disconnect _ peer client
  unfold RegistryIsUnion
  simp only [present, live, Registers]
  constructor
  · intro after entry member owned client live apart registers
    obtain ⟨other, found, theirs, same⟩ :=
      (after entry.key).mpr ⟨client, ⟨live, apart⟩, Ne.symm apart, registers⟩
    have one := List.inj_on_of_nodup_map (serve_unique past) found member same
    exact theirs (one ▸ owned)
  · intro isolated key
    constructor
    · rintro ⟨entry, member, apart, rfl⟩
      obtain ⟨live, registers⟩ := owner_registers past valid entry member
      exact ⟨entry.owner, ⟨live, apart⟩, Ne.symm apart, registers⟩
    · rintro ⟨client, ⟨live, apart⟩, _, registers⟩
      obtain ⟨entry, member, same⟩ :=
        (Shared.mem_keys _ _).mp ((before key).mpr ⟨client, live, registers⟩)
      refine ⟨entry, member, ?_, same⟩
      intro owned
      exact isolated entry member owned client live apart (same ▸ registers)

theorem step_keeps_iff (past : List (Move stream)) (move : Move stream)
    (valid : Valid (move :: past)) (before : RegistryIsUnion past) :
    RegistryIsUnion (move :: past) ↔ Isolated past move := by
  cases move with
  | connect peer target => exact iff_of_true (connect_keeps past peer target valid.2 before) trivial
  | message peer address => exact message_keeps_iff past peer address valid.2 before
  | disconnect peer => exact disconnect_keeps_iff past peer valid.1 before

theorem unionThroughout_last (history : List (Move stream)) (throughout : UnionThroughout history) :
    RegistryIsUnion history := by
  cases history with
  | nil => exact throughout
  | cons move past => exact throughout.2

/-- A run shows the union in every state exactly if each of its steps is isolated. -/
theorem registry_union_iff_isolated (history : List (Move stream)) (valid : Valid history) :
    UnionThroughout history ↔ StepsIsolated history := by
  induction history with
  | nil =>
      refine iff_of_true ?_ trivial
      intro key
      exact iff_of_false List.not_mem_nil (fun ⟨_, live, _⟩ => List.not_mem_nil live)
  | cons move past ih =>
      have earlier := ih valid.1
      constructor
      · rintro ⟨throughout, last⟩
        have before := unionThroughout_last past throughout
        exact ⟨earlier.mp throughout, (step_keeps_iff past move valid before).mp last⟩
      · rintro ⟨isolated, step⟩
        have throughout := earlier.mpr isolated
        have before := unionThroughout_last past throughout
        exact ⟨throughout, (step_keeps_iff past move valid before).mpr step⟩

theorem registry_union_iff_isolated_handover :
    UnionThroughout [.disconnect studio, .message backup (camera false),
      .message studio (camera true), .message studio (camera false),
      .connect backup (), .connect studio ()] :=
  (registry_union_iff_isolated _ (by decide)).mpr (by decide)

/-- Both register the source; the first one, which owns it, disconnects. -/
theorem owner_disconnect_unregisters :
    Valid [.disconnect studio, .message backup (camera false), .message studio (camera false),
        .connect backup (), .connect studio ()] ∧
      ¬ RegistryIsUnion [.disconnect studio, .message backup (camera false),
        .message studio (camera false), .connect backup (), .connect studio ()] := by
  refine ⟨by decide, fun union => ?_⟩
  have present := (union (camera false).key).mpr ⟨backup, by decide, by decide⟩
  revert present
  decide

end OpenMediaTransport
