import OpenMediaTransport.DiscoveryRelay

/-!
What every run keeps in which sends are made in turn. A registry call's sends come
after the lock is released, so a send of an earlier call may be made after one of a
later call; about the same key, to the same stream, it then carries the older state
last. As long as that does not happen, the newest pending send about a key carries
the registry's state of it, and a client to which none is pending will have that
state once it has taken what is in flight.
-/

namespace OpenMediaTransport

open Markup Text

variable (documentParse : List Char → Except String XmlNode)

/-- A send to a connected client is made before any about the same key, to the same client, of
a later call. -/
def FrontInTurn (relay : Relay) (thread : Thread) : List (Todo Nat) → Prop
  | .send target address :: _ => relay.live target → ∀ other ∈ relay.threads, other ≠ thread →
      ∀ todo ∈ relay.pending other, todo.Tells target address.key →
        relay.call thread < relay.call other
  | _ => True

/-- Only the sends are at issue: calls and clients may come in any order. -/
def InTurn (relay : Relay) : Action → Prop
  | .work thread => FrontInTurn relay thread (relay.pending thread)
  | _ => True

def RunInTurn : List Action → Prop := Runs.Throughout (Relay.act documentParse) .init InTurn

/-- The list a client has once it has taken what is in flight. -/
def Client.settle (client : Client) : Except Panic (List OmtAddress) :=
  client.inbox.foldlM (handleSource documentParse) client.sources

def Todo.Numbered (streams : Nat) : Todo Nat → Prop
  | .send target address => target < streams ∧ Relayable address
  | .emit _ => True
  | .spawn _ target => target < streams

/-- No pending send about the key, to the stream, is of a later call than the thread's. -/
def Newest (relay : Relay) (thread : Thread) (stream : Nat) (key : SourceKey) : Prop :=
  ∀ other later, .send stream later ∈ relay.pending other → later.key = key →
    relay.call other ≤ relay.call thread

/-- What runs in turn keep. A client's list is judged by what it will be, `told` by the sends
that nothing newer is pending behind. -/
structure Sound (relay : Relay) : Prop where
  unique : relay.shared.keys.Nodup
  entries : ∀ entry ∈ relay.shared.entries,
    Relayable entry.address ∧ entry.address.removed = false
  peers : ∀ peer ∈ relay.shared.peers, peer.2 < relay.streams
  loops : ∀ loop ∈ relay.loops, loop.2 < relay.streams
  todo : ∀ thread, ∀ todo ∈ relay.pending thread, todo.Numbered relay.streams
  fresh : ∀ stream, relay.streams ≤ stream →
    relay.pending (.peer stream) = [] ∧ relay.clients stream = ⟨[], []⟩
  calls : ∀ thread, relay.call thread ≤ relay.calls
  told : ∀ stream, relay.live stream → ∀ thread address,
    .send stream address ∈ relay.pending thread → Newest relay thread stream address.key →
      (address.key ∈ relay.shared.keys ↔ address.removed = false)
  views : ∀ stream, relay.live stream → ∃ final,
    (relay.clients stream).settle documentParse = .ok final ∧ ∀ key,
      relay.SendPending stream key ∨
        (key ∈ final.map OmtAddress.key ↔ key ∈ relay.shared.keys)

/-! A client takes a message. -/

theorem updateSources_keys (sources : List OmtAddress) (address : OmtAddress) (key : SourceKey) :
    key ∈ (updateSources sources address).map OmtAddress.key ↔
      if address.key = key then address.removed = false
      else key ∈ sources.map OmtAddress.key := by
  have others : key ∈ (sources.filter (·.key != address.key)).map OmtAddress.key ↔
      key ∈ sources.map OmtAddress.key ∧ key ≠ address.key := by
    simp only [List.mem_map, List.mem_filter, bne_iff_ne]
    constructor
    · rintro ⟨source, ⟨member, apart⟩, rfl⟩
      exact ⟨⟨source, member, rfl⟩, apart⟩
    · rintro ⟨⟨source, member, rfl⟩, apart⟩
      exact ⟨source, ⟨member, apart⟩, rfl⟩
  unfold updateSources
  dsimp only
  by_cases gone : address.removed = true
  · rw [if_pos gone, others, gone]
    by_cases about : address.key = key
    · simp [about]
    · simp [about, Ne.symm about]
  · have stays : address.removed = false := eq_false_of_ne_true gone
    rw [if_neg gone, (List.Perm.map _ (List.perm_insertionSort _ _)).mem_iff, List.map_append,
      List.mem_append, others, stays]
    by_cases about : address.key = key
    · simp [about]
    · simp [about, Ne.symm about]

theorem handleSource_relayed (reads : ReadsXml documentParse) (sources : List OmtAddress)
    (address : OmtAddress) (relayable : Relayable address) :
    ∃ next, handleSource documentParse sources address.toXml = .ok next ∧
      ∀ key, key ∈ next.map OmtAddress.key ↔
        if address.key = key then address.removed = false
        else key ∈ sources.map OmtAddress.key := by
  unfold handleSource
  rw [fromXml_toXml documentParse reads address relayable]
  exact ⟨_, rfl, fun key => updateSources_keys sources _ key⟩

theorem Relayable.withRemoved (address : OmtAddress) (relayable : Relayable address)
    (removed : Bool) : Relayable { address with removed } :=
  ⟨⟨relayable.named, relayable.trimmed, relayable.again⟩, relayable.writable, relayable.hosts⟩

theorem ip_writable (peer : SocketAddr) : Writable peer.ip := by
  intro char member
  have allowed := List.all_eq_true.mp peer.printed char member
  have low : char.toNat < 128 := by
    simp only [ipChar, Bool.or_eq_true, Bool.and_eq_true, decide_eq_true_eq, beq_iff_eq] at allowed
    rcases allowed with ((digit | rfl) | rfl) | letter
    · exact Nat.lt_of_le_of_lt (digit_code char digit).2 (by decide)
    · decide
    · decide
    · exact Nat.lt_of_le_of_lt (UInt32.le_iff_toNat_le.mp letter.2) (by decide)
  have checked := ascii_all (fun char => !ipChar char || writableChar char) (by decide) char low
  rw [allowed] at checked
  exact checked

/-! A registry call. -/

theorem mem_broadcast (shared : Shared Nat) (address sent : OmtAddress) (stream : Nat) :
    .send stream sent ∈ shared.broadcast address ↔
      stream ∈ shared.peers.map Prod.snd ∧ sent = address := by
  simp only [Shared.broadcast, List.mem_map, Todo.send.injEq]
  constructor
  · rintro ⟨peer, member, rfl, rfl⟩
    exact ⟨⟨peer, member, rfl⟩, rfl⟩
  · rintro ⟨⟨peer, member, rfl⟩, rfl⟩
    exact ⟨peer, member, rfl, rfl⟩

/-- A stream that is new, and is sent every entry. -/
structure Welcomed (relay : Relay) (next : Shared Nat × List (Todo Nat)) (streams stream : Nat) :
    Prop where
  unknown : relay.streams ≤ stream
  numbered : stream < streams
  told : ∀ key ∈ next.1.keys, ∃ address, .send stream address ∈ next.2 ∧ address.key = key

/-- A call that sends to everybody what it changes. -/
structure Announced (relay : Relay) (next : Shared Nat × List (Todo Nat)) (streams : Nat) :
    Prop where
  unique : next.1.keys.Nodup
  entries : ∀ entry ∈ next.1.entries,
    Relayable entry.address ∧ entry.address.removed = false
  peers : ∀ peer ∈ next.1.peers, peer ∈ relay.shared.peers ∨ Welcomed relay next streams peer.2
  todo : ∀ todo ∈ next.2, todo.Numbered streams
  told : ∀ stream address, .send stream address ∈ next.2 →
    (address.key ∈ next.1.keys ↔ address.removed = false)
  changed : ∀ key, (key ∈ next.1.keys ↔ key ∈ relay.shared.keys) ∨
    ∀ stream ∈ next.1.peers.map Prod.snd,
      ∃ address, .send stream address ∈ next.2 ∧ address.key = key

theorem Announced.live (relay : Relay) (thread : Thread) (next : Shared Nat × List (Todo Nat))
    (streams : Nat) (call : Announced relay next streams) (stream : Nat)
    (now : (relay.locked thread next).live stream) :
    relay.live stream ∨ Welcomed relay next streams stream := by
  obtain ⟨peer, member, rfl⟩ := List.mem_map.mp now
  exact (call.peers peer member).imp_left fun before => List.mem_map.mpr ⟨peer, before, rfl⟩

theorem Todo.Numbered.mono (todo : Todo Nat) (fewer more : Nat) (grown : fewer ≤ more)
    (numbered : todo.Numbered fewer) : todo.Numbered more := by
  cases todo with
  | send target address => exact ⟨Nat.lt_of_lt_of_le numbered.1 grown, numbered.2⟩
  | emit _ => trivial
  | spawn _ target => exact Nat.lt_of_lt_of_le numbered grown

theorem locked_told (relay : Relay) (sound : Sound documentParse relay) (thread : Thread)
    (idle : relay.pending thread = []) (next : Shared Nat × List (Todo Nat)) (streams : Nat)
    (call : Announced relay next streams) (stream : Nat)
    (now : (relay.locked thread next).live stream) (other : Thread) (address : OmtAddress)
    (member : .send stream address ∈ (relay.locked thread next).pending other)
    (newest : Newest (relay.locked thread next) other stream address.key) :
    address.key ∈ next.1.keys ↔ address.removed = false := by
  have own := relay.locked_own thread next
  by_cases mine : other = thread
  · rw [mine, own] at member
    exact call.told stream address member
  · rw [relay.locked_rest thread other next mine] at member
    have stamp := relay.locked_callRest thread other next mine
    rcases call.live relay thread next streams stream now with before | welcomed
    · rcases call.changed address.key with same | sent
      · refine same.trans (sound.told stream before other address member ?_)
        intro another later found about
        have apart : another ≠ thread := by
          rintro rfl
          rw [idle] at found
          cases found
        rw [← stamp, ← relay.locked_callRest thread another next apart]
        exact newest another later
          (by rw [relay.locked_rest thread another next apart]; exact found) about
      · -- The call's own send about the key is newer.
        obtain ⟨later, found, about⟩ := sent stream now
        have beyond := newest thread later (by rw [own]; exact found) about
        rw [relay.locked_call, stamp] at beyond
        exact absurd (Nat.le_trans beyond (sound.calls other)) (Nat.not_succ_le_self _)
    · -- Nobody else has anything for a stream that is new.
      exact absurd (sound.todo other _ member).1 (Nat.not_lt.mpr welcomed.unknown)

theorem locked_views (relay : Relay) (sound : Sound documentParse relay) (thread : Thread)
    (idle : relay.pending thread = []) (next : Shared Nat × List (Todo Nat)) (streams : Nat)
    (call : Announced relay next streams) (stream : Nat)
    (now : (relay.locked thread next).live stream) :
    ∃ final, (relay.clients stream).settle documentParse = .ok final ∧ ∀ key,
      (relay.locked thread next).SendPending stream key ∨
        (key ∈ final.map OmtAddress.key ↔ key ∈ next.1.keys) := by
  have sends (key : SourceKey) (own : ∃ address, .send stream address ∈ next.2 ∧ address.key = key) :
      (relay.locked thread next).SendPending stream key := by
    obtain ⟨address, member, about⟩ := own
    exact ⟨thread, address, by rw [relay.locked_own]; exact member, about⟩
  rcases call.live relay thread next streams stream now with before | welcomed
  · obtain ⟨final, settled, agrees⟩ := sound.views stream before
    refine ⟨final, settled, fun key => ?_⟩
    rcases call.changed key with same | sent
    · rcases agrees key with ⟨other, address, member, about⟩ | held
      · -- Whoever else has to tell the client has to do so still.
        have apart : other ≠ thread := by
          rintro rfl
          rw [idle] at member
          cases member
        exact .inl ⟨other, address,
          by rw [relay.locked_rest thread other next apart]; exact member, about⟩
      · exact .inr (held.trans same.symm)
    · exact .inl (sends key (sent stream now))
  · -- A new client has nothing yet.
    refine ⟨[], by rw [(sound.fresh stream welcomed.unknown).2]; rfl, fun key => ?_⟩
    by_cases inside : key ∈ next.1.keys
    · exact .inl (sends key (welcomed.told key inside))
    · exact .inr (iff_of_false List.not_mem_nil inside)

/-- A call keeps the invariant if what it changes it sends to everybody. -/
theorem locked_sound (relay : Relay) (sound : Sound documentParse relay) (thread : Thread)
    (idle : relay.pending thread = []) (known : thread ∈ relay.threads)
    (next : Shared Nat × List (Todo Nat)) (streams : Nat) (grown : relay.streams ≤ streams)
    (call : Announced relay next streams) :
    Sound documentParse { relay.locked thread next with streams } := by
  constructor
  case unique =>
    exact call.unique
  case entries =>
    exact call.entries
  case peers =>
    intro peer member
    rcases call.peers peer member with before | welcomed
    · exact Nat.lt_of_lt_of_le (sound.peers peer before) grown
    · exact welcomed.numbered
  case loops =>
    exact fun loop member => Nat.lt_of_lt_of_le (sound.loops loop member) grown
  case todo =>
    intro other item member
    change item ∈ (relay.locked thread next).pending other at member
    by_cases mine : other = thread
    · rw [mine, relay.locked_own] at member
      exact call.todo item member
    · rw [relay.locked_rest thread other next mine] at member
      exact (sound.todo other item member).mono _ _ _ grown
  case fresh =>
    intro stream late
    obtain ⟨none, client⟩ := sound.fresh stream (Nat.le_trans grown late)
    refine ⟨(relay.locked_rest thread _ next ?_).trans none, client⟩
    rintro rfl
    simp only [Relay.threads, List.mem_cons, reduceCtorEq, List.mem_map, List.mem_range,
      Thread.peer.injEq, exists_eq_right, false_or] at known
    exact absurd known (Nat.not_lt.mpr (Nat.le_trans grown late))
  case calls =>
    intro other
    by_cases mine : other = thread
    · rw [mine]
      exact Nat.le_of_eq (relay.locked_call thread next)
    · exact (relay.locked_callRest thread other next mine).trans_le
        (Nat.le_succ_of_le (sound.calls other))
  case told =>
    exact locked_told documentParse relay sound thread idle next streams call
  case views =>
    exact locked_views documentParse relay sound thread idle next streams call

theorem broadcast_announced (relay : Relay) (sound : Sound documentParse relay)
    (order : List (SocketAddr × Nat)) (perm : order.Perm relay.shared.peers)
    (address sent : OmtAddress) (about : sent.key = address.key)
    (same : sent.removed = address.removed) (sendable : Relayable sent)
    (event : DiscoveryServerEvent) (next : Shared Nat × List (Todo Nat))
    (todo : next.2 =
      Shared.broadcast { relay.shared with peers := order } sent ++ [.emit event])
    (unique : next.1.keys.Nodup)
    (entries : ∀ entry ∈ next.1.entries, Relayable entry.address ∧ entry.address.removed = false)
    (peers : next.1.peers = order)
    (keys : ∀ key, key ∈ next.1.keys ↔
      if address.key = key then address.removed = false else key ∈ relay.shared.keys) :
    Announced relay next relay.streams := by
  have sends (target : Nat) (found : OmtAddress) :
      .send target found ∈ next.2 ↔ target ∈ order.map Prod.snd ∧ found = sent := by
    rw [todo, List.mem_append, mem_broadcast]
    simp
  refine ⟨unique, entries, ?_, ?_, ?_, ?_⟩
  · intro other member
    rw [peers] at member
    exact .inl (perm.mem_iff.mp member)
  · intro item member
    cases item with
    | send target found =>
        obtain ⟨live, rfl⟩ := (sends target found).mp member
        obtain ⟨other, there, rfl⟩ := List.mem_map.mp live
        exact ⟨sound.peers other (perm.mem_iff.mp there), sendable⟩
    | emit _ => trivial
    | spawn _ _ =>
        rw [todo] at member
        simp [Shared.broadcast] at member
  · intro target found member
    obtain ⟨_, rfl⟩ := (sends target found).mp member
    rw [keys, if_pos about.symm, same]
  · intro key
    by_cases named : address.key = key
    · subst named
      refine .inr fun target live => ?_
      rw [peers] at live
      exact ⟨sent, (sends target sent).mpr ⟨live, rfl⟩, about⟩
    · rw [keys, if_neg named]
      exact .inl Iff.rfl

theorem message_sound (relay : Relay) (sound : Sound documentParse relay) (peer : SocketAddr)
    (stream : Nat) (order : List (SocketAddr × Nat)) (perm : order.Perm relay.shared.peers)
    (known : .peer stream ∈ relay.threads) (idle : relay.pending (.peer stream) = [])
    (address : OmtAddress) (settled : Settled address) (writable : Writable address.instanceName) :
    Sound documentParse (relay.locked (.peer stream)
      ({ relay.shared with peers := order }.handleAddress peer address)) := by
  have uniqueBefore : ({ relay.shared with peers := order } : Shared Nat).keys.Nodup := sound.unique
  have unique := Shared.handleAddress_unique _ peer address uniqueBefore
  have keys := Shared.handleAddress_keys _ peer address uniqueBefore
  have peers := Shared.handleAddress_peers { relay.shared with peers := order } peer address
  have outcome := Shared.handleAddress_handled { relay.shared with peers := order } peer address
  generalize Shared.handleAddress _ peer address = next at outcome unique keys peers
  refine locked_sound documentParse relay sound _ idle known next _ (Nat.le_refl _) ?_
  cases outcome with
  | ignored agrees =>
      refine ⟨unique, sound.entries, ?_, ?_, ?_, ?_⟩
      · exact fun other member => .inl (perm.mem_iff.mp member)
      · exact fun item member => by cases member
      · exact fun target found member => by cases member
      · exact fun key => .inl Iff.rfl
  | removed asked front back entry entries same =>
      change relay.shared.entries = _ at entries
      have member : entry ∈ relay.shared.entries := by
        rw [entries]
        exact List.mem_append_right _ List.mem_cons_self
      refine broadcast_announced documentParse relay sound order perm address
        { entry.address with removed := true } same asked.symm
        ((sound.entries entry member).1.withRemoved _ _) _ _ rfl unique ?_ peers keys
      intro other left
      refine sound.entries other ?_
      rw [entries]
      rcases List.mem_append.mp left with before | behind
      · exact List.mem_append_left _ before
      · exact List.mem_append_right _ (List.mem_cons_of_mem _ behind)
  | registered asked absent =>
      -- The entry that goes in has the peer's own IP, whatever the peer sent.
      have relayable : Relayable { address with addresses := [peer.ip] } := by
        refine ⟨⟨settled.named, settled.trimmed, settled.again⟩, writable, ?_⟩
        intro ip member
        rw [List.mem_singleton.mp member]
        exact ip_writable peer
      refine broadcast_announced documentParse relay sound order perm address
        { address with addresses := [peer.ip] } rfl rfl relayable _ _ rfl unique ?_ peers keys
      intro other left
      rcases List.mem_append.mp left with old | new
      · exact sound.entries other old
      · rw [List.mem_singleton.mp new]
        exact ⟨relayable, asked⟩

theorem disconnect_sends (shared : Shared Nat) (peer : SocketAddr) (target : Nat)
    (address : OmtAddress) :
    .send target address ∈ (shared.disconnectPeer peer).2 ↔
      target ∈ (shared.disconnectPeer peer).1.peers.map Prod.snd ∧
        ∃ entry ∈ shared.entries, entry.owner = peer ∧
          address = { entry.address with removed := true } := by
  have shape : (shared.disconnectPeer peer).2 =
      (((shared.entries.filter (·.owner == peer)).map fun entry =>
        { entry.address with removed := true }).flatMap fun address =>
          (shared.disconnectPeer peer).1.broadcast address ++ [.emit (.sourceRemoved address peer)]) ++
        [.emit (.clientDisconnected peer)] := rfl
  rw [shape]
  simp only [List.mem_append, List.mem_flatMap, mem_broadcast, List.mem_map, List.mem_filter,
    beq_iff_eq, List.mem_singleton, reduceCtorEq, or_false]
  constructor
  · rintro ⟨_, ⟨entry, ⟨member, owned⟩, rfl⟩, live, rfl⟩
    exact ⟨live, entry, member, owned, rfl⟩
  · rintro ⟨live, entry, member, owned, rfl⟩
    exact ⟨_, ⟨entry, ⟨member, owned⟩, rfl⟩, live, rfl⟩

theorem disconnect_quiet (shared : Shared Nat) (peer : SocketAddr) (todo : Todo Nat)
    (member : todo ∈ (shared.disconnectPeer peer).2) (other : SocketAddr) (target : Nat) :
    todo ≠ .spawn other target := by
  rintro rfl
  simp [Shared.disconnectPeer, Shared.broadcast] at member

theorem disconnect_sound (relay : Relay) (sound : Sound documentParse relay) (peer : SocketAddr)
    (stream : Nat) (order : List (SocketAddr × Nat)) (perm : order.Perm relay.shared.peers)
    (known : .peer stream ∈ relay.threads) (idle : relay.pending (.peer stream) = []) :
    Sound documentParse (relay.locked (.peer stream)
      ({ relay.shared with peers := order }.disconnectPeer peer)) := by
  have uniqueBefore : ({ relay.shared with peers := order } : Shared Nat).keys.Nodup := sound.unique
  have unique := Shared.disconnectPeer_unique _ peer uniqueBefore
  have entry_iff := Shared.disconnectPeer_entry { relay.shared with peers := order } peer
  have sends := disconnect_sends { relay.shared with peers := order } peer
  have quiet := disconnect_quiet { relay.shared with peers := order } peer
  have peers (other : SocketAddr × Nat)
      (member : other ∈ (Shared.disconnectPeer { relay.shared with peers := order } peer).1.peers) :
      other ∈ relay.shared.peers ∧ other.1 ≠ peer := by
    obtain ⟨found, apart⟩ := List.mem_filter.mp member
    exact ⟨perm.mem_iff.mp found, by simpa using apart⟩
  generalize Shared.disconnectPeer { relay.shared with peers := order } peer = next at *
  refine locked_sound documentParse relay sound _ idle known next _ (Nat.le_refl _)
    ⟨unique, ?_, ?_, ?_, ?_, ?_⟩
  · exact fun entry member => sound.entries entry ((entry_iff entry).mp member).1
  · exact fun other member => .inl (peers other member).1
  · intro item member
    cases item with
    | send target address =>
        obtain ⟨live, entry, found, _, rfl⟩ := (sends target address).mp member
        obtain ⟨other, there, rfl⟩ := List.mem_map.mp live
        exact ⟨sound.peers other (peers other there).1,
          (sound.entries entry found).1.withRemoved _ _⟩
    | emit _ => trivial
    | spawn other target => exact absurd rfl (quiet _ member other target)
  · intro target address member
    obtain ⟨_, entry, found, owned, rfl⟩ := (sends target address).mp member
    refine iff_of_false ?_ Bool.noConfusion
    -- Keys are unique: what is left has other keys than what was taken out.
    intro left
    obtain ⟨other, there, same⟩ := (Shared.mem_keys _ _).mp left
    obtain ⟨old, apart⟩ := (entry_iff other).mp there
    have one := List.inj_on_of_nodup_map sound.unique old found same
    exact apart (one ▸ owned)
  · intro key
    by_cases owns : ∃ entry ∈ relay.shared.entries, entry.owner = peer ∧ entry.key = key
    · obtain ⟨entry, found, owned, rfl⟩ := owns
      exact .inr fun target live =>
        ⟨_, (sends target _).mpr ⟨live, entry, found, owned, rfl⟩, rfl⟩
    · left
      rw [Shared.mem_keys, Shared.mem_keys]
      constructor
      · rintro ⟨entry, member, same⟩
        exact ⟨entry, ((entry_iff entry).mp member).1, same⟩
      · rintro ⟨entry, member, same⟩
        exact ⟨entry, (entry_iff entry).mpr ⟨member, fun owned => owns ⟨entry, member, owned, same⟩⟩,
          same⟩

/-! A new connection. -/

theorem accept_sends (shared : Shared Nat) (peer : SocketAddr) (fresh target : Nat)
    (address : OmtAddress) :
    .send target address ∈ (shared.acceptPeer peer fresh).2 ↔
      target = fresh ∧ ∃ entry ∈ shared.entries, entry.address = address := by
  simp only [Shared.acceptPeer, List.mem_append, List.mem_map, Todo.send.injEq, List.mem_cons,
    reduceCtorEq, List.not_mem_nil, or_false]
  constructor
  · rintro ⟨entry, found, rfl, same⟩
    exact ⟨rfl, entry, found, same⟩
  · rintro ⟨rfl, entry, found, same⟩
    exact ⟨entry, found, rfl, same⟩

theorem accept_sound (relay : Relay) (sound : Sound documentParse relay) (peer : SocketAddr)
    (idle : relay.pending .accept = []) :
    Sound documentParse { relay.locked .accept (relay.shared.acceptPeer peer relay.streams) with
      streams := relay.streams + 1 } := by
  have sends := accept_sends relay.shared peer relay.streams
  refine locked_sound documentParse relay sound .accept idle List.mem_cons_self _ _ (Nat.le_succ _)
    ⟨sound.unique, sound.entries, ?_, ?_, ?_, fun key => .inl Iff.rfl⟩
  · intro other member
    rcases List.mem_append.mp member with old | new
    · exact .inl (List.mem_filter.mp old).1
    · right
      rw [List.mem_singleton.mp new]
      refine ⟨Nat.le_refl _, Nat.lt_succ_self _, fun key inside => ?_⟩
      obtain ⟨entry, found, same⟩ := (Shared.mem_keys _ _).mp inside
      exact ⟨entry.address, (sends _ _).mpr ⟨rfl, entry, found, rfl⟩, same⟩
  · intro item member
    cases item with
    | send target address =>
        obtain ⟨rfl, entry, found, rfl⟩ := (sends target address).mp member
        exact ⟨Nat.lt_succ_self _, (sound.entries entry found).1⟩
    | emit _ => trivial
    | spawn other target =>
        simp [Shared.acceptPeer] at member
        obtain ⟨_, rfl⟩ := member
        exact Nat.lt_succ_self _
  · -- The snapshot holds what is in the registry, and nothing there is removed.
    intro target address member
    obtain ⟨_, entry, found, rfl⟩ := (sends target address).mp member
    exact iff_of_true ((Shared.mem_keys _ _).mpr ⟨entry, found, rfl⟩)
      (sound.entries entry found).2

/-! A thread goes on. -/

theorem mem_drop (relay : Relay) (thread other : Thread) (todo item : Todo Nat)
    (rest : List (Todo Nat)) (front : relay.pending thread = todo :: rest)
    (member : item ∈ (relay.drop thread rest).pending other) : item ∈ relay.pending other := by
  by_cases own : other = thread
  · subst own
    rw [relay.drop_own] at member
    rw [front]
    exact List.mem_cons_of_mem _ member
  · rw [relay.drop_rest thread other rest own] at member
    exact member

theorem sendPending_drop (relay : Relay) (thread : Thread) (todo : Todo Nat)
    (rest : List (Todo Nat)) (front : relay.pending thread = todo :: rest) (stream : Nat)
    (key : SourceKey) (sends : relay.SendPending stream key) :
    (relay.drop thread rest).SendPending stream key ∨
      ∃ address, todo = .send stream address ∧ address.key = key := by
  obtain ⟨other, address, member, about⟩ := sends
  by_cases own : other = thread
  · subst own
    rw [front] at member
    rcases List.mem_cons.mp member with first | later
    · exact .inr ⟨address, first.symm, about⟩
    · exact .inl ⟨other, address, by rw [relay.drop_own]; exact later, about⟩
  · exact .inl ⟨other, address, by rw [relay.drop_rest thread other rest own]; exact member, about⟩

theorem settle_append (client : Client) (xml : List Char) (final : List OmtAddress)
    (settled : client.settle documentParse = .ok final) :
    Client.settle documentParse { client with inbox := client.inbox ++ [xml] } =
      handleSource documentParse final xml := by
  unfold Client.settle at settled ⊢
  rw [List.foldlM_append, settled]
  change List.foldlM (handleSource documentParse) final [xml] = _
  rw [List.foldlM_cons]
  exact bind_pure _

/-- What a client will end up with, after one more thing was done for some stream. -/
theorem perform_views (reads : ReadsXml documentParse) (relay : Relay)
    (sound : Sound documentParse relay) (thread : Thread) (todo : Todo Nat)
    (rest : List (Todo Nat)) (front : relay.pending thread = todo :: rest) (stream : Nat)
    (live : relay.live stream) :
    ∃ final, (((relay.drop thread rest).perform todo).clients stream).settle documentParse =
        .ok final ∧ ∀ key, (relay.drop thread rest).SendPending stream key ∨
          (key ∈ final.map OmtAddress.key ↔ key ∈ relay.shared.keys) := by
  obtain ⟨final, settled, agrees⟩ := sound.views stream live
  have member : todo ∈ relay.pending thread := by
    rw [front]
    exact List.mem_cons_self
  -- A thing that is no send to this stream leaves the client as it was.
  have untouched (other : ∀ address, todo ≠ .send stream address)
      (same : ((relay.drop thread rest).perform todo).clients stream = relay.clients stream) :
      ∃ final, (((relay.drop thread rest).perform todo).clients stream).settle documentParse =
        .ok final ∧ ∀ key, (relay.drop thread rest).SendPending stream key ∨
          (key ∈ final.map OmtAddress.key ↔ key ∈ relay.shared.keys) := by
    refine ⟨final, by rw [same]; exact settled, fun key => ?_⟩
    rcases agrees key with sends | keys
    · rcases sendPending_drop relay thread todo rest front stream key sends with still | gone
      · exact .inl still
      · obtain ⟨address, first, _⟩ := gone
        exact absurd first (other address)
    · exact .inr keys
  cases todo with
  | emit event => exact untouched (fun _ => by simp) rfl
  | spawn peer target => exact untouched (fun _ => by simp) rfl
  | send target address =>
      by_cases mine : target = stream
      · subst mine
        have relayable : Relayable address := (sound.todo thread _ member).2
        obtain ⟨next, taken, keys⟩ :=
          handleSource_relayed documentParse reads final address relayable
        refine ⟨next, ?_, fun key => ?_⟩
        · have client : ((relay.drop thread rest).perform (.send target address)).clients target =
              { relay.clients target with
                inbox := (relay.clients target).inbox ++ [address.toXml] } :=
            Function.update_self ..
          rw [client, settle_append documentParse _ _ final settled, taken]
        · by_cases about : address.key = key
          · subst about
            by_cases still : (relay.drop thread rest).SendPending target address.key
            · exact .inl still
            · right
              rw [keys, if_pos rfl]
              -- Whatever else is pending about the key is this thread's own.
              have newest : Newest relay thread target address.key := by
                intro other later found about
                by_cases own : other = thread
                · rw [own]
                · exact absurd ⟨other, later,
                    by rw [relay.drop_rest thread other rest own]; exact found, about⟩ still
              exact (sound.told target live thread address member newest).symm
          · rw [keys, if_neg about]
            rcases agrees key with sends | same
            · rcases sendPending_drop relay thread _ rest front target key sends with still | gone
              · exact .inl still
              · obtain ⟨other, first, same⟩ := gone
                cases first
                exact absurd same about
            · exact .inr same
      · refine untouched ?_ (Function.update_of_ne (Ne.symm mine) ..)
        rintro other ⟨⟩
        exact mine rfl

theorem pending_thread (relay : Relay) (sound : Sound documentParse relay) (thread : Thread)
    (todo : Todo Nat) (member : todo ∈ relay.pending thread) : thread ∈ relay.threads := by
  cases thread with
  | accept => exact List.mem_cons_self
  | peer stream =>
      by_cases late : relay.streams ≤ stream
      · rw [(sound.fresh stream late).1] at member
        cases member
      · exact List.mem_cons_of_mem _ (List.mem_map.mpr
          ⟨stream, List.mem_range.mpr (Nat.lt_of_not_le late), rfl⟩)

theorem newest_drop (relay : Relay) (sound : Sound documentParse relay) (thread : Thread)
    (todo : Todo Nat) (rest : List (Todo Nat))
    (front : relay.pending thread = todo :: rest) (inTurn : InTurn relay (.work thread))
    (stream : Nat) (live : relay.live stream) (other : Thread) (address : OmtAddress)
    (member : .send stream address ∈ (relay.drop thread rest).pending other)
    (newest : Newest (relay.drop thread rest) other stream address.key) :
    Newest relay other stream address.key := by
  intro another later found about
  by_cases own : another = thread
  · subst own
    rw [front] at found
    rcases List.mem_cons.mp found with first | behind
    · -- The send just made is of an earlier call, or of the same one.
      by_cases same : other = another
      · rw [same]
      · rw [relay.drop_rest another other rest same] at member
        rw [InTurn, front, ← first] at inTurn
        have known := pending_thread documentParse relay sound other _ member
        exact Nat.le_of_lt (inTurn live other known same _ member ⟨rfl, about.symm⟩)
    · exact newest another later (by rw [relay.drop_own]; exact behind) about
  · exact newest another later (by rw [relay.drop_rest thread another rest own]; exact found) about

theorem perform_sound (reads : ReadsXml documentParse) (relay : Relay)
    (sound : Sound documentParse relay) (thread : Thread) (todo : Todo Nat)
    (rest : List (Todo Nat)) (front : relay.pending thread = todo :: rest)
    (inTurn : InTurn relay (.work thread)) :
    Sound documentParse ((relay.drop thread rest).perform todo) := by
  have member : todo ∈ relay.pending thread := by
    rw [front]
    exact List.mem_cons_self
  have numbered := sound.todo thread todo member
  have shared : ((relay.drop thread rest).perform todo).shared = relay.shared := by
    rw [Relay.perform_shared]
    rfl
  have streams : ((relay.drop thread rest).perform todo).streams = relay.streams := by
    rw [Relay.perform_streams]
    rfl
  have live (stream : Nat) : ((relay.drop thread rest).perform todo).live stream ↔
      relay.live stream := by rw [Relay.live, shared, Relay.live]
  constructor
  case unique =>
    rw [shared]
    exact sound.unique
  case entries =>
    rw [shared]
    exact sound.entries
  case peers =>
    rw [shared, streams]
    exact sound.peers
  case loops =>
    rw [streams]
    intro loop inside
    cases todo with
    | send _ _ => exact sound.loops loop inside
    | emit _ => exact sound.loops loop inside
    | spawn peer target =>
        rcases List.mem_append.mp inside with old | new
        · exact sound.loops loop old
        · rw [List.mem_singleton.mp new]
          exact numbered
  case todo =>
    rw [streams]
    intro other item inside
    rw [Relay.perform_pending] at inside
    exact sound.todo other item (mem_drop relay thread other todo item rest front inside)
  case fresh =>
    rw [streams]
    intro stream late
    obtain ⟨none, client⟩ := sound.fresh stream late
    rw [Relay.perform_pending]
    refine ⟨?_, ?_⟩
    · by_contra some
      obtain ⟨item, inside⟩ := List.exists_mem_of_ne_nil _ some
      have before := mem_drop relay thread _ todo item rest front inside
      rw [none] at before
      cases before
    · cases todo with
      | emit _ => exact client
      | spawn _ _ => exact client
      | send target address =>
          have apart : stream ≠ target := Nat.ne_of_gt (Nat.lt_of_lt_of_le numbered.1 late)
          exact (Function.update_of_ne apart ..).trans client
  case calls =>
    intro other
    rw [Relay.perform_call, Relay.perform_calls]
    exact sound.calls other
  case told =>
    rw [shared]
    intro stream now other address inside newest
    unfold Newest at newest
    rw [Relay.perform_pending] at inside newest
    rw [Relay.perform_call] at newest
    exact sound.told stream ((live stream).mp now) other address
      (mem_drop relay thread other todo _ rest front inside)
      (newest_drop documentParse relay sound thread todo rest front inTurn stream
        ((live stream).mp now) other address inside newest)
  case views =>
    rw [shared]
    intro stream now
    obtain ⟨final, settled, agrees⟩ :=
      perform_views documentParse reads relay sound thread todo rest front stream ((live stream).mp now)
    refine ⟨final, settled, fun key => ?_⟩
    unfold Relay.SendPending
    rw [Relay.perform_pending]
    exact agrees key

theorem receive_sound (relay : Relay) (sound : Sound documentParse relay) (stream : Nat)
    (xml : List Char) (rest : List (List Char)) (sources : List OmtAddress)
    (front : (relay.clients stream).inbox = xml :: rest)
    (taken : handleSource documentParse (relay.clients stream).sources xml = .ok sources) :
    Sound documentParse
      { relay with clients := Function.update relay.clients stream ⟨rest, sources⟩ } := by
  have settles : Client.settle documentParse ⟨rest, sources⟩ =
      (relay.clients stream).settle documentParse := by
    unfold Client.settle
    rw [front, List.foldlM_cons, taken]
    rfl
  constructor
  case unique =>
    exact sound.unique
  case entries =>
    exact sound.entries
  case peers =>
    exact sound.peers
  case loops =>
    exact sound.loops
  case todo =>
    exact sound.todo
  case fresh =>
    intro other late
    obtain ⟨none, client⟩ := sound.fresh other late
    refine ⟨none, ?_⟩
    have apart : other ≠ stream := by
      rintro rfl
      rw [client] at front
      cases front
    exact (Function.update_of_ne apart ..).trans client
  case calls =>
    exact sound.calls
  case told =>
    exact sound.told
  case views =>
    intro other live
    obtain ⟨final, settled, agrees⟩ := sound.views other live
    refine ⟨final, ?_, agrees⟩
    by_cases own : other = stream
    · subst own
      change Client.settle documentParse (Function.update relay.clients other ⟨rest, sources⟩ other) = _
      rw [Function.update_self, settles, settled]
    · change Client.settle documentParse (Function.update relay.clients stream ⟨rest, sources⟩ other) = _
      rw [Function.update_of_ne own, settled]

end OpenMediaTransport
