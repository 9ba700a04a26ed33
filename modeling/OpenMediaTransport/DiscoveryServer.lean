import Mathlib.Data.List.Nodup
import OpenMediaTransport.SourceAddress

/-!
The registry of `server.rs`. Each of `accept_peer`, `handle_address` and
`disconnect_peer` changes `Shared` once, under the lock, and is left with sends
and events that it works off after the lock is released: the definitions here
give the new `Shared` and that list. `peers` is a hash map, kept as a list in the
order its values are visited. An IP address is the text it prints as. The thread
handles and the bound address are not read here and are left out.
-/

namespace OpenMediaTransport

/-- The characters an IP address prints with, of either family. -/
def ipChar (char : Char) : Bool :=
  char.isDigit || char == '.' || char == ':' || ('a' ≤ char && char ≤ 'f')

structure SocketAddr where
  ip : List Char
  port : UInt16
  printed : ip.all ipChar = true := by decide
  deriving DecidableEq, Repr

/-- What tells sources apart: instance name and port. -/
abbrev SourceKey := List Char × UInt16

def OmtAddress.key (address : OmtAddress) : SourceKey := (address.instanceName, address.port)

structure Entry where
  address : OmtAddress
  owner : SocketAddr
  deriving DecidableEq, Repr

def Entry.key (entry : Entry) : SourceKey := entry.address.key

/-- Lifecycle and registry notifications, as far as these three functions send them. -/
inductive DiscoveryServerEvent where
  | clientConnected (peer : SocketAddr)
  | clientDisconnected (peer : SocketAddr)
  | sourceRegistered (address : OmtAddress) (peer : SocketAddr)
  | sourceRemoved (address : OmtAddress) (peer : SocketAddr)
  deriving DecidableEq, Repr

/-- What a thread still has to do once it has released the lock. -/
inductive Todo (stream : Type) where
  | send (target : stream) (address : OmtAddress)
  | emit (event : DiscoveryServerEvent)
  | spawn (peer : SocketAddr) (target : stream)
  deriving DecidableEq

structure Shared (stream : Type) where
  entries : List Entry
  peers : List (SocketAddr × stream)

namespace Shared
variable {stream : Type}

def init : Shared stream := { entries := [], peers := [] }

def broadcast (shared : Shared stream) (address : OmtAddress) : List (Todo stream) :=
  shared.peers.map fun peer => .send peer.2 address

/-- `accept_peer`: the snapshot is of the entries before the peer says anything. -/
def acceptPeer (shared : Shared stream) (peer : SocketAddr) (target : stream) :
    Shared stream × List (Todo stream) :=
  ({ shared with peers := shared.peers.filter (·.1 != peer) ++ [(peer, target)] },
    shared.entries.map (fun entry => .send target entry.address) ++
      [.emit (.clientConnected peer), .spawn peer target])

/-- `handle_address`; `position` finds the first entry of the key, which `remove` takes out. -/
def handleAddress (shared : Shared stream) (peer : SocketAddr) (address : OmtAddress) :
    Shared stream × List (Todo stream) :=
  let existing := shared.entries.find? (·.key == address.key)
  if address.removed then
    match existing with
    | none => (shared, [])
    | some entry =>
        let removed := { entry.address with removed := true }
        ({ shared with entries := shared.entries.eraseP (·.key == address.key) },
          shared.broadcast removed ++ [.emit (.sourceRemoved removed peer)])
  else
    match existing with
    | some _ => (shared, [])
    | none =>
        -- The peer's own IP replaces the ones it sent.
        let registered := { address with addresses := [peer.ip] }
        ({ shared with entries := shared.entries ++ [⟨registered, peer⟩] },
          shared.broadcast registered ++ [.emit (.sourceRegistered registered peer)])

def disconnectPeer (shared : Shared stream) (peer : SocketAddr) :
    Shared stream × List (Todo stream) :=
  let removed := (shared.entries.filter (·.owner == peer)).map fun entry =>
    { entry.address with removed := true }
  let left : Shared stream :=
    { entries := shared.entries.filter (·.owner != peer)
      peers := shared.peers.filter (·.1 != peer) }
  (left, removed.flatMap (fun address =>
      left.broadcast address ++ [.emit (.sourceRemoved address peer)]) ++
    [.emit (.clientDisconnected peer)])

def keys (shared : Shared stream) : List SourceKey := shared.entries.map Entry.key

def connected (shared : Shared stream) : List SocketAddr := shared.peers.map Prod.fst

/-! What a call can do. -/

theorem mem_keys (shared : Shared stream) (key : SourceKey) :
    key ∈ shared.keys ↔ ∃ entry ∈ shared.entries, entry.key = key := List.mem_map

inductive Handled (shared : Shared stream) (peer : SocketAddr) (address : OmtAddress) :
    Shared stream × List (Todo stream) → Prop where
  | ignored (agrees : address.key ∈ shared.keys ↔ address.removed = false) :
      Handled shared peer address (shared, [])
  | removed (asked : address.removed = true) (front back : List Entry) (entry : Entry)
      (entries : shared.entries = front ++ entry :: back) (same : entry.key = address.key) :
      Handled shared peer address
        ({ shared with entries := front ++ back },
          shared.broadcast { entry.address with removed := true } ++
            [.emit (.sourceRemoved { entry.address with removed := true } peer)])
  | registered (asked : address.removed = false) (fresh : address.key ∉ shared.keys) :
      Handled shared peer address
        ({ shared with
            entries := shared.entries ++ [⟨{ address with addresses := [peer.ip] }, peer⟩] },
          shared.broadcast { address with addresses := [peer.ip] } ++
            [.emit (.sourceRegistered { address with addresses := [peer.ip] } peer)])

theorem handleAddress_handled (shared : Shared stream) (peer : SocketAddr)
    (address : OmtAddress) : Handled shared peer address (shared.handleAddress peer address) := by
  unfold handleAddress
  dsimp only
  cases existing : shared.entries.find? (·.key == address.key) with
  | none =>
      have fresh : address.key ∉ shared.keys := by
        rw [mem_keys]
        rintro ⟨entry, member, same⟩
        have other := List.find?_eq_none.mp existing entry member
        rw [same, beq_self_eq_true] at other
        exact other rfl
      by_cases asked : address.removed = true
      · rw [if_pos asked]
        exact .ignored (iff_of_false fresh (by rw [asked]; exact Bool.noConfusion))
      · rw [if_neg asked]
        exact .registered (eq_false_of_ne_true asked) fresh
  | some entry =>
      obtain ⟨hit, front, back, entries, before⟩ := List.find?_eq_some_iff_append.mp existing
      have same : entry.key = address.key := beq_iff_eq.mp hit
      by_cases asked : address.removed = true
      · have erased : shared.entries.eraseP (·.key == address.key) = front ++ back := by
          rw [entries, List.eraseP_append_right _ fun other member => by simpa using before other member]
          exact congrArg (front ++ ·) (List.eraseP_cons_of_pos hit)
        dsimp only
        rw [if_pos asked, erased]
        exact .removed asked front back entry entries same
      · rw [if_neg asked]
        refine .ignored (iff_of_true ?_ (eq_false_of_ne_true asked))
        rw [mem_keys, entries]
        exact ⟨entry, by simp, same⟩

theorem handleAddress_keys (shared : Shared stream) (peer : SocketAddr) (address : OmtAddress)
    (unique : shared.keys.Nodup) (key : SourceKey) :
    key ∈ (shared.handleAddress peer address).1.keys ↔
      if address.key = key then address.removed = false else key ∈ shared.keys := by
  have outcome := handleAddress_handled shared peer address
  generalize shared.handleAddress peer address = after at outcome
  cases outcome with
  | ignored agrees =>
      by_cases about : address.key = key
      · rw [if_pos about, ← about, agrees]
      · rw [if_neg about]
  | removed asked front back entry entries same =>
      rw [keys, entries, List.map_append, List.map_cons] at unique
      have gone := (List.nodup_middle.mp unique).notMem
      simp only [keys, entries, List.map_append, List.map_cons, same] at gone ⊢
      by_cases about : address.key = key
      · rw [if_pos about, asked, ← about]
        simpa using gone
      · rw [if_neg about]
        simp [Ne.symm about]
  | registered asked fresh =>
      have named : (⟨{ address with addresses := [peer.ip] }, peer⟩ : Entry).key = address.key := rfl
      simp only [keys, List.map_append, List.mem_append, List.map_cons, List.map_nil,
        List.mem_singleton, named]
      by_cases about : address.key = key
      · rw [if_pos about, asked]
        simp [about]
      · rw [if_neg about]
        simp [Ne.symm about]

theorem handleAddress_unique (shared : Shared stream) (peer : SocketAddr) (address : OmtAddress)
    (unique : shared.keys.Nodup) : (shared.handleAddress peer address).1.keys.Nodup := by
  have outcome := handleAddress_handled shared peer address
  generalize shared.handleAddress peer address = after at outcome
  cases outcome with
  | ignored agrees => exact unique
  | removed asked front back entry entries same =>
      rw [keys, entries, List.map_append, List.map_cons] at unique
      rw [keys, List.map_append]
      exact (List.nodup_middle.mp unique).of_cons
  | registered asked fresh =>
      rw [keys, List.map_append]
      exact List.nodup_append.mpr ⟨unique, List.nodup_singleton _, by
        intro key member other single same
        rw [List.mem_singleton.mp single] at same
        rw [same] at member
        exact fresh member⟩

theorem handleAddress_entry (shared : Shared stream) (peer : SocketAddr) (address : OmtAddress)
    (entry : Entry) (member : entry ∈ (shared.handleAddress peer address).1.entries) :
    entry ∈ shared.entries ∨
      address.removed = false ∧ entry = ⟨{ address with addresses := [peer.ip] }, peer⟩ := by
  have outcome := handleAddress_handled shared peer address
  generalize shared.handleAddress peer address = after at outcome member
  cases outcome with
  | ignored agrees => exact .inl member
  | removed asked front back gone entries same =>
      rw [entries]
      rcases List.mem_append.mp member with before | behind
      · exact .inl (List.mem_append_left _ before)
      · exact .inl (List.mem_append_right _ (List.mem_cons_of_mem _ behind))
  | registered asked fresh =>
      rcases List.mem_append.mp member with old | new
      · exact .inl old
      · exact .inr ⟨asked, List.mem_singleton.mp new⟩

theorem handleAddress_peers (shared : Shared stream) (peer : SocketAddr) (address : OmtAddress) :
    (shared.handleAddress peer address).1.peers = shared.peers := by
  have outcome := handleAddress_handled shared peer address
  generalize shared.handleAddress peer address = after at outcome
  cases outcome <;> rfl

theorem disconnectPeer_entry (shared : Shared stream) (peer : SocketAddr) (entry : Entry) :
    entry ∈ (shared.disconnectPeer peer).1.entries ↔ entry ∈ shared.entries ∧ entry.owner ≠ peer := by
  simp [disconnectPeer, List.mem_filter]

theorem disconnectPeer_unique (shared : Shared stream) (peer : SocketAddr)
    (unique : shared.keys.Nodup) : (shared.disconnectPeer peer).1.keys.Nodup :=
  (List.filter_sublist.map Entry.key).nodup unique

theorem mem_connected_accept (shared : Shared stream) (peer other : SocketAddr) (target : stream) :
    other ∈ (shared.acceptPeer peer target).1.connected ↔ other = peer ∨ other ∈ shared.connected := by
  simp only [connected, acceptPeer, List.map_append, List.map_cons, List.map_nil, List.mem_append,
    List.mem_singleton, List.mem_map, List.mem_filter]
  by_cases same : other = peer
  · simp [same]
  · constructor
    · rintro (⟨entry, ⟨member, _⟩, rfl⟩ | rfl)
      · exact .inr ⟨entry, member, rfl⟩
      · exact .inl rfl
    · rintro (rfl | ⟨entry, member, rfl⟩)
      · exact .inr rfl
      · exact .inl ⟨entry, ⟨member, by simpa using same⟩, rfl⟩

theorem mem_connected_disconnect (shared : Shared stream) (peer other : SocketAddr) :
    other ∈ (shared.disconnectPeer peer).1.connected ↔ other ∈ shared.connected ∧ other ≠ peer := by
  simp only [connected, disconnectPeer, List.mem_map, List.mem_filter]
  constructor
  · rintro ⟨entry, ⟨member, apart⟩, rfl⟩
    exact ⟨⟨entry, member, rfl⟩, by simpa using apart⟩
  · rintro ⟨⟨entry, member, rfl⟩, apart⟩
    exact ⟨entry, ⟨member, by simpa using apart⟩, rfl⟩

/-- One entry a key, each in force, at the address of the connected client that owns it. -/
structure Consistent (shared : Shared stream) : Prop where
  unique : shared.keys.Nodup
  inForce : ∀ entry ∈ shared.entries, entry.address.removed = false
  ownAddress : ∀ entry ∈ shared.entries, entry.address.addresses = [entry.owner.ip]
  ownerLive : ∀ entry ∈ shared.entries, entry.owner ∈ shared.connected

theorem init_consistent : (init : Shared stream).Consistent :=
  ⟨List.nodup_nil, fun _ member => absurd member List.not_mem_nil,
    fun _ member => absurd member List.not_mem_nil, fun _ member => absurd member List.not_mem_nil⟩

theorem acceptPeer_consistent (shared : Shared stream) (peer : SocketAddr) (target : stream)
    (before : shared.Consistent) : (shared.acceptPeer peer target).1.Consistent where
  unique := before.unique
  inForce := before.inForce
  ownAddress := before.ownAddress
  ownerLive := fun entry member =>
    (mem_connected_accept shared peer _ target).mpr (.inr (before.ownerLive entry member))

theorem handleAddress_consistent (shared : Shared stream) (peer : SocketAddr)
    (address : OmtAddress) (before : shared.Consistent) (connected : peer ∈ shared.connected) :
    (shared.handleAddress peer address).1.Consistent := by
  have live : (shared.handleAddress peer address).1.connected = shared.connected :=
    congrArg (List.map Prod.fst) (handleAddress_peers shared peer address)
  refine ⟨handleAddress_unique shared peer address before.unique, ?_, ?_, ?_⟩ <;>
    intro entry member <;>
    rcases handleAddress_entry shared peer address entry member with old | ⟨asked, rfl⟩
  · exact before.inForce entry old
  · exact asked
  · exact before.ownAddress entry old
  · rfl
  · exact live ▸ before.ownerLive entry old
  · exact live ▸ connected

theorem disconnectPeer_consistent (shared : Shared stream) (peer : SocketAddr)
    (before : shared.Consistent) : (shared.disconnectPeer peer).1.Consistent where
  unique := disconnectPeer_unique shared peer before.unique
  inForce := fun entry member =>
    before.inForce entry ((disconnectPeer_entry shared peer entry).mp member).1
  ownAddress := fun entry member =>
    before.ownAddress entry ((disconnectPeer_entry shared peer entry).mp member).1
  ownerLive := fun entry member => by
    obtain ⟨old, apart⟩ := (disconnectPeer_entry shared peer entry).mp member
    exact (mem_connected_disconnect shared peer _).mpr ⟨before.ownerLive entry old, apart⟩

end Shared

/-! Two clients and a source. -/

def studio : SocketAddr := { ip := "10.0.0.1".toList, port := 5001 }
def backup : SocketAddr := { ip := "10.0.0.2".toList, port := 5002 }

def camera (removed : Bool) : OmtAddress :=
  { name := "Cam".toList, machineName := "HOST".toList, port := 6400, addresses := [], removed }

end OpenMediaTransport
