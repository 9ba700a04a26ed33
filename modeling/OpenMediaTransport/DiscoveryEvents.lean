import OpenMediaTransport.DiscoveryRelay

/-!
The registry's event log. A registry call announces its change of a key in at most
one event; a log that follows the calls tells, for each key, the entry it has, and
a reader who replays it has the registry's sources.
-/

namespace OpenMediaTransport

def DiscoveryServerEvent.source : DiscoveryServerEvent → Option SourceKey
  | .sourceRegistered address _ => some address.key
  | .sourceRemoved address _ => some address.key
  | .clientConnected _ => none
  | .clientDisconnected _ => none

def sourceEvents (key : SourceKey) (log : List DiscoveryServerEvent) :
    List DiscoveryServerEvent := log.filter (·.source == some key)

/-- The events alternate, a registration first, and a removal names the source and
the client of the registration that it undoes. -/
def Alternates : List DiscoveryServerEvent → Prop
  | [] => True
  | [.sourceRegistered _ _] => True
  | .sourceRegistered address owner :: .sourceRemoved removed peer :: rest =>
      peer = owner ∧ removed = { address with removed := true } ∧ Alternates rest
  | _ => False

/-- What a reader of the log makes of an event. -/
def keepSource (sources : List OmtAddress) : DiscoveryServerEvent → List OmtAddress
  | .sourceRegistered address _ => sources ++ [address]
  | .sourceRemoved address _ => sources.filter (·.key != address.key)
  | .clientConnected _ => sources
  | .clientDisconnected _ => sources

def replayEvents (log : List DiscoveryServerEvent) : List OmtAddress := log.foldl keepSource []

def Shared.sources {stream : Type} (shared : Shared stream) : List OmtAddress :=
  shared.entries.map Entry.address

/-! A key's events, followed one by one. -/

/-- The entry after an event about its key, if the event may come. -/
def follow : Option Entry → DiscoveryServerEvent → Option (Option Entry)
  | none, .sourceRegistered address owner => some (some ⟨address, owner⟩)
  | some entry, .sourceRemoved removed peer =>
      if peer = entry.owner ∧ removed = { entry.address with removed := true } then some none
      else none
  | _, _ => none

theorem follow_alternates : (events : List DiscoveryServerEvent) → (after : Option Entry) →
    events.foldlM follow none = some after → Alternates events
  | [], _, _ => trivial
  | [.sourceRegistered _ _], _, _ => trivial
  | .sourceRegistered address owner :: .sourceRemoved removed peer :: rest, after, followed => by
      rw [List.foldlM_cons, follow, Option.bind_eq_bind, Option.bind_some, List.foldlM_cons,
        follow] at followed
      by_cases undone : peer = owner ∧ removed = { address with removed := true }
      · rw [if_pos undone] at followed
        exact ⟨undone.1, undone.2, follow_alternates rest after followed⟩
      · rw [if_neg undone] at followed
        cases followed
  | .sourceRegistered _ _ :: .sourceRegistered _ _ :: _, _, followed => by cases followed
  | .sourceRegistered _ _ :: .clientConnected _ :: _, _, followed => by cases followed
  | .sourceRegistered _ _ :: .clientDisconnected _ :: _, _, followed => by cases followed
  | .sourceRemoved _ _ :: _, _, followed => by cases followed
  | .clientConnected _ :: _, _, followed => by cases followed
  | .clientDisconnected _ :: _, _, followed => by cases followed

/-- An event about a source leaves of it in the list what the event leads to. -/
theorem keepSource_own (key : SourceKey) (event : DiscoveryServerEvent)
    (about : event.source = some key) (sources : List OmtAddress) (before after : Option Entry)
    (kept : sources.filter (·.key == key) = before.toList.map Entry.address)
    (followed : follow before event = some after) :
    (keepSource sources event).filter (·.key == key) = after.toList.map Entry.address := by
  cases event with
  | sourceRegistered address owner =>
      have same : address.key = key := Option.some.inj about
      cases before with
      | some entry => cases followed
      | none =>
          cases followed
          rw [keepSource, List.filter_append, kept,
            List.filter_cons_of_pos (by rw [same]; exact beq_self_eq_true _)]
          rfl
  | sourceRemoved removed peer =>
      have same : removed.key = key := Option.some.inj about
      cases before with
      | none => cases followed
      | some entry =>
          rw [follow] at followed
          split at followed
          · cases followed
            rw [keepSource, same, List.filter_filter]
            exact List.filter_eq_nil_iff.mpr (by simp)
          · cases followed
  | clientConnected peer => cases about
  | clientDisconnected peer => cases about

theorem keepSource_other (key : SourceKey) (event : DiscoveryServerEvent)
    (about : event.source ≠ some key) (sources : List OmtAddress) :
    (keepSource sources event).filter (·.key == key) = sources.filter (·.key == key) := by
  cases event with
  | sourceRegistered address owner =>
      have other : ¬ address.key = key := fun same => about (congrArg some same)
      rw [keepSource, List.filter_append, List.filter_cons_of_neg (by simpa using other),
        List.filter_nil, List.append_nil]
  | sourceRemoved removed peer =>
      have other : removed.key ≠ key := fun same => about (congrArg some same)
      rw [keepSource, List.filter_filter]
      refine List.filter_congr fun address _ => ?_
      by_cases named : address.key = key
      · simp [named, Ne.symm other]
      · simp [named]
  | clientConnected peer => rfl
  | clientDisconnected peer => rfl

theorem keepSource_follows (key : SourceKey) (events : List DiscoveryServerEvent)
    (sources : List OmtAddress) (before after : Option Entry)
    (kept : sources.filter (·.key == key) = before.toList.map Entry.address)
    (followed : (sourceEvents key events).foldlM follow before = some after) :
    (events.foldl keepSource sources).filter (·.key == key) =
      after.toList.map Entry.address := by
  induction events generalizing sources before with
  | nil =>
      cases followed
      exact kept
  | cons event rest ih =>
      rw [List.foldl_cons]
      by_cases about : event.source = some key
      · have front : sourceEvents key (event :: rest) = event :: sourceEvents key rest :=
          List.filter_cons_of_pos (by rw [about]; exact beq_self_eq_true _)
        rw [front, List.foldlM_cons] at followed
        obtain ⟨middle, first, later⟩ := Option.bind_eq_some_iff.mp followed
        exact ih _ middle (keepSource_own key event about sources before middle kept first) later
      · have front : sourceEvents key (event :: rest) = sourceEvents key rest :=
          List.filter_cons_of_neg (by simpa using about)
        rw [front] at followed
        exact ih _ before ((keepSource_other key event about sources).trans kept) followed

/-! What a registry call announces. -/

def Todo.event : Todo Nat → Option DiscoveryServerEvent
  | .emit event => some event
  | .send _ _ => none
  | .spawn _ _ => none

def pendingEvents (key : SourceKey) (todos : List (Todo Nat)) : List DiscoveryServerEvent :=
  sourceEvents key (todos.filterMap Todo.event)

def Shared.entryOf (shared : Shared Nat) (key : SourceKey) : Option Entry :=
  shared.entries.find? (·.key == key)

/-- A call that announces what it changes, each key in one event at most. -/
def Announces (before after : Shared Nat) (todos : List (Todo Nat)) : Prop :=
  ∀ key, (pendingEvents key todos).length ≤ 1 ∧
    (pendingEvents key todos).foldlM follow (before.entryOf key) = some (after.entryOf key)

theorem announces_nothing (before after : Shared Nat) (todos : List (Todo Nat))
    (same : after.entries = before.entries) (silent : ∀ key, pendingEvents key todos = []) :
    Announces before after todos := by
  intro key
  rw [silent key, Shared.entryOf, Shared.entryOf, same]
  exact ⟨Nat.zero_le _, rfl⟩

theorem pendingEvents_append (key : SourceKey) (front back : List (Todo Nat)) :
    pendingEvents key (front ++ back) = pendingEvents key front ++ pendingEvents key back := by
  unfold pendingEvents sourceEvents
  rw [List.filterMap_append, List.filter_append]

theorem pendingEvents_broadcast (key : SourceKey) (shared : Shared Nat) (address : OmtAddress) :
    pendingEvents key (shared.broadcast address) = [] := by
  have none : (shared.broadcast address).filterMap Todo.event = [] := by
    simp [Shared.broadcast, List.filterMap_map, Function.comp_def, Todo.event]
  rw [pendingEvents, none]
  rfl

theorem pendingEvents_emit (key : SourceKey) (event : DiscoveryServerEvent) :
    pendingEvents key [.emit event] = if event.source = some key then [event] else [] := by
  unfold pendingEvents sourceEvents
  by_cases about : event.source = some key
  · rw [if_pos about]
    exact List.filter_cons_of_pos (by rw [about]; exact beq_self_eq_true _)
  · rw [if_neg about]
    exact List.filter_cons_of_neg (by simpa using about)

theorem acceptPeer_announces (shared : Shared Nat) (peer : SocketAddr) (target : Nat) :
    Announces shared (shared.acceptPeer peer target).1 (shared.acceptPeer peer target).2 := by
  refine announces_nothing _ _ _ rfl fun key => ?_
  have snapshot : (shared.entries.map fun entry => Todo.send target entry.address).filterMap
      Todo.event = [] := by
    simp [List.filterMap_map, Function.comp_def, Todo.event]
  rw [Shared.acceptPeer, pendingEvents_append, pendingEvents, snapshot]
  rfl

theorem keys_find (front back : List Entry) (entry : Entry)
    (unique : ((front ++ entry :: back).map Entry.key).Nodup) (key : SourceKey) :
    (front ++ back).find? (·.key == key) =
        (if entry.key = key then none else (front ++ entry :: back).find? (·.key == key)) ∧
      (entry.key = key → (front ++ entry :: back).find? (·.key == key) = some entry) := by
  rw [List.map_append, List.map_cons] at unique
  have gone := (List.nodup_middle.mp unique).notMem
  rw [← List.map_append] at gone
  have others (other : Entry) (member : other ∈ front ++ back) : other.key ≠ entry.key :=
    fun same => gone (List.mem_map.mpr ⟨other, member, same⟩)
  by_cases about : entry.key = key
  · subst about
    rw [if_pos rfl]
    refine ⟨List.find?_eq_none.mpr fun other member => by simpa using others other member, ?_⟩
    intro _
    have absent : front.find? (·.key == entry.key) = none :=
      List.find?_eq_none.mpr fun other member => by
        simpa using others other (List.mem_append_left _ member)
    rw [List.find?_append, absent, Option.none_or]
    exact List.find?_cons_of_pos (beq_self_eq_true _)
  · rw [if_neg about]
    refine ⟨?_, fun same => absurd same about⟩
    rw [List.find?_append, List.find?_append, List.find?_cons_of_neg (by simpa using about)]

theorem handleAddress_announces (shared : Shared Nat) (peer : SocketAddr) (address : OmtAddress)
    (unique : shared.keys.Nodup)
    (own : address.removed = true → ∀ entry ∈ shared.entries, entry.key = address.key →
      entry.owner = peer) :
    Announces shared (shared.handleAddress peer address).1
      (shared.handleAddress peer address).2 := by
  have outcome := Shared.handleAddress_handled shared peer address
  generalize shared.handleAddress peer address = next at outcome
  cases outcome with
  | ignored agrees => exact announces_nothing _ _ _ rfl fun key => rfl
  | removed asked front back entry entries same =>
      -- The event names the peer that asked, and `follow` wants the owner.
      have owned : entry.owner = peer := own asked entry (by rw [entries]; simp) same
      intro key
      rw [Shared.keys, entries] at unique
      obtain ⟨left, found⟩ := keys_find front back entry unique key
      have named : (DiscoveryServerEvent.sourceRemoved { entry.address with removed := true }
          peer).source = some entry.key := rfl
      rw [pendingEvents_append, pendingEvents_broadcast, List.nil_append, pendingEvents_emit, named,
        Shared.entryOf, Shared.entryOf, entries, left]
      by_cases about : entry.key = key
      · rw [if_pos (congrArg some about), if_pos about, found about, List.foldlM_cons, follow,
          if_pos ⟨owned.symm, rfl⟩]
        exact ⟨Nat.le_refl _, rfl⟩
      · rw [if_neg (by simpa using about), if_neg about]
        exact ⟨Nat.zero_le _, rfl⟩
  | registered asked fresh =>
      intro key
      have named : (DiscoveryServerEvent.sourceRegistered { address with addresses := [peer.ip] }
          peer).source = some address.key := rfl
      have single : [(⟨{ address with addresses := [peer.ip] }, peer⟩ : Entry)].find? (·.key == key) =
          if address.key = key then some ⟨{ address with addresses := [peer.ip] }, peer⟩ else none := by
        by_cases about : address.key = key
        · rw [if_pos about]
          exact List.find?_cons_of_pos (beq_iff_eq.mpr about)
        · rw [if_neg about]
          exact List.find?_cons_of_neg fun same => about (beq_iff_eq.mp same)
      rw [pendingEvents_append, pendingEvents_broadcast, List.nil_append, pendingEvents_emit, named,
        Shared.entryOf, Shared.entryOf, List.find?_append, single]
      by_cases about : address.key = key
      · subst about
        have absent : shared.entries.find? (·.key == address.key) = none :=
          List.find?_eq_none.mpr fun entry member same =>
            fresh ((Shared.mem_keys _ _).mpr ⟨entry, member, beq_iff_eq.mp same⟩)
        rw [if_pos rfl, if_pos rfl, absent]
        exact ⟨Nat.le_refl _, rfl⟩
      · rw [if_neg (by simpa using about), if_neg about, Option.or_none]
        exact ⟨Nat.zero_le _, rfl⟩

theorem entryOf_filter (shared : Shared Nat) (unique : shared.keys.Nodup) (key : SourceKey) :
    shared.entries.filter (·.key == key) = (shared.entryOf key).toList := by
  unfold Shared.entryOf
  cases found : shared.entries.find? (·.key == key) with
  | none => exact List.filter_eq_nil_iff.mpr (List.find?_eq_none.mp found)
  | some entry =>
      obtain ⟨hit, front, back, entries, before⟩ := List.find?_eq_some_iff_append.mp found
      rw [Shared.keys, entries] at unique
      have rest := (keys_find front back entry unique key).1
      rw [if_pos (beq_iff_eq.mp hit)] at rest
      have none := List.filter_eq_nil_iff.mpr (List.find?_eq_none.mp rest)
      rw [List.filter_append, List.append_eq_nil_iff] at none
      have here : (entry :: back).filter (·.key == key) = entry :: back.filter (·.key == key) :=
        List.filter_cons_of_pos hit
      rw [entries, List.filter_append, none.1, here, none.2]
      rfl

theorem disconnectPeer_pending (shared : Shared Nat) (peer : SocketAddr) (key : SourceKey) :
    pendingEvents key (shared.disconnectPeer peer).2 =
      ((shared.entries.filter (·.key == key)).filter (·.owner == peer)).map fun entry =>
        .sourceRemoved { entry.address with removed := true } peer := by
  have each (left : Shared Nat) (entries : List Entry) :
      pendingEvents key ((entries.map fun entry =>
          ({ entry.address with removed := true } : OmtAddress)).flatMap fun address =>
            left.broadcast address ++ [.emit (.sourceRemoved address peer)]) =
        (entries.filter (·.key == key)).map fun entry =>
          .sourceRemoved { entry.address with removed := true } peer := by
    induction entries with
    | nil => rfl
    | cons entry rest ih =>
        have named : (DiscoveryServerEvent.sourceRemoved { entry.address with removed := true }
            peer).source = some entry.key := rfl
        rw [List.map_cons, List.flatMap_cons, pendingEvents_append, ih, pendingEvents_append,
          pendingEvents_broadcast, List.nil_append, pendingEvents_emit, named]
        by_cases about : entry.key = key
        · rw [if_pos (congrArg some about), List.filter_cons_of_pos (by simpa using about)]
          rfl
        · rw [if_neg (by simpa using about), List.filter_cons_of_neg (by simpa using about)]
          rfl
  have silent : pendingEvents key [.emit (.clientDisconnected peer)] = [] := rfl
  rw [Shared.disconnectPeer, pendingEvents_append, each, silent, List.append_nil,
    List.filter_filter, List.filter_filter]
  simp only [Bool.and_comm]

theorem disconnectPeer_announces (shared : Shared Nat) (peer : SocketAddr)
    (unique : shared.keys.Nodup) :
    Announces shared (shared.disconnectPeer peer).1 (shared.disconnectPeer peer).2 := by
  intro key
  have left : (shared.disconnectPeer peer).1.entryOf key =
      ((shared.entries.filter (·.key == key)).filter (·.owner != peer)).head? := by
    rw [List.filter_filter, List.head?_filter, Shared.entryOf, Shared.disconnectPeer,
      List.find?_filter]
    simp only [Bool.decide_and, Bool.decide_eq_true]
  rw [disconnectPeer_pending, left, entryOf_filter shared unique]
  cases shared.entryOf key with
  | none => exact ⟨Nat.zero_le _, rfl⟩
  | some entry =>
      by_cases owned : entry.owner = peer
      · have undone : follow (some entry)
            (.sourceRemoved { entry.address with removed := true } peer) = some none :=
          if_pos ⟨owned.symm, rfl⟩
        simp [owned, undone]
      · simp [owned]

end OpenMediaTransport
