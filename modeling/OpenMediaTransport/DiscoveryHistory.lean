import OpenMediaTransport.DiscoveryEvents

/-!
The event log over whole runs. What was logged of a key, and behind it what is
still to be emitted of it in the order of the calls, leads to the entry the key has
now. This carries the log as long as a removal comes from the owner, and no event
overtakes one of the same key from an earlier call.
-/

namespace OpenMediaTransport

open Markup

variable (documentParse : List Char → Except String XmlNode)

/-- An event is emitted after those of the same key that earlier calls are to emit. -/
def EmitsInTurn (relay : Relay) (thread : Thread) : List (Todo Nat) → Prop
  | .emit event :: _ => ∀ key ∈ event.source, ∀ other ∈ relay.threads,
      relay.call other < relay.call thread → pendingEvents key (relay.pending other) = []
  | _ => True

/-- A source is taken back by the client that owns it. -/
def RemovesOwn (relay : Relay) (peer : SocketAddr) :
    Except Text.Panic (Except OmtError OmtAddress) → Prop
  | .ok (.ok address) => address.removed = true → ∀ entry ∈ relay.shared.entries,
      entry.key = address.key → entry.owner = peer
  | _ => True

def StepOrderly (relay : Relay) : Action → Prop
  | .work thread => EmitsInTurn relay thread (relay.pending thread)
  | .message peer _ xml _ => RemovesOwn relay peer (OmtAddress.fromXml documentParse xml)
  | _ => True

def RunOrderly : List Action → Prop :=
  Runs.Throughout (Relay.act documentParse) .init (StepOrderly documentParse)

def Relay.Emitted (relay : Relay) : Prop :=
  ∀ thread ∈ relay.threads, ∀ todo ∈ relay.pending thread, todo.event = none

/-! Threads and calls, in any run. -/

/-- Only threads that were started have something to do, and no call is numbered ahead. -/
structure Staffed (relay : Relay) : Prop where
  unique : relay.shared.keys.Nodup
  loops : ∀ loop ∈ relay.loops, loop.2 < relay.streams
  spawns : ∀ thread peer target, .spawn peer target ∈ relay.pending thread → target < relay.streams
  busy : ∀ thread, relay.pending thread ≠ [] → thread ∈ relay.threads
  calls : ∀ thread, relay.call thread ≤ relay.calls

theorem threads_grow (relay : Relay) (streams : Nat) (grown : relay.streams ≤ streams)
    (thread : Thread) (known : thread ∈ relay.threads) :
    thread ∈ ({ relay with streams } : Relay).threads := by
  rcases List.mem_cons.mp known with rfl | loop
  · exact List.mem_cons_self
  · obtain ⟨stream, early, rfl⟩ := List.mem_map.mp loop
    exact List.mem_cons_of_mem _ (List.mem_map.mpr
      ⟨stream, List.mem_range.mpr (Nat.lt_of_lt_of_le (List.mem_range.mp early) grown), rfl⟩)

theorem locked_staffed (relay : Relay) (staffed : Staffed relay) (thread : Thread)
    (known : thread ∈ relay.threads) (next : Shared Nat × List (Todo Nat)) (streams : Nat)
    (grown : relay.streams ≤ streams) (loops : List (SocketAddr × Nat))
    (fewer : ∀ loop ∈ loops, loop ∈ relay.loops) (unique : next.1.keys.Nodup)
    (spawns : ∀ peer target, .spawn peer target ∈ next.2 → target < streams) :
    Staffed { relay.locked thread next with streams, loops } := by
  refine ⟨unique, ?_, ?_, ?_, ?_⟩
  · exact fun loop member => Nat.lt_of_lt_of_le (staffed.loops loop (fewer loop member)) grown
  · intro other peer target member
    change _ ∈ (relay.locked thread next).pending other at member
    by_cases mine : other = thread
    · rw [mine, relay.locked_own] at member
      exact spawns peer target member
    · rw [relay.locked_rest thread other next mine] at member
      exact Nat.lt_of_lt_of_le (staffed.spawns other peer target member) grown
  · intro other some
    change (relay.locked thread next).pending other ≠ [] at some
    refine threads_grow relay streams grown other ?_
    by_cases mine : other = thread
    · exact mine ▸ known
    · rw [relay.locked_rest thread other next mine] at some
      exact staffed.busy other some
  · intro other
    change (relay.locked thread next).call other ≤ relay.calls + 1
    by_cases mine : other = thread
    · rw [mine, relay.locked_call]
    · rw [relay.locked_callRest thread other next mine]
      exact Nat.le_succ_of_le (staffed.calls other)

theorem perform_staffed (relay : Relay) (staffed : Staffed relay) (thread : Thread)
    (todo : Todo Nat) (rest : List (Todo Nat)) (front : relay.pending thread = todo :: rest) :
    Staffed ((relay.drop thread rest).perform todo) := by
  have kept (other : Thread) (item : Todo Nat) (member : item ∈ (relay.drop thread rest).pending other) :
      item ∈ relay.pending other := by
    by_cases mine : other = thread
    · subst mine
      rw [relay.drop_own] at member
      rw [front]
      exact List.mem_cons_of_mem _ member
    · rw [relay.drop_rest thread other rest mine] at member
      exact member
  have known (other : Thread) (some : (relay.drop thread rest).pending other ≠ []) :
      other ∈ relay.threads := by
    obtain ⟨item, member⟩ := List.exists_mem_of_ne_nil _ some
    exact staffed.busy other (List.ne_nil_of_mem (kept other item member))
  have spawned (other : Thread) (peer : SocketAddr) (target : Nat)
      (member : .spawn peer target ∈ (relay.drop thread rest).pending other) :
      target < relay.streams := staffed.spawns other peer target (kept other _ member)
  cases todo with
  | send target address =>
      exact ⟨staffed.unique, staffed.loops, spawned, known, staffed.calls⟩
  | emit event => exact ⟨staffed.unique, staffed.loops, spawned, known, staffed.calls⟩
  | spawn peer target =>
      refine ⟨staffed.unique, fun loop member => ?_, spawned, known, staffed.calls⟩
      rcases List.mem_append.mp member with old | new
      · exact staffed.loops loop old
      · rw [List.mem_singleton.mp new]
        exact staffed.spawns thread peer target (by rw [front]; exact List.mem_cons_self)

theorem Shared.handleAddress_spawns (shared : Shared Nat) (peer : SocketAddr)
    (address : OmtAddress) (other : SocketAddr) (target : Nat) :
    .spawn other target ∉ (shared.handleAddress peer address).2 := by
  have outcome := Shared.handleAddress_handled shared peer address
  generalize shared.handleAddress peer address = next at outcome
  cases outcome <;> simp [Shared.broadcast]

theorem Shared.disconnectPeer_spawns (shared : Shared Nat) (peer : SocketAddr)
    (other : SocketAddr) (target : Nat) : .spawn other target ∉ (shared.disconnectPeer peer).2 := by
  simp [Shared.disconnectPeer, Shared.broadcast]

theorem loop_thread (relay : Relay) (staffed : Staffed relay) (peer : SocketAddr) (stream : Nat)
    (listening : relay.Listening peer stream) : .peer stream ∈ relay.threads :=
  List.mem_cons_of_mem _ (List.mem_map.mpr
    ⟨stream, List.mem_range.mpr (staffed.loops _ listening.1), rfl⟩)

/-! A key's log and what is to be emitted of it. -/

/-- The threads that may have an event about the key to emit, in the order of their calls. -/
structure Queued (relay : Relay) (key : SourceKey) (queue : List Thread) : Prop where
  ordered : queue.Pairwise fun first second => relay.call first < relay.call second
  waiting : ∀ thread, pendingEvents key (relay.pending thread) ≠ [] → thread ∈ queue
  single : ∀ thread, (pendingEvents key (relay.pending thread)).length ≤ 1
  follows : (sourceEvents key relay.events ++
      queue.flatMap fun thread => pendingEvents key (relay.pending thread)).foldlM follow none =
    some (relay.shared.entryOf key)

theorem flatMap_without {α : Type} (queue : List Thread) (thread : Thread)
    (adds : Thread → List α) (nothing : adds thread = []) :
    (queue.filter (· ≠ thread)).flatMap adds = queue.flatMap adds := by
  induction queue with
  | nil => rfl
  | cons other rest ih =>
      by_cases mine : other = thread
      · subst mine
        rw [List.filter_cons_of_neg (by simp), ih, List.flatMap_cons, nothing]
        rfl
      · rw [List.filter_cons_of_pos (by simpa using mine), List.flatMap_cons, List.flatMap_cons, ih]

theorem locked_queued (relay : Relay) (staffed : Staffed relay) (key : SourceKey)
    (queue : List Thread) (queued : Queued relay key queue) (thread : Thread)
    (idle : relay.pending thread = []) (next : Shared Nat × List (Todo Nat))
    (announces : Announces relay.shared next.1 next.2) :
    Queued (relay.locked thread next) key (queue.filter (· ≠ thread) ++ [thread]) := by
  have others (other : Thread) (member : other ∈ queue.filter (· ≠ thread)) :
      other ∈ queue ∧ other ≠ thread := by simpa using member
  have last : (sourceEvents key (relay.locked thread next).events ++
      (queue.filter (· ≠ thread) ++ [thread]).flatMap fun other =>
        pendingEvents key ((relay.locked thread next).pending other)) =
      (sourceEvents key relay.events ++
        queue.flatMap fun other => pendingEvents key (relay.pending other)) ++
          pendingEvents key next.2 := by
    have before : (queue.filter (· ≠ thread)).flatMap (fun other =>
          pendingEvents key ((relay.locked thread next).pending other)) =
        queue.flatMap fun other => pendingEvents key (relay.pending other) := by
      have moved : (queue.filter (· ≠ thread)).flatMap (fun other =>
            pendingEvents key ((relay.locked thread next).pending other)) =
          (queue.filter (· ≠ thread)).flatMap fun other => pendingEvents key (relay.pending other) :=
        List.flatMap_congr fun other member => by
          rw [relay.locked_rest thread other next (others other member).2]
      rw [moved]
      -- The thread itself had nothing to emit.
      apply flatMap_without
      rw [idle]
      rfl
    rw [List.flatMap_append, before, List.flatMap_singleton, relay.locked_own]
    exact (List.append_assoc _ _ _).symm
  constructor
  case ordered =>
    refine List.pairwise_append.mpr ⟨?_, List.pairwise_singleton _ _, ?_⟩
    · refine (queued.ordered.filter _).imp_of_mem fun first second before => ?_
      rw [relay.locked_callRest thread _ next (others _ first).2,
        relay.locked_callRest thread _ next (others _ second).2]
      exact before
    · intro other member same single
      rw [List.mem_singleton.mp single, relay.locked_call,
        relay.locked_callRest thread other next (others other member).2]
      exact Nat.lt_succ_of_le (staffed.calls other)
  case waiting =>
    intro other some
    by_cases mine : other = thread
    · simp [mine]
    · rw [relay.locked_rest thread other next mine] at some
      exact List.mem_append_left _ (by simpa [mine] using queued.waiting other some)
  case single =>
    intro other
    by_cases mine : other = thread
    · rw [mine, relay.locked_own]
      exact (announces key).1
    · rw [relay.locked_rest thread other next mine]
      exact queued.single other
  case follows =>
    rw [last, List.foldlM_append, queued.follows]
    exact (announces key).2

theorem pendingEvents_cons (key : SourceKey) (todo : Todo Nat) (rest : List (Todo Nat)) :
    pendingEvents key (todo :: rest) = pendingEvents key [todo] ++ pendingEvents key rest :=
  pendingEvents_append key [todo] rest

theorem silent_queued (relay : Relay) (key : SourceKey) (queue : List Thread)
    (queued : Queued relay key queue) (thread : Thread) (todo : Todo Nat)
    (rest : List (Todo Nat)) (front : relay.pending thread = todo :: rest)
    (silent : pendingEvents key [todo] = []) (after : Relay)
    (calls : after.call = relay.call) (shared : after.shared = relay.shared)
    (pending : after.pending = (relay.drop thread rest).pending)
    (events : sourceEvents key after.events = sourceEvents key relay.events) :
    Queued after key queue := by
  have same (other : Thread) :
      pendingEvents key (after.pending other) = pendingEvents key (relay.pending other) := by
    rw [pending]
    by_cases mine : other = thread
    · rw [mine, relay.drop_own, front, pendingEvents_cons, silent, List.nil_append]
    · rw [relay.drop_rest thread other rest mine]
  refine ⟨by rw [calls]; exact queued.ordered, ?_, ?_, ?_⟩
  · exact fun other some => queued.waiting other (same other ▸ some)
  · exact fun other => same other ▸ queued.single other
  · simp only [same, events, shared]
    exact queued.follows

theorem sourceEvents_append (key : SourceKey) (log more : List DiscoveryServerEvent) :
    sourceEvents key (log ++ more) = sourceEvents key log ++ sourceEvents key more :=
  List.filter_append ..

theorem emit_alone (relay : Relay) (key : SourceKey) (queue : List Thread)
    (queued : Queued relay key queue) (thread : Thread) (event : DiscoveryServerEvent)
    (rest : List (Todo Nat)) (front : relay.pending thread = .emit event :: rest)
    (about : event.source = some key) :
    pendingEvents key (relay.pending thread) = [event] ∧ pendingEvents key rest = [] := by
  have own : pendingEvents key (relay.pending thread) = event :: pendingEvents key rest := by
    rw [front, pendingEvents_cons, pendingEvents_emit, if_pos about]
    rfl
  have spent : pendingEvents key rest = [] := by
    have single := queued.single thread
    rw [own, List.length_cons] at single
    exact List.length_eq_zero_iff.mp (by omega)
  rw [spent] at own
  exact ⟨own, spent⟩

theorem emit_follows (relay : Relay) (key : SourceKey) (before behind : List Thread)
    (thread : Thread) (queued : Queued relay key (before ++ thread :: behind))
    (event : DiscoveryServerEvent) (rest : List (Todo Nat))
    (front : relay.pending thread = .emit event :: rest) (about : event.source = some key)
    (first : ∀ other, relay.call other < relay.call thread →
      pendingEvents key (relay.pending other) = []) :
    (sourceEvents key (relay.events ++ [event]) ++
      (before ++ thread :: behind).flatMap fun other =>
        pendingEvents key ((relay.drop thread rest).pending other)).foldlM follow none =
      some (relay.shared.entryOf key) := by
  obtain ⟨own, spent⟩ := emit_alone relay key _ queued thread event rest front about
  have done : pendingEvents key ((relay.drop thread rest).pending thread) = [] := by
    rw [relay.drop_own, spent]
  obtain ⟨_, tail, across⟩ := List.pairwise_append.mp queued.ordered
  obtain ⟨later, _⟩ := List.pairwise_cons.mp tail
  -- Whoever is ahead in the queue called earlier, and has nothing about the key left.
  have quiet (pending : Thread → List (Todo Nat)) (same : ∀ other ∈ before,
      pending other = relay.pending other) :
      before.flatMap (fun other => pendingEvents key (pending other)) = [] := by
    refine List.flatMap_eq_nil_iff.mpr fun other early => ?_
    rw [same other early]
    exact first other (across other early thread List.mem_cons_self)
  have apartBefore (other : Thread) (early : other ∈ before) : other ≠ thread := by
    rintro rfl
    exact Nat.lt_irrefl _ (across _ early _ List.mem_cons_self)
  have apartBehind (other : Thread) (late : other ∈ behind) : other ≠ thread := by
    rintro rfl
    exact Nat.lt_irrefl _ (later _ late)
  have rear : behind.flatMap (fun other =>
        pendingEvents key ((relay.drop thread rest).pending other)) =
      behind.flatMap fun other => pendingEvents key (relay.pending other) :=
    List.flatMap_congr fun other late => by
      rw [relay.drop_rest thread other rest (apartBehind other late)]
  have logged : sourceEvents key (relay.events ++ [event]) =
      sourceEvents key relay.events ++ [event] := by
    have one : sourceEvents key [event] = [event] :=
      List.filter_cons_of_pos (by rw [about]; exact beq_self_eq_true _)
    rw [sourceEvents_append, one]
  have follows := queued.follows
  rw [List.flatMap_append, List.flatMap_cons, quiet _ fun _ _ => rfl, own] at follows
  rw [List.flatMap_append, List.flatMap_cons,
    quiet _ fun other early => relay.drop_rest thread other rest (apartBefore other early), done,
    rear, logged]
  simpa only [List.nil_append, List.append_assoc, List.cons_append] using follows

theorem emit_queued (relay : Relay) (key : SourceKey) (queue : List Thread)
    (queued : Queued relay key queue) (thread : Thread) (event : DiscoveryServerEvent)
    (rest : List (Todo Nat)) (front : relay.pending thread = .emit event :: rest)
    (about : event.source = some key)
    (first : ∀ other, relay.call other < relay.call thread →
      pendingEvents key (relay.pending other) = []) :
    Queued ((relay.drop thread rest).perform (.emit event)) key queue := by
  obtain ⟨own, spent⟩ := emit_alone relay key queue queued thread event rest front about
  have now (other : Thread) (apart : other ≠ thread) :
      (relay.drop thread rest).pending other = relay.pending other :=
    relay.drop_rest thread other rest apart
  have done : pendingEvents key ((relay.drop thread rest).pending thread) = [] := by
    rw [relay.drop_own, spent]
  constructor
  case ordered => exact queued.ordered
  case waiting =>
    intro other some
    by_cases mine : other = thread
    · exact absurd (mine ▸ done) some
    · exact queued.waiting other (now other mine ▸ some)
  case single =>
    intro other
    by_cases mine : other = thread
    · subst mine
      exact Nat.le_trans (Nat.le_of_eq (congrArg List.length done)) (Nat.zero_le _)
    · exact Nat.le_trans (Nat.le_of_eq (congrArg (fun todos => (pendingEvents key todos).length)
        (now other mine))) (queued.single other)
  case follows =>
    have member : thread ∈ queue := queued.waiting thread (by rw [own]; exact List.cons_ne_nil _ _)
    obtain ⟨before, behind, rfl⟩ := List.append_of_mem member
    exact emit_follows relay key before behind thread queued event rest front about first

/-! Runs. -/

structure Chronicled (relay : Relay) : Prop where
  staffed : Staffed relay
  queued : ∀ key, ∃ queue, Queued relay key queue

theorem init_chronicled : Chronicled .init := by
  refine ⟨⟨List.nodup_nil, ?_, ?_, ?_, fun _ => Nat.le_refl 0⟩, fun key => ⟨[], ?_⟩⟩
  · exact fun loop member => by cases member
  · exact fun thread peer target member => by cases member
  · exact fun thread some => absurd rfl some
  · exact ⟨List.Pairwise.nil, fun thread some => absurd rfl some, fun _ => Nat.zero_le _, rfl⟩

/-- A step that makes no call, does no work and logs nothing. -/
theorem Chronicled.carry {relay next : Relay} (before : Chronicled relay)
    (staffed : Staffed next) (shared : next.shared = relay.shared)
    (pending : next.pending = relay.pending) (call : next.call = relay.call)
    (events : next.events = relay.events) : Chronicled next := by
  refine ⟨staffed, fun key => ?_⟩
  obtain ⟨queue, ordered, waiting, single, follows⟩ := before.queued key
  rw [← call] at ordered
  rw [← pending] at waiting single follows
  rw [← events, ← shared] at follows
  exact ⟨queue, ordered, waiting, single, follows⟩

theorem locked_chronicled (relay : Relay) (before : Chronicled relay) (thread : Thread)
    (known : thread ∈ relay.threads) (idle : relay.pending thread = [])
    (next : Shared Nat × List (Todo Nat)) (streams : Nat) (grown : relay.streams ≤ streams)
    (loops : List (SocketAddr × Nat)) (fewer : ∀ loop ∈ loops, loop ∈ relay.loops)
    (unique : next.1.keys.Nodup)
    (spawns : ∀ peer target, .spawn peer target ∈ next.2 → target < streams)
    (announces : Announces relay.shared next.1 next.2) :
    Chronicled { relay.locked thread next with streams, loops } := by
  refine ⟨locked_staffed relay before.staffed thread known next streams grown loops fewer unique
    spawns, fun key => ?_⟩
  obtain ⟨queue, queued⟩ := before.queued key
  have after := locked_queued relay before.staffed key queue queued thread idle next announces
  exact ⟨_, after.ordered, after.waiting, after.single, after.follows⟩

theorem perform_chronicled (relay : Relay) (before : Chronicled relay) (thread : Thread)
    (todo : Todo Nat) (rest : List (Todo Nat)) (front : relay.pending thread = todo :: rest)
    (inTurn : EmitsInTurn relay thread (relay.pending thread)) :
    Chronicled ((relay.drop thread rest).perform todo) := by
  refine ⟨perform_staffed relay before.staffed thread todo rest front, fun key => ?_⟩
  obtain ⟨queue, queued⟩ := before.queued key
  refine ⟨queue, ?_⟩
  have silent (none : pendingEvents key [todo] = [])
      (events : sourceEvents key ((relay.drop thread rest).perform todo).events =
        sourceEvents key relay.events) :
      Queued ((relay.drop thread rest).perform todo) key queue :=
    silent_queued relay key queue queued thread todo rest front none _
      (by simp [Relay.drop]) (by rw [Relay.perform_shared]; rfl) (by simp) events
  cases todo with
  | send target address => exact silent rfl rfl
  | spawn peer target => exact silent rfl rfl
  | emit event =>
      by_cases about : event.source = some key
      · rw [front] at inTurn
        refine emit_queued relay key queue queued thread event rest front about fun other early => ?_
        by_cases busy : relay.pending other = []
        · rw [busy]
          rfl
        · exact inTurn key about other (before.staffed.busy other busy) early
      · have other : sourceEvents key [event] = [] :=
          List.filter_cons_of_neg (by simpa using about)
        refine silent ((pendingEvents_emit key event).trans (if_neg about)) ?_
        change sourceEvents key (relay.events ++ [event]) = _
        rw [sourceEvents_append, other, List.append_nil]

theorem act_chronicled (relay next : Relay) (before : Chronicled relay) (action : Action)
    (orderly : StepOrderly documentParse relay action)
    (acted : relay.act documentParse action = some next) : Chronicled next := by
  have staffed := before.staffed
  cases action with
  | accept peer =>
      obtain ⟨⟨idle, _⟩, same⟩ := Option.ite_none_right_eq_some.mp acted
      cases same
      refine locked_chronicled relay before .accept List.mem_cons_self idle _ _ (Nat.le_succ _)
        relay.loops (fun _ member => member) staffed.unique ?_ (acceptPeer_announces _ _ _)
      intro other target member
      simp [Shared.acceptPeer] at member
      exact Nat.lt_succ_of_le (Nat.le_of_eq member.2)
  | message peer stream xml order =>
      obtain ⟨⟨listening, -⟩, rfl | rfl | ⟨address, read, rfl⟩⟩ :=
        act_message documentParse relay next peer stream xml order acted
      -- A panic ends this peer's loop and nothing else.
      · have fewer : ∀ loop ∈ relay.loops.erase (peer, stream), loop.2 < relay.streams :=
          fun loop member => staffed.loops loop (List.mem_of_mem_erase member)
        exact before.carry ⟨staffed.unique, fewer, staffed.spawns, staffed.busy, staffed.calls⟩
          rfl rfl rfl rfl
      · exact before
      · rw [StepOrderly, read] at orderly
        exact locked_chronicled relay before (.peer stream)
          (loop_thread relay staffed peer stream listening) listening.2 _ relay.streams
          (Nat.le_refl _) relay.loops (fun _ member => member)
          (Shared.handleAddress_unique _ peer address staffed.unique)
          (fun other target member =>
            absurd member (Shared.handleAddress_spawns _ peer address other target))
          (handleAddress_announces { relay.shared with peers := order } peer address
            staffed.unique orderly)
  | disconnect peer stream order =>
      obtain ⟨⟨listening, _⟩, same⟩ := Option.ite_none_right_eq_some.mp acted
      cases same
      exact locked_chronicled relay before (.peer stream)
        (loop_thread relay staffed peer stream listening) listening.2 _ relay.streams
        (Nat.le_refl _) _ (fun loop member => List.mem_of_mem_erase member)
        (Shared.disconnectPeer_unique _ peer staffed.unique)
        (fun other target member =>
          absurd member (Shared.disconnectPeer_spawns _ peer other target))
        (disconnectPeer_announces { relay.shared with peers := order } peer staffed.unique)
  | work thread =>
      obtain ⟨todo, rest, front, rfl⟩ := act_work documentParse relay next thread acted
      exact perform_chronicled relay before thread todo rest front orderly
  | receive stream =>
      obtain ⟨xml, rest, sources, -, -, rfl⟩ := act_receive documentParse relay next stream acted
      exact before.carry ⟨staffed.unique, staffed.loops, staffed.spawns, staffed.busy,
        staffed.calls⟩ rfl rfl rfl rfl

theorem replay_chronicled (history : List Action) (relay : Relay)
    (ran : Relay.replay documentParse history = some relay)
    (orderly : RunOrderly documentParse history) : Chronicled relay := by
  have invariant : Runs.Invariant (Relay.act documentParse) .init (StepOrderly documentParse)
      Chronicled :=
    ⟨init_chronicled, fun before after action chronicled orderly acted =>
      act_chronicled documentParse before after chronicled action orderly acted⟩
  exact invariant.run _ _ history relay orderly ran

/-! What the log tells. -/

theorem logged_follows (relay : Relay) (key : SourceKey) (queue : List Thread)
    (queued : Queued relay key queue) :
    ∃ entry, (sourceEvents key relay.events).foldlM follow none = some entry := by
  have follows := queued.follows
  rw [List.foldlM_append] at follows
  obtain ⟨entry, logged, _⟩ := Option.bind_eq_some_iff.mp follows
  exact ⟨entry, logged⟩

theorem emitted_follows (relay : Relay) (staffed : Staffed relay) (emitted : relay.Emitted)
    (key : SourceKey) (queue : List Thread) (queued : Queued relay key queue) :
    (sourceEvents key relay.events).foldlM follow none = some (relay.shared.entryOf key) := by
  have nothing (thread : Thread) : pendingEvents key (relay.pending thread) = [] := by
    by_cases busy : relay.pending thread = []
    · rw [busy]
      rfl
    · have silent := emitted thread (staffed.busy thread busy)
      rw [pendingEvents, List.filterMap_eq_nil_iff.mpr silent]
      rfl
  have follows := queued.follows
  rw [List.flatMap_eq_nil_iff.mpr fun thread _ => nothing thread, List.append_nil] at follows
  exact follows

theorem perm_of_keys (first second : List OmtAddress)
    (agree : ∀ key, first.filter (·.key == key) = second.filter (·.key == key)) :
    first.Perm second := by
  refine List.perm_iff_count.mpr fun address => ?_
  have own (sources : List OmtAddress) :
      (sources.filter (·.key == address.key)).count address = sources.count address :=
    List.count_filter (beq_self_eq_true _)
  rw [← own first, agree address.key, own second]

/-- In every orderly run each key's events alternate and name the owner, and once
every event is out the log replays to the registry's sources. -/
theorem event_log_faithful (history : List Action) (relay : Relay)
    (ran : Relay.replay documentParse history = some relay)
    (orderly : RunOrderly documentParse history) :
    (∀ key, Alternates (sourceEvents key relay.events)) ∧
      (relay.Emitted → (replayEvents relay.events).Perm relay.shared.sources) := by
  have chronicled := replay_chronicled documentParse history relay ran orderly
  constructor
  · intro key
    obtain ⟨queue, queued⟩ := chronicled.queued key
    obtain ⟨entry, logged⟩ := logged_follows relay key queue queued
    exact follow_alternates _ entry logged
  · intro emitted
    refine perm_of_keys _ _ fun key => ?_
    obtain ⟨queue, queued⟩ := chronicled.queued key
    have follows := emitted_follows relay chronicled.staffed emitted key queue queued
    have kept := keepSource_follows key relay.events [] none _ rfl follows
    have entries := entryOf_filter relay.shared chronicled.staffed.unique key
    rw [replayEvents, kept, ← entries, Shared.sources, List.filter_map]
    rfl

/-! Runs can be tested. -/

instance decideEmitsInTurn (relay : Relay) (thread : Thread) : (todo : List (Todo Nat)) →
    Decidable (EmitsInTurn relay thread todo)
  | [] => .isTrue trivial
  | .emit event :: _ => inferInstanceAs (Decidable (∀ key ∈ event.source,
      ∀ other ∈ relay.threads, relay.call other < relay.call thread →
        pendingEvents key (relay.pending other) = []))
  | .send _ _ :: _ => .isTrue trivial
  | .spawn _ _ :: _ => .isTrue trivial

instance decideRemovesOwn (relay : Relay) (peer : SocketAddr) :
    (read : Except Text.Panic (Except OmtError OmtAddress)) → Decidable (RemovesOwn relay peer read)
  | .ok (.ok address) => inferInstanceAs (Decidable (address.removed = true →
      ∀ entry ∈ relay.shared.entries, entry.key = address.key → entry.owner = peer))
  | .ok (.error _) => .isTrue trivial
  | .error _ => .isTrue trivial

instance decideStepOrderly (relay : Relay) : (action : Action) →
    Decidable (StepOrderly documentParse relay action)
  | .work thread => inferInstanceAs (Decidable (EmitsInTurn relay thread (relay.pending thread)))
  | .message peer _ xml _ =>
      inferInstanceAs (Decidable (RemovesOwn relay peer (OmtAddress.fromXml documentParse xml)))
  | .accept _ => .isTrue trivial
  | .disconnect _ _ _ => .isTrue trivial
  | .receive _ => .isTrue trivial

instance decideRunOrderly (history : List Action) : Decidable (RunOrderly documentParse history) :=
  inferInstanceAs (Decidable (Runs.Throughout _ _ _ history))

instance decideEmitted (relay : Relay) : Decidable relay.Emitted :=
  inferInstanceAs (Decidable (∀ thread ∈ relay.threads, ∀ todo ∈ relay.pending thread,
    todo.event = none))

def ownRun : List Action :=
  [.work (.peer 0), .disconnect studio 0 [(studio, 0)], .work (.peer 0), .work (.peer 0),
    .message studio 0 (camera true).toXml [(studio, 0)], .work (.peer 0), .work (.peer 0),
    .message studio 0 (camera false).toXml [(studio, 0)], .work .accept, .work .accept,
    .accept studio]

def ownRelay : Relay := (Relay.replay read ownRun).getD .init

theorem event_log_faithful_own :
    (ownRelay.Emitted ∧ (sourceEvents (camera false).key ownRelay.events).length = 2) ∧
      (∀ key, Alternates (sourceEvents key ownRelay.events)) ∧
      (ownRelay.Emitted → (replayEvents ownRelay.events).Perm ownRelay.shared.sources) := by
  have reached : (Relay.replay read ownRun).isSome = true ∧ RunOrderly read ownRun ∧
      ownRelay.Emitted ∧ (sourceEvents (camera false).key ownRelay.events).length = 2 := by
    decide +kernel
  obtain ⟨ran, orderly, told⟩ := reached
  exact ⟨told, event_log_faithful read ownRun ownRelay (replay_getD read ownRun ran) orderly⟩

def foreignRun : List Action :=
  [.work (.peer 1), .work (.peer 1), .work (.peer 1),
    .message backup 1 (camera true).toXml [(studio, 0), (backup, 1)],
    .work .accept, .work .accept, .work .accept, .accept backup, .work (.peer 0), .work (.peer 0),
    .message studio 0 (camera false).toXml [(studio, 0)], .work .accept, .work .accept,
    .accept studio]

def foreignRelay : Relay := (Relay.replay read foreignRun).getD .init

/-- One client takes its camera back, and the other registers it and is the first to say so. -/
def succeededRun : List Action :=
  [.work (.peer 0), .work (.peer 0), .work (.peer 0), .work (.peer 1), .work (.peer 1),
    .work (.peer 1), .message backup 1 (camera false).toXml [(studio, 0), (backup, 1)],
    .message studio 0 (camera true).toXml [(studio, 0), (backup, 1)],
    .work .accept, .work .accept, .work .accept, .accept backup, .work (.peer 0), .work (.peer 0),
    .message studio 0 (camera false).toXml [(studio, 0)], .work .accept, .work .accept,
    .accept studio]

def succeededRelay : Relay := (Relay.replay read succeededRun).getD .init

/-- In the first run the removal names a client that never owned the camera. In the
second the camera is registered twice, then removed: the log replays to no source,
but the registry has the second client's camera. -/
theorem event_log_misleads :
    (Relay.replay read foreignRun = some foreignRelay ∧ foreignRelay.Emitted ∧
        ¬ Alternates (sourceEvents (camera false).key foreignRelay.events)) ∧
      (Relay.replay read succeededRun = some succeededRelay ∧ succeededRelay.Emitted ∧
        ¬ Alternates (sourceEvents (camera false).key succeededRelay.events) ∧
        ¬ (replayEvents succeededRelay.events).Perm succeededRelay.shared.sources) := by
  have foreign : (Relay.replay read foreignRun).isSome = true ∧ foreignRelay.Emitted ∧
      sourceEvents (camera false).key foreignRelay.events =
        [.sourceRegistered { camera false with addresses := [studio.ip] } studio,
          .sourceRemoved { camera true with addresses := [studio.ip] } backup] := by decide +kernel
  have succeeded : (Relay.replay read succeededRun).isSome = true ∧ succeededRelay.Emitted ∧
      sourceEvents (camera false).key succeededRelay.events =
        [.sourceRegistered { camera false with addresses := [studio.ip] } studio,
          .sourceRegistered { camera false with addresses := [backup.ip] } backup,
          .sourceRemoved { camera true with addresses := [studio.ip] } studio] ∧
      (replayEvents succeededRelay.events).length = 0 ∧
      succeededRelay.shared.sources.length = 1 := by decide +kernel
  obtain ⟨foreignRan, foreignOut, foreignLog⟩ := foreign
  obtain ⟨succeededRan, succeededOut, succeededLog, lost, kept⟩ := succeeded
  refine ⟨⟨replay_getD read foreignRun foreignRan, foreignOut, ?_⟩,
    replay_getD read succeededRun succeededRan, succeededOut, ?_, ?_⟩
  · rw [foreignLog]
    exact fun alternates => absurd alternates.1 (by decide)
  · rw [succeededLog]
    exact id
  · intro perm
    have same := perm.length_eq
    omega

end OpenMediaTransport
