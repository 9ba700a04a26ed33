import OpenMediaTransport.Runs
import OpenMediaTransport.WireTypes

/-!
`DiscoveryServerHandle` while several threads start, stop and join it. A start looks at
the slot for the accept thread first and fills it last; all that stands between is done
without the slot's lock, and a join waits without it as well. A call takes one step at a
time; so does every accept thread.
-/

namespace OpenMediaTransport

open Runs

inductive HandleError where
  | discovery (message : String)
  | other (error : OmtError)
  deriving DecidableEq

/-- Where an accept thread stands: `serve_listener` not yet begun, in `accept_loop`, out of
it, past its `stop.store(true)`, and over. -/
inductive ThreadPhase where
  | spawned
  | accepting
  | leaving (result : Except HandleError Unit)
  | stopping (result : Except HandleError Unit)
  | finished (result : Except HandleError Unit)
  deriving DecidableEq

structure AcceptThread where
  port : UInt16
  phase : ThreadPhase
  deriving DecidableEq

/-- The next step of a `start`, with what it has in hand. -/
inductive StartStep where
  | reap
  | readBind
  | listen (bind : UInt16)
  | storeBind (port : UInt16)
  | clearStop (port : UInt16)
  | setRunning (port : UInt16)
  | spawn (port : UInt16)
  | storeHandle (thread : Nat)
  deriving DecidableEq

inductive JoinStep where
  | request
  | take
  | wait (thread : Nat)
  deriving DecidableEq

inductive HandleCall where
  | start (next : StartStep)
  | stop
  | join (next : JoinStep)
  | returned (result : Except HandleError Unit)
  deriving DecidableEq

/-- What all clones of a handle share, and the calls made through them. Of the bind
address only the port ever changes. -/
structure ServerHandle where
  bind : UInt16
  stop : Bool
  running : Bool
  acceptThread : Option Nat
  threads : List AcceptThread
  calls : List HandleCall
  deriving DecidableEq

/-- `listen` carries what the system answers to the bind, `thread` what it answers to the
accept thread's call. -/
inductive HandleStep where
  | beginStart
  | beginStop
  | beginJoin
  | advance (index : Nat)
  | listen (index : Nat) (answer : Except OmtError UInt16)
  | thread (id : Nat) (answer : Except OmtError Unit)

namespace ServerHandle

def withBind (bind : UInt16) : ServerHandle :=
  { bind, stop := false, running := false, acceptThread := none, threads := [], calls := [] }

def finishedWith (handle : ServerHandle) (id : Nat) : Option (Except HandleError Unit) :=
  match handle.threads[id]? with
  | some ⟨_, .finished result⟩ => some result
  | _ => none

def put (handle : ServerHandle) (index : Nat) (call : HandleCall) : ServerHandle :=
  { handle with calls := handle.calls.set index call }

def alreadyRunning : HandleError := .discovery "discovery server is already running"

/-- `reap_accept_thread`: all of it under the slot's lock. -/
def reap (handle : ServerHandle) (index : Nat) : ServerHandle :=
  match handle.acceptThread with
  | none => handle.put index (.start .readBind)
  | some id =>
      match handle.finishedWith id with
      | none => handle.put index (.returned (.error alreadyRunning))
      | some (.error error) =>
          { handle.put index (.returned (.error error)) with acceptThread := none }
      | some (.ok ()) => { handle.put index (.start .readBind) with acceptThread := none }

/-- The next step of a `start` other than its `listen`. -/
def advanceStart (handle : ServerHandle) (index : Nat) : StartStep → Option ServerHandle
  | .reap => some (handle.reap index)
  | .readBind => some (handle.put index (.start (.listen handle.bind)))
  | .listen _ => none
  | .storeBind port => some { handle.put index (.start (.clearStop port)) with bind := port }
  | .clearStop port => some { handle.put index (.start (.setRunning port)) with stop := false }
  | .setRunning port => some { handle.put index (.start (.spawn port)) with running := true }
  | .spawn port =>
      some { handle.put index (.start (.storeHandle handle.threads.length)) with
        threads := handle.threads ++ [⟨port, .spawned⟩] }
  | .storeHandle id =>
      some { handle.put index (.returned (.ok ())) with acceptThread := some id }

/-- The next step of a `join`; waiting for a thread ends when the thread does. -/
def advanceJoin (handle : ServerHandle) (index : Nat) : JoinStep → Option ServerHandle
  | .request => some { handle.put index (.join .take) with stop := true }
  | .take =>
      match handle.acceptThread with
      | none => some (handle.put index (.returned (.ok ())))
      | some id => some { handle.put index (.join (.wait id)) with acceptThread := none }
  | .wait id => (handle.finishedWith id).map fun result => handle.put index (.returned result)

def advance (handle : ServerHandle) (index : Nat) : Option ServerHandle :=
  match handle.calls[index]? with
  | some (.start next) => handle.advanceStart index next
  | some .stop => some { handle.put index (.returned (.ok ())) with stop := true }
  | some (.join next) => handle.advanceJoin index next
  | _ => none

def portsInUse (handle : ServerHandle) : List UInt16 :=
  (handle.threads.filterMap fun thread =>
    match thread.phase with
    | .finished _ => none
    | _ => some thread.port) ++
  handle.calls.filterMap fun call =>
    match call with
    | .start (.storeBind port) => some port
    | .start (.clearStop port) => some port
    | .start (.setRunning port) => some port
    | .start (.spawn port) => some port
    | _ => none

/-- Port 0 is answered with a fresh port; another port is bound if it is free, or refused. -/
def mayAnswer (handle : ServerHandle) (bind : UInt16) : Except OmtError UInt16 → Bool
  | .ok port => port != 0 && (bind == 0 || port == bind) && !handle.portsInUse.contains port
  | .error _ => bind != 0

def listen (handle : ServerHandle) (index : Nat) (answer : Except OmtError UInt16) :
    Option ServerHandle :=
  match handle.calls[index]? with
  | some (.start (.listen bind)) =>
      if handle.mayAnswer bind answer then
        match answer with
        | .ok port => some (handle.put index (.start (.storeBind port)))
        | .error error => some (handle.put index (.returned (.error (.other error))))
      else none
  | _ => none

def enter (handle : ServerHandle) (id : Nat) (port : UInt16) (phase : ThreadPhase) : ServerHandle :=
  { handle with threads := handle.threads.set id ⟨port, phase⟩ }

def advanceThread (handle : ServerHandle) (id : Nat) (answer : Except OmtError Unit) :
    Option ServerHandle :=
  match handle.threads[id]? with
  | none => none
  | some ⟨port, phase⟩ =>
      match phase with
      | .spawned =>
          match answer with
          | .ok () => some { handle.enter id port .accepting with running := true }
          | .error error =>
              some { handle.enter id port (.finished (.error (.other error))) with running := false }
      | .accepting =>
          if handle.stop then some (handle.enter id port (.leaving (.ok ())))
          else
            match answer with
            | .ok () => some handle
            | .error error => some (handle.enter id port (.leaving (.error (.other error))))
      | .leaving result => some { handle.enter id port (.stopping result) with stop := true }
      | .stopping result => some { handle.enter id port (.finished result) with running := false }
      | .finished _ => none

def act (handle : ServerHandle) : HandleStep → Option ServerHandle
  | .beginStart => some { handle with calls := handle.calls ++ [.start .reap] }
  | .beginStop => some { handle with calls := handle.calls ++ [.stop] }
  | .beginJoin => some { handle with calls := handle.calls ++ [.join .request] }
  | .advance index => handle.advance index
  | .listen index answer => handle.listen index answer
  | .thread id answer => handle.advanceThread id answer

/-! Who answers for a running thread: the slot, or the call that has it in hand. -/

def Alive (handle : ServerHandle) (id : Nat) : Prop :=
  ∃ port phase, handle.threads[id]? = some ⟨port, phase⟩ ∧ ∀ result, phase ≠ .finished result

/-- A start past its reap has a thread in hand, or room for one; a waiting join has one. -/
def inHand : HandleCall → List (Option Nat)
  | .start .reap => []
  | .start (.storeHandle id) => [some id]
  | .start _ => [none]
  | .join (.wait id) => [some id]
  | _ => []

def inSlot (handle : ServerHandle) : List (Option Nat) :=
  match handle.acceptThread with
  | none => []
  | some id => [some id]

def waiting : HandleCall → Bool
  | .join (.wait _) => true
  | _ => false

def starting : HandleCall → Bool
  | .start _ => true
  | _ => false

/-- A start passes its reap only while no other is past it and no join waits for the thread
it has taken; a join takes the thread only while no other one waits. -/
def orderly (handle : ServerHandle) : HandleStep → Bool
  | .advance index =>
      match handle.calls[index]? with
      | some (.start .reap) =>
          (handle.acceptThread.any fun id => (handle.finishedWith id).isNone) ||
            (handle.calls.flatMap inHand).isEmpty
      | some (.join .take) => !handle.calls.any waiting
      | _ => true
  | _ => true

/-- Every running thread is answered for, and there is one place for it. -/
structure Held (handle : ServerHandle) : Prop where
  one : (handle.inSlot ++ handle.calls.flatMap inHand).length ≤ 1
  alive : ∀ id, handle.Alive id → some id ∈ handle.inSlot ++ handle.calls.flatMap inHand

theorem alive_same (before after : ServerHandle) (same : after.threads = before.threads) (id : Nat) :
    after.Alive id ↔ before.Alive id := by
  simp [Alive, same]

theorem finished_dead (handle : ServerHandle) (id : Nat) (result : Except HandleError Unit)
    (ended : handle.finishedWith id = some result) : ¬ handle.Alive id := by
  rintro ⟨port, phase, found, running⟩
  cases phase <;> simp_all [finishedWith]

section Steps
variable {before after : ServerHandle}

/-- A call's step is judged by the slot and by the call alone. -/
theorem Held.replace (held : Held before) (index : Nat) (old new : HandleCall)
    (found : before.calls[index]? = some old) (calls : after.calls = before.calls.set index new)
    (fewer : (after.inSlot ++ inHand new).length ≤ (before.inSlot ++ inHand old).length)
    (alive : ∀ id, after.Alive id → some id ∈ after.inSlot ++ inHand new ∨
      before.Alive id ∧ some id ∉ before.inSlot ++ inHand old) : Held after := by
  obtain ⟨front, back, parts, _, replaced⟩ := set_found before.calls index old found
  have was : before.calls.flatMap inHand =
      front.flatMap inHand ++ (inHand old ++ back.flatMap inHand) := by simp [parts]
  have now : after.calls.flatMap inHand =
      front.flatMap inHand ++ (inHand new ++ back.flatMap inHand) := by simp [calls, replaced]
  have one := held.one
  constructor
  case one =>
    simp only [was, now, List.length_append] at one fewer ⊢
    omega
  case alive =>
    intro id lives
    rcases alive id lives with here | ⟨lived, elsewhere⟩
    · simp only [now, List.mem_append] at here ⊢
      tauto
    · have there := held.alive id lived
      simp only [was, now, List.mem_append] at there elsewhere ⊢
      tauto

theorem Held.quiet (held : Held before) (index : Nat) (old new : HandleCall)
    (found : before.calls[index]? = some old) (calls : after.calls = before.calls.set index new)
    (slot : after.acceptThread = before.acceptThread) (threads : after.threads = before.threads)
    (hand : inHand new = inHand old) : Held after := by
  have place : after.inSlot = before.inSlot := by simp [inSlot, slot]
  refine held.replace index old new found calls (Nat.le_of_eq (by rw [place, hand])) fun id lives => ?_
  rw [place, hand]
  by_cases here : some id ∈ before.inSlot ++ inHand old
  · exact .inl here
  · exact .inr ⟨(alive_same before after threads id).mp lives, here⟩

/-- Threads only come to their end by themselves. -/
theorem Held.fade (held : Held before) (calls : after.calls = before.calls)
    (slot : after.acceptThread = before.acceptThread)
    (fewer : ∀ id, after.Alive id → before.Alive id) : Held after := by
  have place : after.inSlot = before.inSlot := by simp [inSlot, slot]
  constructor
  case one =>
    rw [calls, place]
    exact held.one
  case alive =>
    intro id lives
    rw [calls, place]
    exact held.alive id (fewer id lives)

theorem Held.begin (held : Held before) (call : HandleCall) (empty : inHand call = []) :
    Held { before with calls := before.calls ++ [call] } := by
  constructor
  case one =>
    simpa [inSlot, empty] using held.one
  case alive =>
    intro id lives
    simpa [inSlot, empty] using held.alive id lives

theorem Held.sole (held : Held before) (index : Nat) (call : HandleCall)
    (found : before.calls[index]? = some call) (busy : inHand call ≠ []) :
    before.acceptThread = none ∧ before.inSlot = [] ∧
      before.calls.flatMap inHand = inHand call := by
  obtain ⟨front, back, parts, _, _⟩ := set_found before.calls index call found
  have one := held.one
  have positive := List.length_pos_of_ne_nil busy
  simp only [parts, List.flatMap_append, List.flatMap_cons, List.length_append] at one
  have slot : before.inSlot = [] := List.eq_nil_of_length_eq_zero (by omega)
  have left : front.flatMap inHand = [] := List.eq_nil_of_length_eq_zero (by omega)
  have right : back.flatMap inHand = [] := List.eq_nil_of_length_eq_zero (by omega)
  refine ⟨?_, slot, by simp [parts, left, right]⟩
  cases taken : before.acceptThread with
  | none => rfl
  | some id => simp [inSlot, taken] at slot

theorem Held.reaped (held : Held before) (index : Nat)
    (found : before.calls[index]? = some (.start .reap))
    (free : (before.acceptThread.any fun id => (before.finishedWith id).isNone) = true ∨
      before.calls.flatMap inHand = []) : Held (before.reap index) := by
  unfold reap
  cases slot : before.acceptThread with
  | none =>
      -- No one has anything in hand, and nothing runs.
      rw [slot] at free
      have none := free.resolve_left (by simp)
      obtain ⟨front, back, parts, _, replaced⟩ := set_found before.calls index _ found
      have bare : before.inSlot = [] := by simp [inSlot, slot]
      rw [parts] at none
      simp only [List.flatMap_append, List.flatMap_cons, List.append_eq_nil_iff] at none
      constructor
      · simp [put, inSlot, slot, replaced, none, inHand]
      · intro id lives
        have there := held.alive id lives
        simp [bare, parts, none] at there
  | some id =>
      dsimp only
      cases ended : before.finishedWith id with
      | none => exact held.quiet index _ _ found rfl rfl rfl rfl
      | some result =>
          have dead := finished_dead before id result ended
          have elsewhere (other : Nat) (lives : before.Alive other) :
              some other ∉ before.inSlot ++ inHand (.start .reap) := by
            simp only [inSlot, slot, inHand, List.append_nil, List.mem_singleton, Option.some.injEq]
            rintro rfl
            exact dead lives
          cases result with
          | error error =>
              exact held.replace index _ _ found rfl (by simp [inSlot, slot, inHand]) fun other lives =>
                .inr ⟨lives, elsewhere other lives⟩
          | ok _ =>
              exact held.replace index _ _ found rfl (by simp [inSlot, slot, inHand]) fun other lives =>
                .inr ⟨lives, elsewhere other lives⟩

theorem Held.advancedStart (held : Held before) (index : Nat) (next : StartStep)
    (found : before.calls[index]? = some (.start next))
    (free : next = .reap → (before.acceptThread.any fun id => (before.finishedWith id).isNone) = true ∨
      before.calls.flatMap inHand = [])
    (taken : before.advanceStart index next = some after) : Held after := by
  cases next with
  | reap =>
      cases taken
      exact held.reaped index found (free rfl)
  | readBind =>
      cases taken
      exact held.quiet index _ _ found rfl rfl rfl rfl
  | listen bind => cases taken
  | storeBind port =>
      cases taken
      exact held.quiet index _ _ found rfl rfl rfl rfl
  | clearStop port =>
      cases taken
      exact held.quiet index _ _ found rfl rfl rfl rfl
  | setRunning port =>
      cases taken
      exact held.quiet index _ _ found rfl rfl rfl rfl
  | spawn port =>
      cases taken
      obtain ⟨_, slot, _⟩ := held.sole index _ found (List.cons_ne_nil _ _)
      refine held.replace index _ _ found rfl (by simp [inSlot, put, inHand]) fun id lives => ?_
      obtain ⟨own, phase, there, running⟩ := lives
      rw [List.getElem?_append] at there
      split at there
      · exact .inr ⟨⟨own, phase, there, running⟩, by simp [slot, inHand]⟩
      · -- The thread just spawned.
        rename_i beyond
        obtain ⟨same, _⟩ := List.getElem?_eq_some_iff.mp there
        rw [List.length_singleton] at same
        have last : id = before.threads.length := by omega
        exact .inl (by simp [inHand, last])
  | storeHandle id =>
      cases taken
      obtain ⟨_, slot, _⟩ := held.sole index _ found (List.cons_ne_nil _ _)
      refine held.replace index _ _ found rfl (by simp [inSlot, inHand]) fun other lives => ?_
      by_cases same : other = id
      · exact .inl (by simp [same, inSlot])
      · exact .inr ⟨lives, by simp [slot, inHand, same]⟩

theorem Held.advancedJoin (held : Held before) (index : Nat) (next : JoinStep)
    (found : before.calls[index]? = some (.join next))
    (taken : before.advanceJoin index next = some after) : Held after := by
  cases next with
  | request =>
      cases taken
      exact held.quiet index _ _ found rfl rfl rfl rfl
  | take =>
      unfold advanceJoin at taken
      cases slot : before.acceptThread with
      | none =>
          rw [slot] at taken
          cases taken
          exact held.quiet index _ _ found rfl rfl rfl rfl
      | some id =>
          rw [slot] at taken
          cases taken
          refine held.replace index _ _ found rfl (by simp [inSlot, slot, inHand]) fun other lives => ?_
          by_cases same : other = id
          · exact .inl (by simp [same, inHand])
          · exact .inr ⟨lives, by simp [inSlot, slot, inHand, same]⟩
  | wait id =>
      unfold advanceJoin at taken
      obtain ⟨result, ended, rfl⟩ := Option.map_eq_some_iff.mp taken
      have dead := finished_dead before id result ended
      obtain ⟨_, slot, _⟩ := held.sole index _ found (List.cons_ne_nil _ _)
      refine held.replace index _ _ found rfl (by simp [inSlot, put, inHand]) fun other lives => ?_
      refine .inr ⟨lives, ?_⟩
      simp only [slot, inHand, List.nil_append, List.mem_singleton, Option.some.injEq]
      rintro rfl
      exact dead lives

theorem Held.listened (held : Held before) (index : Nat) (answer : Except OmtError UInt16)
    (taken : before.listen index answer = some after) : Held after := by
  unfold listen at taken
  split at taken
  · rename_i bind found
    split at taken
    · cases answer with
      | ok port =>
          cases taken
          exact held.quiet index _ _ found rfl rfl rfl rfl
      | error error =>
          cases taken
          obtain ⟨_, slot, _⟩ := held.sole index _ found (List.cons_ne_nil _ _)
          refine held.replace index _ _ found rfl (by simp [inSlot, put, inHand]) fun id lives => ?_
          exact .inr ⟨lives, by simp [slot, inHand]⟩
    · cases taken
  · cases taken

theorem Held.threadAdvanced (held : Held before) (id : Nat) (answer : Except OmtError Unit)
    (taken : before.advanceThread id answer = some after) : Held after := by
  unfold advanceThread at taken
  split at taken
  · cases taken
  rename_i port phase found
  have fade (next : ThreadPhase) (running : ∀ result, phase ≠ .finished result) (other : Nat)
      (lives : (before.enter id port next).Alive other) : before.Alive other := by
    obtain ⟨own, later, there, going⟩ := lives
    by_cases same : other = id
    · subst same
      exact ⟨port, phase, found, running⟩
    · refine ⟨own, later, ?_, going⟩
      rw [enter, List.getElem?_set_ne (Ne.symm same)] at there
      exact there
  cases phase with
  | spawned =>
      have fewer := fun next => fade next (by simp)
      cases answer with
      | ok _ =>
          cases taken
          exact held.fade rfl rfl (fewer _)
      | error error =>
          cases taken
          exact held.fade rfl rfl (fewer _)
  | accepting =>
      have fewer := fun next => fade next (by simp)
      dsimp only at taken
      split at taken
      · cases taken
        exact held.fade rfl rfl (fewer _)
      · cases answer with
        | ok _ =>
            cases taken
            exact held
        | error error =>
            cases taken
            exact held.fade rfl rfl (fewer _)
  | leaving result =>
      cases taken
      exact held.fade rfl rfl (fade _ (by simp))
  | stopping result =>
      cases taken
      exact held.fade rfl rfl (fade _ (by simp))
  | finished result => cases taken

theorem Held.advanced (held : Held before) (index : Nat)
    (inTurn : before.orderly (.advance index) = true)
    (taken : before.advance index = some after) : Held after := by
  unfold advance at taken
  split at taken
  · rename_i next found
    refine held.advancedStart index next found ?_ taken
    rintro rfl
    simp only [orderly, found, Bool.or_eq_true, List.isEmpty_iff] at inTurn
    exact inTurn
  · rename_i found
    cases taken
    exact held.quiet index _ _ found rfl rfl rfl rfl
  · rename_i next found
    exact held.advancedJoin index next found taken
  · cases taken
end Steps

theorem init_held (bind : UInt16) : Held (withBind bind) := by
  constructor
  case one =>
    exact Nat.zero_le _
  case alive =>
    rintro id ⟨port, phase, found, _⟩
    cases found

theorem held_invariant (bind : UInt16) :
    Invariant act (withBind bind) (fun handle step => handle.orderly step = true) Held where
  start := init_held bind
  step := by
    intro before after step held inTurn taken
    cases step with
    | beginStart =>
        cases taken
        exact held.begin _ rfl
    | beginStop =>
        cases taken
        exact held.begin _ rfl
    | beginJoin =>
        cases taken
        exact held.begin _ rfl
    | advance index => exact held.advanced index inTurn taken
    | listen index answer => exact held.listened index answer taken
    | thread id answer => exact held.threadAdvanced id answer taken

/-! What a join may rely on. -/

/-- The step was a join's last, and no start is under way behind it. -/
def JoinReturned (before after : ServerHandle) : HandleStep → Prop
  | .advance index =>
      (∃ next, before.calls[index]? = some (.join next)) ∧
        (∃ result, after.calls[index]? = some (.returned result)) ∧ after.calls.any starting = false
  | _ => False

theorem inHand_idle (call : HandleCall) (begun : starting call = false)
    (waits : waiting call = false) : inHand call = [] := by
  cases call with
  | start next => cases begun
  | join next =>
      cases next with
      | wait id => cases waits
      | _ => rfl
  | _ => rfl

theorem Held.joined (before after : ServerHandle) (held : Held before) (step : HandleStep)
    (inTurn : before.orderly step = true) (taken : before.act step = some after)
    (joined : JoinReturned before after step) (id : Nat) : ¬ after.Alive id := by
  cases step with
  | advance index =>
      obtain ⟨⟨next, found⟩, ⟨result, ended⟩, idle⟩ := joined
      obtain ⟨inside, _⟩ := List.getElem?_eq_some_iff.mp found
      simp only [act, advance, found] at taken
      intro lives
      cases next with
      | request =>
          cases taken
          simp [put, inside] at ended
      | take =>
          unfold advanceJoin at taken
          cases slot : before.acceptThread with
          | some taken' =>
              rw [slot] at taken
              cases taken
              simp [put, inside] at ended
          | none =>
              -- The slot is empty, and no call has a thread in hand.
              rw [slot] at taken
              cases taken
              obtain ⟨front, back, parts, _, replaced⟩ := set_found before.calls index _ found
              have quiet : before.calls.any waiting = false := by
                simpa [orderly, found] using inTurn
              have empty : before.calls.flatMap inHand = [] := by
                rw [put, replaced] at idle
                rw [parts] at quiet ⊢
                simp only [List.any_append, List.any_cons, Bool.or_eq_false_iff, List.any_eq_false,
                  Bool.not_eq_true] at idle quiet
                simp only [List.flatMap_append, List.flatMap_cons, List.append_eq_nil_iff,
                  List.flatMap_eq_nil_iff]
                exact ⟨fun call member => inHand_idle call (idle.1 call member) (quiet.1 call member),
                  rfl, fun call member =>
                    inHand_idle call (idle.2.2 call member) (quiet.2.2 call member)⟩
              have there := held.alive id lives
              simp [inSlot, slot, empty] at there
      | wait own =>
          unfold advanceJoin at taken
          obtain ⟨answer, ended', rfl⟩ := Option.map_eq_some_iff.mp taken
          obtain ⟨_, slot, sole⟩ := held.sole index _ found (List.cons_ne_nil _ _)
          have there := held.alive id lives
          simp only [slot, sole, inHand, List.nil_append, List.mem_singleton, Option.some.injEq] at there
          subst there
          exact finished_dead before id answer ended' lives
  | _ => exact joined.elim

/-- If every start passes its reap, and every join takes the thread, while no one else is
in the middle of either, then there is never more than one accept thread, and none when a
join has returned and no start is under way. -/
theorem one_accept_loop (bind : UInt16) (history : List HandleStep) (handle : ServerHandle)
    (inTurn : Throughout act (withBind bind) (fun state step => state.orderly step = true) history)
    (ran : replay act (withBind bind) history = some handle) :
    (∀ left right, handle.Alive left → handle.Alive right → left = right) ∧
      ∀ step past before, history = step :: past →
        replay act (withBind bind) past = some before → JoinReturned before handle step →
        ∀ id, ¬ handle.Alive id := by
  have held := (held_invariant bind).run act (withBind bind) history handle inTurn ran
  constructor
  · intro left right first second
    have atLeft := held.alive left first
    have atRight := held.alive right second
    have one := held.one
    match places : handle.inSlot ++ handle.calls.flatMap inHand with
    | [] =>
        rw [places] at atLeft
        cases atLeft
    | [place] =>
        rw [places, List.mem_singleton] at atLeft atRight
        exact Option.some.inj (atLeft.trans atRight.symm)
    | _ :: _ :: _ =>
        rw [places] at one
        simp at one
  · rintro step past before rfl earlier joined
    obtain ⟨same, found, taken⟩ := (replay_cons act _ step past handle).mp ran
    cases earlier.symm.trans found
    have sound := (held_invariant bind).run act (withBind bind) past before inTurn.1 earlier
    exact sound.joined before handle step (inTurn.2 before earlier) taken joined

def orderlyRun : List HandleStep :=
  [.beginStart, .advance 0, .advance 0, .listen 0 (.ok 6400), .advance 0, .advance 0, .advance 0,
    .advance 0, .advance 0, .thread 0 (.ok ()), .beginJoin, .advance 1, .advance 1,
    .thread 0 (.ok ()), .thread 0 (.ok ()), .thread 0 (.ok ()), .advance 1].reverse

def doubleStart : List HandleStep :=
  [.beginStart, .beginStart, .advance 0, .advance 1, .advance 0, .advance 1, .listen 0 (.ok 6400),
    .listen 1 (.ok 6401), .advance 0, .advance 1, .advance 0, .advance 1, .advance 0, .advance 1,
    .advance 0, .advance 1, .advance 0, .advance 1].reverse

theorem one_accept_loop_orderly :
    ∃ handle, replay act (withBind 0) orderlyRun = some handle ∧
      (∀ left right, handle.Alive left → handle.Alive right → left = right) ∧
      ∀ step past before, orderlyRun = step :: past →
        replay act (withBind 0) past = some before → JoinReturned before handle step →
        ∀ id, ¬ handle.Alive id := by
  have ran : (replay act (withBind 0) orderlyRun).isSome = true := by decide +kernel
  obtain ⟨handle, ran⟩ := Option.isSome_iff_exists.mp ran
  exact ⟨handle, ran, one_accept_loop 0 orderlyRun handle (by decide +kernel) ran⟩

/-- Both starts succeed, and both accept threads run. -/
theorem two_accept_loops :
    ∃ handle, replay act (withBind 0) doubleStart = some handle ∧
      handle.calls = [.returned (.ok ()), .returned (.ok ())] ∧ handle.Alive 0 ∧ handle.Alive 1 := by
  have ran : (replay act (withBind 0) doubleStart).map (fun handle => (handle.calls, handle.threads)) =
      some ([.returned (.ok ()), .returned (.ok ())], [⟨6400, .spawned⟩, ⟨6401, .spawned⟩]) := by
    decide +kernel
  obtain ⟨handle, ran, seen⟩ := Option.map_eq_some_iff.mp ran
  obtain ⟨calls, threads⟩ := Prod.mk.inj seen
  refine ⟨handle, ran, calls, ⟨6400, .spawned, ?_, by simp⟩, ⟨6401, .spawned, ?_, by simp⟩⟩
  · rw [threads]
    rfl
  · rw [threads]
    rfl

end ServerHandle

end OpenMediaTransport
