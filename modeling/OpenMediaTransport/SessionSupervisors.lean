import OpenMediaTransport.Runs
import OpenMediaTransport.WireTypes

/-!
The video and audio supervisors of a receiver session and the state they share. Each
writes the state as it waits, connects and begins to read; none writes it as it ends. No
disconnect is asked for, so that the stop flag stays clear.
-/

namespace OpenMediaTransport

open Runs

inductive SessionState where
  | connecting
  | connected
  | reconnecting
  | stopping
  | stopped
  deriving DecidableEq

structure ReceiverConfig where
  frameTypes : FrameType
  autoReconnect : Bool

inductive SocketRole where
  | video
  | audio
  deriving DecidableEq

/-- The next thing a supervisor does: `top` of its loop without a stream, `waiting` out the
backoff, `connecting`, `subscribing`, `entering` the part behind the stream, `reading`, and
`left` behind the reader loop. -/
inductive Position where
  | top
  | waiting
  | connecting
  | subscribing
  | entering
  | reading
  | left
  | exited
  deriving DecidableEq

/-- Positions of a supervisor whose latest write was `Connected`, or is yet to come. -/
def Position.stands : Position → Bool
  | .top | .entering | .reading | .left => true
  | _ => false

def Position.onFirst : Position → Bool
  | .entering | .reading | .left | .exited => true
  | _ => false

structure Supervisor where
  role : SocketRole
  position : Position
  backoff : Nat
  deriving DecidableEq

structure ReceiverThreads where
  state : SessionState
  lastError : Option String
  reconnects : Nat
  supervisors : List Supervisor
  deriving DecidableEq

def reconnectMin : Nat := 250
def reconnectMax : Nat := 2000

theorem reconnect_min_le : reconnectMin ≤ reconnectMax := by decide

def wantedRoles (frameTypes : FrameType) : List SocketRole :=
  (if frameTypes.contains .video || frameTypes.contains .metadata || frameTypes == .none then
    [.video] else []) ++
  if frameTypes.contains .audio then [.audio] else []

def closedMessage : SocketRole → String
  | .video => "video socket closed"
  | .audio => "audio socket closed"

namespace ReceiverThreads

/-- Every supervisor is given a subscribed stream, which takes it past its first connect. -/
def spawned (config : ReceiverConfig) : ReceiverThreads where
  state := .connected
  lastError := none
  reconnects := 0
  supervisors := (wantedRoles config.frameTypes).map fun role => ⟨role, .entering, reconnectMin⟩

def place (threads : ReceiverThreads) (index : Nat) (supervisor : Supervisor) (position : Position) :
    ReceiverThreads :=
  { threads with supervisors := threads.supervisors.set index { supervisor with position } }

def retry (config : ReceiverConfig) : Position := if config.autoReconnect then .top else .exited

/-- One step of `socket_supervisor`; `answer` is that of `connect_first` or `subscribe_socket`. -/
def advance (config : ReceiverConfig) (threads : ReceiverThreads) (index : Nat)
    (supervisor : Supervisor) (answer : Except OmtError Unit) : Option ReceiverThreads :=
  match supervisor.position with
  | .top =>
      some { threads.place index supervisor .waiting with
        state := .reconnecting, reconnects := threads.reconnects + 1 }
  | .waiting =>
      let slower := { supervisor with backoff := min (supervisor.backoff * 2) reconnectMax }
      some { threads.place index slower .connecting with state := .connecting }
  | .connecting =>
      match answer with
      | .ok () => some (threads.place index supervisor .subscribing)
      | .error error =>
          some { threads.place index supervisor (retry config) with
            lastError := some ("connect failed: " ++ error.message) }
  | .subscribing =>
      match answer with
      | .ok () => some (threads.place index supervisor .entering)
      | .error error =>
          some { threads.place index supervisor (retry config) with
            lastError := some ("subscribe failed: " ++ error.message) }
  | .entering =>
      some { threads.place index { supervisor with backoff := reconnectMin } .reading with
        state := .connected }
  | .reading => some (threads.place index supervisor .left)
  | .left =>
      some { threads.place index supervisor (retry config) with
        lastError := some (closedMessage supervisor.role) }
  | .exited => none

def act (config : ReceiverConfig) (threads : ReceiverThreads)
    (step : Nat × Except OmtError Unit) : Option ReceiverThreads :=
  match threads.supervisors[step.1]? with
  | none => none
  | some supervisor => threads.advance config step.1 supervisor step.2

def Quiet (threads : ReceiverThreads) : Prop :=
  ∀ supervisor ∈ threads.supervisors, supervisor.position = .reading ∨
    supervisor.position = .waiting ∨ supervisor.position = .exited

/-- The last supervisor that still runs does not end for want of a reconnect. -/
def StaysStaffed (config : ReceiverConfig) (threads : ReceiverThreads)
    (step : Nat × Except OmtError Unit) : Prop :=
  config.autoReconnect = false →
    (threads.supervisors[step.1]?.map (·.position)) = some .left →
    ∃ other ∈ threads.supervisors.eraseIdx step.1, other.position ≠ .exited

/-- A connected state has someone to stand for it. -/
structure Truthful (config : ReceiverConfig) (threads : ReceiverThreads) : Prop where
  stands : threads.state = .connected →
    ∃ supervisor ∈ threads.supervisors, supervisor.position.stands = true
  first : config.autoReconnect = false →
    ∀ supervisor ∈ threads.supervisors, supervisor.position.onFirst = true

/-- What one step does to its own supervisor, and what a connected state rests on after it. -/
structure Moved (config : ReceiverConfig) (before after : ReceiverThreads) (index : Nat)
    (old new : Supervisor) : Prop where
  supervisors : after.supervisors = before.supervisors.set index new
  backoff : new.backoff = old.backoff ∨ new.backoff = reconnectMin ∨
    new.backoff = min (old.backoff * 2) reconnectMax
  first : config.autoReconnect = false → old.position.onFirst = true → new.position.onFirst = true
  stands : after.state = .connected → new.position.stands = true ∨
    before.state = .connected ∧ old.position.stands = false ∨
    config.autoReconnect = false ∧ old.position = .left

theorem advance_moves (config : ReceiverConfig) (before after : ReceiverThreads) (index : Nat)
    (old : Supervisor) (answer : Except OmtError Unit)
    (taken : before.advance config index old answer = some after) :
    ∃ new, Moved config before after index old new := by
  obtain ⟨role, position, backoff⟩ := old
  cases position with
  | top =>
      cases taken
      exact ⟨_, rfl, .inl rfl, by simp [Position.onFirst], by simp⟩
  | waiting =>
      cases taken
      exact ⟨_, rfl, .inr (.inr rfl), by simp [Position.onFirst], by simp⟩
  | connecting =>
      cases answer with
      | ok _ =>
          cases taken
          exact ⟨_, rfl, .inl rfl, by simp [Position.onFirst], fun same => .inr (.inl ⟨same, rfl⟩)⟩
      | error error =>
          cases taken
          exact ⟨_, rfl, .inl rfl, by simp [Position.onFirst], fun same => .inr (.inl ⟨same, rfl⟩)⟩
  | subscribing =>
      cases answer with
      | ok _ =>
          cases taken
          exact ⟨_, rfl, .inl rfl, by simp [Position.onFirst], fun same => .inr (.inl ⟨same, rfl⟩)⟩
      | error error =>
          cases taken
          exact ⟨_, rfl, .inl rfl, by simp [Position.onFirst], fun same => .inr (.inl ⟨same, rfl⟩)⟩
  | entering =>
      cases taken
      exact ⟨_, rfl, .inr (.inl rfl), by simp [Position.onFirst], fun _ => .inl rfl⟩
  | reading =>
      cases taken
      exact ⟨_, rfl, .inl rfl, by simp [Position.onFirst], fun _ => .inl rfl⟩
  | left =>
      -- The one exit that leaves the state as it is without anyone to stand for it.
      cases taken
      cases again : config.autoReconnect with
      | true =>
          refine ⟨_, rfl, .inl rfl, by simp [again], fun _ => .inl ?_⟩
          simp [retry, again, Position.stands]
      | false =>
          exact ⟨_, rfl, .inl rfl, by simp [retry, again, Position.onFirst],
            fun _ => .inr (.inr ⟨again, rfl⟩)⟩
  | exited => cases taken

section Steps
variable {config : ReceiverConfig} {before after : ReceiverThreads}

theorem Truthful.move (held : Truthful config before) (index : Nat) (old new : Supervisor)
    (found : before.supervisors[index]? = some old)
    (moved : after.supervisors = before.supervisors.set index new)
    (first : config.autoReconnect = false → old.position.onFirst = true →
      new.position.onFirst = true)
    (stands : after.state = .connected → new.position.stands = true ∨
      before.state = .connected ∧ old.position.stands = false ∨
      ∃ other ∈ before.supervisors.eraseIdx index, other.position.stands = true) :
    Truthful config after := by
  obtain ⟨front, back, parts, others, replaced⟩ := set_found before.supervisors index old found
  constructor
  · intro connected
    rw [moved, replaced]
    rcases stands connected with own | ⟨earlier, fallen⟩ | ⟨other, member, position⟩
    · exact ⟨new, by simp, own⟩
    · obtain ⟨other, member, position⟩ := held.stands earlier
      have apart : other ≠ old := by
        rintro rfl
        rw [fallen] at position
        cases position
      rw [parts] at member
      simp only [List.mem_append, List.mem_cons, apart, false_or] at member
      exact ⟨other, by simp only [List.mem_append, List.mem_cons]; tauto, position⟩
    · rw [others, List.mem_append] at member
      exact ⟨other, by simp only [List.mem_append, List.mem_cons]; tauto, position⟩
  · intro once supervisor member
    have known := held.first once
    rw [parts] at known
    rw [moved, replaced] at member
    have own := first once (known old (by simp))
    simp only [List.mem_append, List.mem_cons] at member
    rcases member with inFront | rfl | behind
    · exact known supervisor (by simp [inFront])
    · exact own
    · exact known supervisor (by simp [behind])

theorem Truthful.advanced (held : Truthful config before) (index : Nat) (old new : Supervisor)
    (answer : Except OmtError Unit) (found : before.supervisors[index]? = some old)
    (staffed : StaysStaffed config before (index, answer))
    (moved : Moved config before after index old new) : Truthful config after := by
  refine held.move index old new found moved.supervisors moved.first fun connected => ?_
  rcases moved.stands connected with own | same | ⟨once, leaves⟩
  · exact .inl own
  · exact .inr (.inl same)
  · -- Whoever is left has its first stream, or is about to end as well.
    obtain ⟨other, member, running⟩ := staffed once (by simp [found, leaves])
    have known := held.first once other (List.mem_of_mem_eraseIdx member)
    refine .inr (.inr ⟨other, member, ?_⟩)
    cases position : other.position <;> simp_all [Position.onFirst, Position.stands]
end Steps

theorem spawned_truthful (config : ReceiverConfig) (started : wantedRoles config.frameTypes ≠ []) :
    Truthful config (spawned config) := by
  constructor
  · intro _
    obtain ⟨role, rest, roles⟩ := List.exists_cons_of_ne_nil started
    exact ⟨⟨role, .entering, reconnectMin⟩, by simp [spawned, roles], rfl⟩
  · intro _ supervisor member
    obtain ⟨role, _, rfl⟩ := List.mem_map.mp member
    rfl

theorem truthful_invariant (config : ReceiverConfig) (started : wantedRoles config.frameTypes ≠ []) :
    Invariant (act config) (spawned config) (StaysStaffed config) (Truthful config) where
  start := spawned_truthful config started
  step := by
    intro before after step held staffed taken
    unfold act at taken
    split at taken
    · cases taken
    · rename_i old found
      obtain ⟨new, moved⟩ := advance_moves config before after step.1 old step.2 taken
      exact held.advanced step.1 old new step.2 found staffed moved

/-- If some supervisor is started, and the last one running never ends for want of a
reconnect, then a connected session reads from a socket whenever it is at rest. -/
theorem session_state_truthful (config : ReceiverConfig)
    (started : wantedRoles config.frameTypes ≠ []) (history : List (Nat × Except OmtError Unit))
    (threads : ReceiverThreads)
    (staffed : Throughout (act config) (spawned config) (StaysStaffed config) history)
    (ran : replay (act config) (spawned config) history = some threads) (quiet : Quiet threads)
    (connected : threads.state = .connected) :
    ∃ supervisor ∈ threads.supervisors, supervisor.position = .reading := by
  have held := (truthful_invariant config started).run (act config) (spawned config) history threads
    staffed ran
  obtain ⟨supervisor, member, stands⟩ := held.stands connected
  refine ⟨supervisor, member, ?_⟩
  rcases quiet supervisor member with reading | waiting | exited
  · exact reading
  · rw [waiting] at stands
    cases stands
  · rw [exited] at stands
    cases stands

def Patient (threads : ReceiverThreads) : Prop :=
  ∀ supervisor ∈ threads.supervisors,
    reconnectMin ≤ supervisor.backoff ∧ supervisor.backoff ≤ reconnectMax

theorem Moved.patient (config : ReceiverConfig) (before after : ReceiverThreads) (index : Nat)
    (old new : Supervisor) (moved : Moved config before after index old new)
    (found : before.supervisors[index]? = some old) (patient : Patient before) : Patient after := by
  obtain ⟨low, high⟩ := patient old (List.mem_of_getElem? found)
  intro supervisor member
  rw [moved.supervisors] at member
  rcases List.mem_or_eq_of_mem_set member with stays | rfl
  · exact patient supervisor stays
  · rcases moved.backoff with same | least | doubled
    · exact ⟨same ▸ low, same ▸ high⟩
    · simp [least, reconnect_min_le]
    · simp only [doubled, reconnectMin, reconnectMax] at low ⊢
      omega

theorem backoff_bounded (config : ReceiverConfig) (history : List (Nat × Except OmtError Unit))
    (threads : ReceiverThreads)
    (ran : replay (act config) (spawned config) history = some threads) : Patient threads := by
  have invariant : Invariant (act config) (spawned config) (fun _ _ => True) Patient := by
    constructor
    · intro supervisor member
      obtain ⟨role, _, rfl⟩ := List.mem_map.mp member
      exact ⟨Nat.le_refl _, reconnect_min_le⟩
    · intro before after step patient _ taken
      unfold act at taken
      split at taken
      · cases taken
      · rename_i old found
        obtain ⟨new, moved⟩ := advance_moves config before after step.1 old step.2 taken
        exact moved.patient config before after step.1 old new found patient
  exact invariant.run (act config) (spawned config) history threads (throughout_true _ _ _) ran

def audioRemains : List (Nat × Except OmtError Unit) :=
  [(0, .ok ()), (0, .ok ()), (0, .ok ()), (0, .ok ()), (1, .ok ())].reverse

theorem session_state_truthful_audio :
    ∃ threads, replay (act ⟨⟨6⟩, true⟩) (spawned ⟨⟨6⟩, true⟩) audioRemains = some threads ∧
      Quiet threads ∧ threads.state = .connected ∧
      ∃ supervisor ∈ threads.supervisors, supervisor.position = .reading := by
  have ran : replay (act ⟨⟨6⟩, true⟩) (spawned ⟨⟨6⟩, true⟩) audioRemains =
      some ⟨.connected, some "video socket closed", 1,
        [⟨.video, .waiting, 250⟩, ⟨.audio, .reading, 250⟩]⟩ := by decide +kernel
  have quiet : Quiet ⟨.connected, some "video socket closed", 1,
      [⟨.video, .waiting, 250⟩, ⟨.audio, .reading, 250⟩]⟩ := by simp [Quiet]
  have staffed : Throughout (act ⟨⟨6⟩, true⟩) (spawned ⟨⟨6⟩, true⟩)
      (StaysStaffed ⟨⟨6⟩, true⟩) audioRemains := by
    simp [audioRemains, Throughout, StaysStaffed]
  exact ⟨_, ran, quiet, rfl, session_state_truthful _ (by decide) audioRemains _ staffed ran quiet rfl⟩

/-- Without reconnects the last supervisor ends and leaves the state `Connected` behind; and
where no known frame type is asked for, there is none from the start. -/
theorem connected_without_threads :
    (∃ history threads, replay (act ⟨.video, false⟩) (spawned ⟨.video, false⟩) history = some threads ∧
      threads.state = .connected ∧ threads.supervisors.map (·.position) = [.exited]) ∧
    (spawned ⟨⟨8⟩, true⟩).state = .connected ∧ (spawned ⟨⟨8⟩, true⟩).supervisors = [] := by
  refine ⟨⟨[(0, .ok ()), (0, .ok ()), (0, .ok ())], ⟨.connected, some "video socket closed", 0,
    [⟨.video, .exited, 250⟩]⟩, ?_, rfl, rfl⟩, rfl, ?_⟩
  · decide +kernel
  · decide +kernel

end ReceiverThreads

end OpenMediaTransport
