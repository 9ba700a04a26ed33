import Mathlib.Logic.Function.Basic
import OpenMediaTransport.SessionSupervisors

/-!
How a receiver session ends: `disconnect`, or `drop`, of `receive.rs` against the two
supervisors and the decoder, in any order of their steps. A call that may wait, for the
network, a channel or a timer, is one step, and its answer is what it comes to. A turn of a
reader can wait for its stream for good, as long as nobody shuts the stream down. The few
subscriptions of a new stream are taken to fit its buffer.

`disconnect` consumes the session, so that `drop` goes through the same steps once more, with
nobody left to join or to look at the state. That second pass is left out.
-/

namespace OpenMediaTransport

/-- Where a supervisor is; `asking` and `turning` are the loop of its reader, and `left`
and `leaving` what is behind it. -/
inductive Stage where
  | top
  | reconnecting
  | sleeping
  | opening
  | connecting
  | subscribing
  | entering
  | installing
  | asking
  | turning
  | left
  | leaving
  | exited
  deriving DecidableEq

structure SupervisorThread where
  stage : Stage
  primed : Bool
  stream : Nat

inductive DecoderStage where
  | asking
  | receiving
  | decoding
  | exited
  deriving DecidableEq

/-- The thread that ends the session; `signalling` is before the flag, `closing` is at a slot
of `shutdown_io`. -/
inductive OwnerStage where
  | running
  | signalling
  | closing (role : SocketRole)
  | joining
  | done
  deriving DecidableEq

/-- A socket role that is not wanted has no thread, which is as good as one that has exited.
Streams have numbers, and `io` are the slots `video_io` and `audio_io`. -/
structure SessionThreads where
  state : SessionState
  stop : Bool
  io : SocketRole → Option Nat
  shut : List Nat
  streams : Nat
  supervisor : SocketRole → SupervisorThread
  decoder : DecoderStage
  owner : OwnerStage

/-- An answer says that a sleep is over, that the sender could be connected to, that it took the
subscriptions, that the stream could be cloned or that a turn goes on. To the decoder it is a
frame, none yet, or none any more. -/
inductive SessionStep where
  | supervise (role : SocketRole) (answer : Bool)
  | decode (answer : Option Bool)
  | endSession

namespace SessionThreads

def firstStream : SocketRole → Nat
  | .video => 0
  | .audio => 1

def begin (config : ReceiverConfig) : SessionThreads where
  state := .connected
  stop := false
  io := fun _ => none
  shut := []
  streams := 2
  supervisor := fun role =>
    { stage := if role ∈ wantedRoles config.frameTypes then .top else .exited
      primed := true, stream := firstStream role }
  decoder := .asking
  owner := .running

def place (session : SessionThreads) (role : SocketRole) (thread : SupervisorThread) :
    SessionThreads :=
  { session with supervisor := Function.update session.supervisor role thread }

def retryStage (config : ReceiverConfig) : Stage := if config.autoReconnect then .top else .exited

def supervise (config : ReceiverConfig) (session : SessionThreads) (role : SocketRole)
    (answer : Bool) : Option SessionThreads :=
  let thread := session.supervisor role
  let goTo (stage : Stage) := session.place role { thread with stage }
  match thread.stage with
  | .top =>
      if session.stop then some (goTo .exited)
      else if thread.primed then
        some (session.place role { thread with stage := .entering, primed := false })
      else some (goTo .reconnecting)
  | .reconnecting => some { goTo .sleeping with state := .reconnecting }
  | .sleeping =>
      if session.stop then some (goTo .exited)
      else some (goTo (if answer then .opening else .sleeping))
  | .opening => some { goTo .connecting with state := .connecting }
  | .connecting =>
      if answer then
        let connected := { thread with stage := .subscribing, stream := session.streams }
        some { session.place role connected with streams := session.streams + 1 }
      else some (goTo (retryStage config))
  | .subscribing => some (goTo (if answer then .entering else retryStage config))
  | .entering => some { goTo .installing with state := .connected }
  | .installing =>
      if answer then
        some { goTo .asking with io := Function.update session.io role (some thread.stream) }
      else some (goTo .asking)
  | .asking => some (goTo (if session.stop then .left else .turning))
  | .turning => some (goTo (if answer then .asking else .left))
  | .left => some { goTo .leaving with io := Function.update session.io role none }
  | .leaving => some (goTo (if session.stop then .exited else retryStage config))
  | .exited => none

def decode (session : SessionThreads) (answer : Option Bool) : Option SessionThreads :=
  match session.decoder with
  | .asking => some { session with decoder := if session.stop then .exited else .receiving }
  | .receiving =>
      match answer with
      | some true => some { session with decoder := .decoding }
      | some false => some { session with decoder := .asking }
      | none => some { session with decoder := .exited }
  | .decoding => some { session with decoder := .asking }
  | .exited => none

def Joined (session : SessionThreads) : Prop :=
  (session.supervisor .video).stage = .exited ∧ (session.supervisor .audio).stage = .exited ∧
    session.decoder = .exited

instance (session : SessionThreads) : Decidable session.Joined :=
  inferInstanceAs (Decidable (_ ∧ _ ∧ _))

def endSession (session : SessionThreads) : Option SessionThreads :=
  match session.owner with
  | .running => some { session with state := .stopping, owner := .signalling }
  | .signalling => some { session with stop := true, owner := .closing .video }
  | .closing role => some { session with
      io := Function.update session.io role none
      shut := (session.io role).toList ++ session.shut
      owner := if role = .video then .closing .audio else .joining }
  | .joining =>
      if session.Joined then some { session with state := .stopped, owner := .done } else none
  | .done => none

def act (config : ReceiverConfig) (session : SessionThreads) :
    SessionStep → Option SessionThreads
  | .supervise role answer => session.supervise config role answer
  | .decode answer => session.decode answer
  | .endSession => session.endSession

end SessionThreads

def Stage.rank : Stage → Nat
  | .exited => 0
  | .top | .sleeping | .leaving => 1
  | .reconnecting | .left => 2
  | .asking => 3
  | .turning | .installing => 4
  | .entering => 5
  | .subscribing => 6
  | .connecting => 7
  | .opening => 8

def Stage.holds : Stage → Bool
  | .asking | .turning | .left => true
  | _ => false

def DecoderStage.rank : DecoderStage → Nat
  | .exited => 0
  | .asking => 1
  | .decoding => 2
  | .receiving => 3

def OwnerStage.rank : OwnerStage → Nat
  | .done => 0
  | .joining => 1
  | .closing role => if role = .video then 3 else 2
  | .signalling => 4
  | .running => 5

def OwnerStage.signalled : OwnerStage → Bool
  | .running | .signalling => false
  | _ => true

def OwnerStage.hasClosed (role : SocketRole) : OwnerStage → Bool
  | .running | .signalling => false
  | .closing next => next ≠ .video && role = .video
  | .joining | .done => true

namespace SessionThreads

def rank (session : SessionThreads) : Nat :=
  (session.supervisor .video).stage.rank + (session.supervisor .audio).stage.rank +
    session.decoder.rank + session.owner.rank

def Installs (session : SessionThreads) : SessionStep → Prop
  | .supervise role answer => (session.supervisor role).stage = .installing → answer = true
  | _ => True

/-- What a step of a supervisor does; a stream is in its slot, is there as before or could not
be cloned. -/
structure Supervised (before after : SessionThreads) (role : SocketRole) (answer : Bool)
    (new : SupervisorThread) : Prop where
  supervisor : after.supervisor = Function.update before.supervisor role new
  stop : after.stop = before.stop
  shut : after.shut = before.shut
  decoder : after.decoder = before.decoder
  owner : after.owner = before.owner
  falls : before.stop = true → new.stage.rank < (before.supervisor role).stage.rank
  turns : new.stage = .turning → before.stop = false
  others : ∀ other, other ≠ role → after.io other = before.io other
  held : new.stage.holds = true → after.io role = some new.stream ∨
    (new.stream = (before.supervisor role).stream ∧ after.io role = before.io role ∧
      (before.supervisor role).stage.holds = true) ∨
    (answer = false ∧ (before.supervisor role).stage = .installing)

theorem retryStage_rank (config : ReceiverConfig) :
    (retryStage config).rank ≤ 1 ∧ retryStage config ≠ .turning ∧
      (retryStage config).holds = false := by
  unfold retryStage
  cases config.autoReconnect with
  | true => decide
  | false => decide

theorem Supervised.plain {before after : SessionThreads} {role : SocketRole} {answer : Bool}
    (new : SupervisorThread) (after_eq : after = { before.place role new with
      state := after.state, streams := after.streams })
    (falls : before.stop = true → new.stage.rank < (before.supervisor role).stage.rank)
    (turns : new.stage ≠ .turning) (free : new.stage.holds = false) :
    Supervised before after role answer new := by
  rw [after_eq]
  exact ⟨rfl, rfl, rfl, rfl, rfl, falls, fun same => absurd same turns, fun _ _ => rfl,
    fun holds => absurd (free.symm.trans holds) Bool.false_ne_true⟩

theorem supervise_supervised (config : ReceiverConfig) (before after : SessionThreads)
    (role : SocketRole) (answer : Bool)
    (taken : before.supervise config role answer = some after) :
    ∃ new, Supervised before after role answer new := by
  obtain ⟨low, apart, free⟩ := retryStage_rank config
  have least (many : 1 < (before.supervisor role).stage.rank) :
      (retryStage config).rank < (before.supervisor role).stage.rank := Nat.lt_of_le_of_lt low many
  unfold supervise at taken
  cases stage : (before.supervisor role).stage with
  | top =>
      simp only [stage] at taken
      split at taken
      · cases taken
        exact ⟨_, .plain _ rfl (by simp [stage, Stage.rank]) (by simp) rfl⟩
      rename_i runs
      split at taken
      · cases taken
        exact ⟨_, .plain _ rfl (fun stop => absurd stop runs) (by simp) rfl⟩
      · cases taken
        exact ⟨_, .plain _ rfl (fun stop => absurd stop runs) (by simp) rfl⟩
  | reconnecting =>
      simp only [stage] at taken
      cases taken
      exact ⟨_, .plain _ rfl (by simp [stage, Stage.rank]) (by simp) rfl⟩
  | sleeping =>
      simp only [stage] at taken
      split at taken
      · cases taken
        exact ⟨_, .plain _ rfl (by simp [stage, Stage.rank]) (by simp) rfl⟩
      · rename_i runs
        cases taken
        refine ⟨_, .plain _ rfl (fun stop => absurd stop runs) ?_ ?_⟩
        · cases answer <;> simp
        · cases answer <;> rfl
  | opening =>
      simp only [stage] at taken
      cases taken
      exact ⟨_, .plain _ rfl (by simp [stage, Stage.rank]) (by simp) rfl⟩
  | connecting =>
      simp only [stage] at taken
      split at taken
      · cases taken
        exact ⟨_, .plain _ rfl (by simp [stage, Stage.rank]) (by simp) rfl⟩
      · cases taken
        exact ⟨_, .plain _ rfl (fun _ => least (by rw [stage]; decide)) apart free⟩
  | subscribing =>
      simp only [stage] at taken
      cases taken
      cases answer with
      | true => exact ⟨_, .plain _ rfl (by simp [stage, Stage.rank]) (by simp) rfl⟩
      | false =>
          exact ⟨_, .plain _ rfl (fun _ => least (by rw [stage]; decide)) apart free⟩
  | entering =>
      simp only [stage] at taken
      cases taken
      exact ⟨_, .plain _ rfl (by simp [stage, Stage.rank]) (by simp) rfl⟩
  | installing =>
      simp only [stage] at taken
      split at taken
      · cases taken
        exact ⟨_, rfl, rfl, rfl, rfl, rfl, by simp [stage, Stage.rank], by simp,
          fun other apart => Function.update_of_ne apart _ _,
          fun _ => .inl (Function.update_self ..)⟩
      · rename_i failed
        cases taken
        exact ⟨_, rfl, rfl, rfl, rfl, rfl, by simp [stage, Stage.rank], by simp, fun _ _ => rfl,
          fun _ => .inr (.inr ⟨eq_false_of_ne_true failed, stage⟩)⟩
  | asking =>
      simp only [stage] at taken
      cases taken
      refine ⟨_, rfl, rfl, rfl, rfl, rfl, ?_, ?_, fun _ _ => rfl,
        fun _ => .inr (.inl ⟨rfl, rfl, by rw [stage]; rfl⟩)⟩
      · intro stop
        simp [stop, stage, Stage.rank]
      · cases before.stop with
        | true => simp
        | false => exact fun _ => rfl
  | turning =>
      simp only [stage] at taken
      cases taken
      refine ⟨_, rfl, rfl, rfl, rfl, rfl, ?_, ?_, fun _ _ => rfl,
        fun _ => .inr (.inl ⟨rfl, rfl, by rw [stage]; rfl⟩)⟩
      · cases answer <;> simp [stage, Stage.rank]
      · cases answer <;> simp
  | left =>
      simp only [stage] at taken
      cases taken
      exact ⟨_, rfl, rfl, rfl, rfl, rfl, by simp [stage, Stage.rank], by simp,
        fun other apart => Function.update_of_ne apart _ _, by simp [Stage.holds]⟩
  | leaving =>
      simp only [stage] at taken
      split at taken
      · cases taken
        exact ⟨_, .plain _ rfl (by simp [stage, Stage.rank]) (by simp) rfl⟩
      · rename_i runs
        cases taken
        exact ⟨_, .plain _ rfl (fun stop => absurd stop runs) apart free⟩
  | exited =>
      simp only [stage] at taken
      cases taken

theorem stage_placed {before after : SessionThreads} {role : SocketRole} {answer : Bool}
    {new : SupervisorThread} (moved : Supervised before after role answer new) (other : SocketRole) :
    (other = role ∧ after.supervisor other = new) ∨
      (other ≠ role ∧ after.supervisor other = before.supervisor other) := by
  by_cases same : other = role
  · subst same
    exact .inl ⟨rfl, by rw [moved.supervisor, Function.update_self]⟩
  · exact .inr ⟨same, by rw [moved.supervisor, Function.update_of_ne same]⟩

/-! What the flag comes to. -/

theorem act_falls (config : ReceiverConfig) (before after : SessionThreads) (step : SessionStep)
    (stop : before.stop = true) (taken : before.act config step = some after) :
    after.stop = true ∧ after.rank < before.rank := by
  cases step with
  | supervise role answer =>
      obtain ⟨new, moved⟩ := supervise_supervised config before after role answer taken
      refine ⟨moved.stop.trans stop, ?_⟩
      have falls := moved.falls stop
      unfold rank
      rw [moved.supervisor, moved.decoder, moved.owner]
      cases role with
      | video =>
          rw [Function.update_self, Function.update_of_ne (by decide)]
          omega
      | audio =>
          rw [Function.update_self, Function.update_of_ne (by decide)]
          omega
  | decode answer =>
      simp only [act, decode] at taken
      cases stage : before.decoder with
      | asking =>
          simp only [stage, stop, if_true] at taken
          cases taken
          exact ⟨rfl, by simp [rank, stage, DecoderStage.rank]⟩
      | receiving =>
          simp only [stage] at taken
          split at taken <;> cases taken <;>
            exact ⟨stop, by simp [rank, stage, DecoderStage.rank]⟩
      | decoding =>
          simp only [stage] at taken
          cases taken
          exact ⟨stop, by simp [rank, stage, DecoderStage.rank]⟩
      | exited =>
          simp only [stage] at taken
          cases taken
  | endSession =>
      simp only [act, endSession] at taken
      cases stage : before.owner with
      | running =>
          simp only [stage] at taken
          cases taken
          exact ⟨stop, by simp [rank, stage, OwnerStage.rank]⟩
      | signalling =>
          simp only [stage] at taken
          cases taken
          exact ⟨rfl, by simp [rank, stage, OwnerStage.rank]⟩
      | closing role =>
          simp only [stage] at taken
          cases taken
          refine ⟨stop, ?_⟩
          cases role <;> simp [rank, stage, OwnerStage.rank]
      | joining =>
          simp only [stage] at taken
          split at taken
          · cases taken
            exact ⟨stop, by simp [rank, stage, OwnerStage.rank]⟩
          · cases taken
      | done =>
          simp only [stage] at taken
          cases taken

theorem supervise_steps (config : ReceiverConfig) (session : SessionThreads) (role : SocketRole)
    (answer : Bool) (runs : (session.supervisor role).stage ≠ .exited) :
    ∃ after, session.act config (.supervise role answer) = some after := by
  simp only [act, supervise]
  cases stage : (session.supervisor role).stage with
  | exited => exact absurd stage runs
  | top =>
      cases session.stop with
      | true => exact ⟨_, rfl⟩
      | false =>
          cases (session.supervisor role).primed with
          | true => exact ⟨_, rfl⟩
          | false => exact ⟨_, rfl⟩
  | sleeping => cases session.stop <;> exact ⟨_, rfl⟩
  | connecting => cases answer <;> exact ⟨_, rfl⟩
  | installing => cases answer <;> exact ⟨_, rfl⟩
  | leaving => cases session.stop <;> exact ⟨_, rfl⟩
  | _ => exact ⟨_, rfl⟩

theorem decode_steps (config : ReceiverConfig) (session : SessionThreads) (answer : Option Bool)
    (runs : session.decoder ≠ .exited) :
    ∃ after, session.act config (.decode answer) = some after := by
  simp only [act, decode]
  cases stage : session.decoder with
  | exited => exact absurd stage runs
  | receiving =>
      rcases answer with _ | _ | _
      · exact ⟨_, rfl⟩
      · exact ⟨_, rfl⟩
      · exact ⟨_, rfl⟩
  | _ => exact ⟨_, rfl⟩

/-- Until the session has ended someone can go on. -/
theorem someone_steps (config : ReceiverConfig) (session : SessionThreads)
    (open_ : session.owner ≠ .done) : ∃ step after, session.act config step = some after := by
  by_cases video : (session.supervisor .video).stage = .exited
  · by_cases audio : (session.supervisor .audio).stage = .exited
    · by_cases decoder : session.decoder = .exited
      · refine ⟨.endSession, ?_⟩
        simp only [act, endSession]
        cases stage : session.owner with
        | joining => exact ⟨_, if_pos ⟨video, audio, decoder⟩⟩
        | done => exact absurd stage open_
        | _ => exact ⟨_, rfl⟩
      · exact ⟨.decode none, decode_steps config session none decoder⟩
    · exact ⟨.supervise .audio true, supervise_steps config session .audio true audio⟩
  · exact ⟨.supervise .video true, supervise_steps config session .video true video⟩

/-! What holds on the way. -/

structure Ended (session : SessionThreads) : Prop where
  stopped : session.owner.signalled = true → session.stop = true
  joined : session.owner = .done → session.Joined
  state : session.owner = .done → session.state = .stopped

theorem Ended.early {session : SessionThreads} (waiting : session.owner ≠ .done)
    (stopped : session.owner.signalled = true → session.stop = true) : Ended session :=
  ⟨stopped, fun finished => absurd finished waiting, fun finished => absurd finished waiting⟩

theorem joined_still (config : ReceiverConfig) (session : SessionThreads) (joined : session.Joined)
    (owner : session.owner = .done) (step : SessionStep) : session.act config step = none := by
  obtain ⟨video, audio, decoder⟩ := joined
  cases step with
  | supervise role answer =>
      cases role with
      | video => simp only [act, supervise, video]
      | audio => simp only [act, supervise, audio]
  | decode answer => simp only [act, decode, decoder]
  | endSession => simp only [act, endSession, owner]

theorem decode_keeps (before after : SessionThreads) (answer : Option Bool)
    (taken : before.decode answer = some after) :
    ∃ decoder, after = { before with decoder } := by
  unfold decode at taken
  split at taken
  · cases taken
    exact ⟨_, rfl⟩
  · split at taken <;> cases taken <;> exact ⟨_, rfl⟩
  · cases taken
    exact ⟨_, rfl⟩
  · cases taken

theorem ended_invariant (config : ReceiverConfig) :
    Runs.Invariant (act config) (begin config) (fun _ _ => True) Ended where
  start := .early OwnerStage.noConfusion fun up => absurd up Bool.false_ne_true
  step before after step ended _ taken := by
    by_cases done : before.owner = .done
    · rw [joined_still config before (ended.joined done) done step] at taken
      cases taken
    cases step with
    | supervise role answer =>
        obtain ⟨new, moved⟩ := supervise_supervised config before after role answer taken
        refine .early (fun finished => done (moved.owner.symm.trans finished)) fun up => ?_
        rw [moved.owner] at up
        exact moved.stop.trans (ended.stopped up)
    | decode answer =>
        obtain ⟨decoder, rfl⟩ := decode_keeps before after answer taken
        exact .early done ended.stopped
    | endSession =>
        simp only [act, endSession] at taken
        cases stage : before.owner with
        | running =>
            simp only [stage] at taken
            cases taken
            exact .early OwnerStage.noConfusion fun up => absurd up Bool.false_ne_true
        | signalling =>
            simp only [stage] at taken
            cases taken
            exact .early OwnerStage.noConfusion fun _ => rfl
        | closing role =>
            simp only [stage] at taken
            cases taken
            refine .early ?_ fun _ => ended.stopped (by rw [stage]; rfl)
            cases role with
            | video => exact OwnerStage.noConfusion
            | audio => exact OwnerStage.noConfusion
        | joining =>
            simp only [stage] at taken
            split at taken
            · rename_i joined
              cases taken
              exact ⟨fun _ => ended.stopped (by rw [stage]; rfl), fun _ => joined, fun _ => rfl⟩
            · cases taken
        | done => exact absurd stage done

/-- Where a reader is in its loop, its stream is in the slot, or was and has been shut down;
and it has been if the slot is closed and the reader is in a turn. -/
structure Shuts (session : SessionThreads) : Prop where
  ended : Ended session
  held : ∀ role, (session.supervisor role).stage.holds = true →
    session.io role = some (session.supervisor role).stream ∨
      (session.supervisor role).stream ∈ session.shut
  freed : ∀ role, session.owner.hasClosed role = true →
    (session.supervisor role).stage = .turning → (session.supervisor role).stream ∈ session.shut

theorem hasClosed_signalled (role : SocketRole) (owner : OwnerStage)
    (closed : owner.hasClosed role = true) : owner.signalled = true := by
  cases owner with
  | running => cases closed
  | signalling => cases closed
  | _ => rfl

theorem close_shuts (before : SessionThreads) (role : SocketRole) (shuts : Shuts before)
    (stage : before.owner = .closing role) (ended : Ended { before with
      io := Function.update before.io role none
      shut := (before.io role).toList ++ before.shut
      owner := if role = .video then .closing .audio else .joining }) :
    Shuts { before with
      io := Function.update before.io role none
      shut := (before.io role).toList ++ before.shut
      owner := if role = .video then .closing .audio else .joining } where
  ended := ended
  held := by
    intro other holds
    rcases shuts.held other holds with here | gone
    · by_cases same : other = role
      · subst same
        refine .inr (List.mem_append_left _ ?_)
        rw [here]
        exact List.mem_singleton.mpr rfl
      · exact .inl ((Function.update_of_ne same _ _).trans here)
    · exact .inr (List.mem_append_right _ gone)
  freed := by
    intro other closed turning
    by_cases same : other = role
    · subst same
      rcases shuts.held other (by rw [turning]; rfl) with here | gone
      · refine List.mem_append_left _ ?_
        rw [here]
        exact List.mem_singleton.mpr rfl
      · exact List.mem_append_right _ gone
    · -- The other slot has been closed before this one.
      refine List.mem_append_right _ (shuts.freed other ?_ turning)
      rw [stage]
      cases role with
      | video =>
          cases other with
          | video => exact absurd rfl same
          | audio => cases closed
      | audio =>
          cases other with
          | video => rfl
          | audio => exact absurd rfl same

theorem supervise_shuts (config : ReceiverConfig) (before after : SessionThreads)
    (role : SocketRole) (answer : Bool) (shuts : Shuts before) (ended : Ended after)
    (installs : (before.supervisor role).stage = .installing → answer = true)
    (taken : before.supervise config role answer = some after) : Shuts after := by
  obtain ⟨new, moved⟩ := supervise_supervised config before after role answer taken
  refine ⟨ended, fun other holds => ?_, fun other closed turning => ?_⟩
  · rw [moved.shut]
    rcases stage_placed moved other with ⟨rfl, same⟩ | ⟨apart, same⟩
    · rw [same] at holds ⊢
      rcases moved.held holds with here | ⟨stream, io, held⟩ | ⟨failed, stage⟩
      · exact .inl here
      · rw [stream, io]
        exact shuts.held other held
      · rw [installs stage] at failed
        cases failed
    · rw [same] at holds ⊢
      rw [moved.others other apart]
      exact shuts.held other holds
  · rw [moved.shut]
    rw [moved.owner] at closed
    rcases stage_placed moved other with ⟨rfl, same⟩ | ⟨apart, same⟩
    · -- No turn begins when the flag is up.
      rw [same] at turning
      have stop := shuts.ended.stopped (hasClosed_signalled other _ closed)
      exact absurd ((moved.turns turning).symm.trans stop) Bool.false_ne_true
    · rw [same] at turning ⊢
      exact shuts.freed other closed turning

theorem shuts_invariant (config : ReceiverConfig) :
    Runs.Invariant (act config) (begin config) Installs Shuts where
  start := by
    refine ⟨(ended_invariant config).start, fun role holds => ?_, fun role closed => ?_⟩
    · have free : ((begin config).supervisor role).stage.holds = false := by
        unfold begin
        dsimp only
        split <;> rfl
      exact absurd (free.symm.trans holds) Bool.false_ne_true
    · cases closed
  step before after step shuts installs taken := by
    have ended := (ended_invariant config).step before after step shuts.ended trivial taken
    cases step with
    | supervise role answer =>
        exact supervise_shuts config before after role answer shuts ended installs taken
    | decode answer =>
        obtain ⟨decoder, rfl⟩ := decode_keeps before after answer taken
        exact ⟨ended, shuts.held, shuts.freed⟩
    | endSession =>
        simp only [act, endSession] at taken
        cases stage : before.owner with
        | running =>
            simp only [stage] at taken
            cases taken
            exact ⟨ended, shuts.held, fun role closed => absurd closed Bool.false_ne_true⟩
        | signalling =>
            simp only [stage] at taken
            cases taken
            refine ⟨ended, shuts.held, fun role closed => ?_⟩
            cases role <;> cases closed
        | closing role =>
            simp only [stage] at taken
            cases taken
            exact close_shuts before role shuts stage ended
        | joining =>
            simp only [stage] at taken
            split at taken
            · cases taken
              exact ⟨ended, shuts.held, fun role _ => shuts.freed role (by rw [stage]; rfl)⟩
            · cases taken
        | done =>
            simp only [stage] at taken
            cases taken

theorem rank_bounded (session : SessionThreads) : session.rank ≤ 24 := by
  have supervisor (stage : Stage) : stage.rank ≤ 8 := by cases stage <;> decide
  have decoder : session.decoder.rank ≤ 3 := by cases session.decoder <;> decide
  have owner : session.owner.rank ≤ 5 := by
    cases session.owner with
    | closing role => cases role <;> decide
    | _ => decide
  have video := supervisor (session.supervisor .video).stage
  have audio := supervisor (session.supervisor .audio).stage
  unfold rank
  omega

/-- A session that is being ended comes to its end. Once the flag is up, at most 24 steps are
left in any order, and until the owner has everyone joined there is always one to take. Then
the state is `Stopped` for good. A reader that waits for its stream, if it has been put into
the slot, does not wait for it any longer than until the slot is closed. -/
theorem session_ends (config : ReceiverConfig) (history : List SessionStep)
    (session : SessionThreads)
    (ran : Runs.replay (act config) (begin config) history = some session) :
    (session.owner = .done → session.Joined ∧ session.state = .stopped ∧
      ∀ step, session.act config step = none) ∧
    (session.owner ≠ .done → ∃ step after, session.act config step = some after) ∧
    (session.stop = true → ∀ later after, Runs.replay (act config) session later = some after →
      later.length ≤ 24) ∧
    (Runs.Throughout (act config) (begin config) Installs history →
      ∀ role, session.owner.hasClosed role = true →
        (session.supervisor role).stage = .turning →
          (session.supervisor role).stream ∈ session.shut) := by
  have ended := (ended_invariant config).run _ _ history session
    (Runs.throughout_true _ _ history) ran
  refine ⟨fun done => ?_, someone_steps config session, fun stop later after went => ?_,
    fun installs => ?_⟩
  · exact ⟨ended.joined done, ended.state done,
      joined_still config session (ended.joined done) done⟩
  · have bounded := (Runs.length_le_measure (act config) session rank (fun other => other.stop = true)
      (act_falls config) later after stop went).2
    have most := rank_bounded session
    omega
  · exact ((shuts_invariant config).run _ _ history session installs ran).freed

def endedInTurn : List SessionStep :=
  [.endSession, .endSession, .endSession, .endSession, .supervise .video true,
    .supervise .video true, .supervise .video true, .supervise .video true]

theorem session_ends_in_turn :
    ∃ session, Runs.replay (act ⟨.video, true⟩) (begin ⟨.video, true⟩) endedInTurn = some session ∧
      session.owner = .joining ∧ (session.supervisor .video).stage = .turning ∧
      (session.supervisor .video).stream ∈ session.shut := by
  have ran : Runs.replay (act ⟨.video, true⟩) (begin ⟨.video, true⟩) endedInTurn = some _ := rfl
  refine ⟨_, ran, rfl, rfl, (session_ends ⟨.video, true⟩ endedInTurn _ ran).2.2.2 ?_ .video rfl rfl⟩
  refine Runs.throughout_each _ _ _ _ fun step member session => ?_
  simp only [endedInTurn, List.mem_cons, List.not_mem_nil, or_false] at member
  rcases member with rfl | rfl | rfl | rfl | rfl | rfl | rfl | rfl
  all_goals first | trivial | exact fun _ => rfl

end SessionThreads

end OpenMediaTransport
