import OpenMediaTransport.ControlDocuments
import OpenMediaTransport.Runs

/-!
What a receiver asks of its sender. A call stores its setting and queues a document
in two steps; the I/O thread takes the whole queue out and writes it, and after a
disconnect reads the settings again. A flush that fails drops what it has not
written.

A history is a list of steps, the newest first. Beside the session it keeps the
documents that were accepted and those that flushes have written.
-/

namespace OpenMediaTransport

/-- A setting made at run time, by `set_preview` or `set_suggested_quality`. -/
inductive Command where
  | preview (on : Bool)
  | quality (quality : Quality)
  deriving DecidableEq

def Command.xml : Command → List Char
  | .preview on => previewXml on
  | .quality suggested => suggestedQualityXml suggested

def qualityFromI32 (raw : Int32) : Quality :=
  if raw = 1 then .low else if raw = 50 then .medium else if raw = 100 then .high else .default

@[simp] theorem qualityFromI32_code (quality : Quality) : qualityFromI32 quality.code = quality := by
  cases quality <;> decide

/-- The video socket: what was sent over it, and whether a write to it has failed. While
a reconnect is under way, the settings it has read so far. -/
inductive VideoSocket where
  | down
  | loading (quality : Quality) (preview : Option Bool)
  | up (sent : List (List Char)) (failed : Bool)
  deriving DecidableEq

structure ReceiverControl where
  preview : Bool
  quality : Int32
  /-- Calls that have stored their setting and are yet to queue the document. -/
  calls : List Command
  outboundMeta : List (List Char)
  /-- Documents that the running flush is yet to write. -/
  pending : List (List Char)
  socket : VideoSocket
  accepted : List (List Char)
  written : List (List Char)
  deriving DecidableEq

inductive ReceiverStep where
  | store (command : Command)
  | queue (index : Nat)
  | sendMetadata (xml : List Char)
  | takeQueue
  | writeOk
  | writeFails
  | disconnect
  | loadQuality
  | loadPreview
  | subscribed
  | subscribeFails
  deriving DecidableEq

/-- `send_subscriptions` for a session with video, without audio on this socket. -/
def subscriptions (quality : Quality) (preview : Bool) : List (List Char) :=
  [subscribeMetadata, previewXml preview, subscribeVideo, suggestedQualityXml quality]

namespace ReceiverControl

/-- A session after its first, synchronous connect. -/
def init (quality : Quality) (preview : Bool) : ReceiverControl where
  preview := preview
  quality := quality.code
  calls := []
  outboundMeta := []
  pending := []
  socket := .up (subscriptions quality preview) false
  accepted := []
  written := []

def suggestedQuality (session : ReceiverControl) : Quality := qualityFromI32 session.quality

def store (session : ReceiverControl) : Command → ReceiverControl
  | .preview on => { session with preview := on }
  | .quality quality => { session with quality := quality.code }

def sendMetadata (session : ReceiverControl) (xml : List Char) : ReceiverControl :=
  { session with
    outboundMeta := session.outboundMeta ++ [xml]
    accepted := session.accepted ++ [xml] }

def act (session : ReceiverControl) : ReceiverStep → Option ReceiverControl
  | .store command => some { session.store command with calls := session.calls ++ [command] }
  | .queue index =>
      match session.calls[index]? with
      | some command =>
          some { session.sendMetadata command.xml with calls := session.calls.eraseIdx index }
      | none => none
  | .sendMetadata xml => some (session.sendMetadata xml)
  | .takeQueue =>
      match session.socket, session.pending with
      | .up _ _, [] => some { session with pending := session.outboundMeta, outboundMeta := [] }
      | _, _ => none
  | .writeOk =>
      match session.socket, session.pending with
      | .up sent failed, xml :: rest =>
          some { session with
            pending := rest
            socket := .up (sent ++ [xml]) failed
            written := session.written ++ [xml] }
      | _, _ => none
  | .writeFails =>
      match session.socket, session.pending with
      -- The loop breaks, and with it goes the rest of what was taken.
      | .up sent _, _ :: _ => some { session with pending := [], socket := .up sent true }
      | _, _ => none
  | .disconnect =>
      match session.socket, session.pending with
      | .up _ _, [] => some { session with socket := .down }
      | _, _ => none
  | .loadQuality =>
      match session.socket with
      | .down => some { session with socket := .loading session.suggestedQuality none }
      | _ => none
  | .loadPreview =>
      match session.socket with
      | .loading quality none =>
          some { session with socket := .loading quality (some session.preview) }
      | _ => none
  | .subscribed =>
      match session.socket with
      | .loading quality (some preview) =>
          some { session with socket := .up (subscriptions quality preview) false }
      | _ => none
  | .subscribeFails =>
      match session.socket with
      | .loading _ _ => some { session with socket := .down }
      | _ => none

def replay (quality : Quality) (preview : Bool) : List ReceiverStep → Option ReceiverControl :=
  Runs.replay act (init quality preview)

inductive Acted (session : ReceiverControl) : ReceiverStep → ReceiverControl → Prop where
  | stored (command : Command) : Acted session (.store command)
      { session.store command with calls := session.calls ++ [command] }
  | queued (index : Nat) (command : Command) (call : session.calls[index]? = some command) :
      Acted session (.queue index)
        { session.sendMetadata command.xml with calls := session.calls.eraseIdx index }
  | sent (xml : List Char) : Acted session (.sendMetadata xml) (session.sendMetadata xml)
  | taken (sent : List (List Char)) (failed : Bool) (up : session.socket = .up sent failed)
      (idle : session.pending = []) : Acted session .takeQueue
        { session with pending := session.outboundMeta, outboundMeta := [] }
  | wrote (sent : List (List Char)) (failed : Bool) (xml : List Char) (rest : List (List Char))
      (up : session.socket = .up sent failed) (busy : session.pending = xml :: rest) :
      Acted session .writeOk
        { session with
          pending := rest
          socket := .up (sent ++ [xml]) failed
          written := session.written ++ [xml] }
  | broke (sent : List (List Char)) (failed : Bool) (xml : List Char) (rest : List (List Char))
      (up : session.socket = .up sent failed) (busy : session.pending = xml :: rest) :
      Acted session .writeFails { session with pending := [], socket := .up sent true }
  | closed (sent : List (List Char)) (failed : Bool) (up : session.socket = .up sent failed)
      (idle : session.pending = []) : Acted session .disconnect { session with socket := .down }
  | readQuality (down : session.socket = .down) : Acted session .loadQuality
      { session with socket := .loading session.suggestedQuality none }
  | readPreview (quality : Quality) (loading : session.socket = .loading quality none) :
      Acted session .loadPreview
        { session with socket := .loading quality (some session.preview) }
  | connected (quality : Quality) (preview : Bool)
      (loading : session.socket = .loading quality (some preview)) : Acted session .subscribed
        { session with socket := .up (subscriptions quality preview) false }
  | gaveUp (quality : Quality) (preview : Option Bool)
      (loading : session.socket = .loading quality preview) : Acted session .subscribeFails
        { session with socket := .down }

theorem act_acted (session after : ReceiverControl) (step : ReceiverStep)
    (taken : session.act step = some after) : session.Acted step after := by
  cases step with
  | store command => cases taken; exact .stored command
  | sendMetadata xml => cases taken; exact .sent xml
  | queue index =>
      simp only [act] at taken
      split at taken
      · rename_i command call
        cases taken
        exact .queued index command call
      · cases taken
  | takeQueue =>
      simp only [act] at taken
      split at taken
      · rename_i sent failed up idle
        cases taken
        exact .taken sent failed up idle
      · cases taken
  | writeOk =>
      simp only [act] at taken
      split at taken
      · rename_i sent failed xml rest up busy
        cases taken
        exact .wrote sent failed xml rest up busy
      · cases taken
  | writeFails =>
      simp only [act] at taken
      split at taken
      · rename_i sent failed xml rest up busy
        cases taken
        exact .broke sent failed xml rest up busy
      · cases taken
  | disconnect =>
      simp only [act] at taken
      split at taken
      · rename_i sent failed up idle
        cases taken
        exact .closed sent failed up idle
      · cases taken
  | loadQuality =>
      simp only [act] at taken
      split at taken
      · rename_i down
        cases taken
        exact .readQuality down
      · cases taken
  | loadPreview =>
      simp only [act] at taken
      split at taken
      · rename_i quality loading
        cases taken
        exact .readPreview quality loading
      · cases taken
  | subscribed =>
      simp only [act] at taken
      split at taken
      · rename_i quality preview loading
        cases taken
        exact .connected quality preview loading
      · cases taken
  | subscribeFails =>
      simp only [act] at taken
      split at taken
      · rename_i quality preview loading
        cases taken
        exact .gaveUp quality preview loading
      · cases taken

def Flushing (session : ReceiverControl) : Prop :=
  session.pending = [] ∨ ∃ sent failed, session.socket = .up sent failed

theorem acted_flushing (session after : ReceiverControl) (step : ReceiverStep)
    (acted : session.Acted step after) (before : session.Flushing) : after.Flushing := by
  cases acted with
  | stored command => cases command <;> exact before
  | queued index command call => exact before
  | sent xml => exact before
  | taken sent failed up idle => exact .inr ⟨sent, failed, up⟩
  | wrote sent failed xml rest up busy => exact .inr ⟨sent ++ [xml], failed, rfl⟩
  | broke sent failed xml rest up busy => exact .inl rfl
  | closed sent failed up idle => exact .inl idle
  | readQuality down =>
      refine .inl (before.resolve_right ?_)
      rintro ⟨sent, failed, up⟩
      cases down.symm.trans up
  | readPreview quality loading =>
      refine .inl (before.resolve_right ?_)
      rintro ⟨sent, failed, up⟩
      cases loading.symm.trans up
  | connected quality preview loading => exact .inr ⟨_, false, rfl⟩
  | gaveUp quality preview loading =>
      refine .inl (before.resolve_right ?_)
      rintro ⟨sent, failed, up⟩
      cases loading.symm.trans up

/-! No document is lost but by a failed write. -/

/-- The documents written, in the running flush, and still queued. -/
def held (session : ReceiverControl) : List (List Char) :=
  session.written ++ (session.pending ++ session.outboundMeta)

/-- What a step accepts it holds at the end of what was held; a failed write drops some
of that. -/
theorem acted_held (session after : ReceiverControl) (step : ReceiverStep)
    (acted : session.Acted step after) :
    (step ≠ .writeFails →
      ∃ more, after.accepted = session.accepted ++ more ∧ after.held = session.held ++ more) ∧
    (step = .writeFails →
      after.accepted = session.accepted ∧ after.held.length < session.held.length) := by
  cases acted with
  | stored command =>
      refine ⟨fun _ => ⟨[], ?_⟩, nofun⟩
      cases command <;> simp [store, held]
  | queued index command call =>
      exact ⟨fun _ => ⟨[command.xml], by simp [sendMetadata, held]⟩, nofun⟩
  | sent xml => exact ⟨fun _ => ⟨[xml], by simp [sendMetadata, held]⟩, nofun⟩
  | taken sent failed up idle => exact ⟨fun _ => ⟨[], by simp [held, idle]⟩, nofun⟩
  | wrote sent failed xml rest up busy => exact ⟨fun _ => ⟨[], by simp [held, busy]⟩, nofun⟩
  | broke sent failed xml rest up busy =>
      refine ⟨fun other => absurd rfl other, fun _ => ⟨rfl, ?_⟩⟩
      simp only [held, busy, List.length_append, List.length_cons, List.length_nil]
      omega
  | closed sent failed up idle => exact ⟨fun _ => ⟨[], by simp [held]⟩, nofun⟩
  | readQuality down => exact ⟨fun _ => ⟨[], by simp [held]⟩, nofun⟩
  | readPreview quality loading => exact ⟨fun _ => ⟨[], by simp [held]⟩, nofun⟩
  | connected quality preview loading => exact ⟨fun _ => ⟨[], by simp [held]⟩, nofun⟩
  | gaveUp quality preview loading => exact ⟨fun _ => ⟨[], by simp [held]⟩, nofun⟩

/-- Without a failed write all that was accepted is held, and with one something is
missing. -/
theorem replay_held (quality : Quality) (preview : Bool) (history : List ReceiverStep)
    (session : ReceiverControl) (run : replay quality preview history = some session) :
    (.writeFails ∉ history → session.accepted = session.held) ∧
      (.writeFails ∈ history → session.held.length < session.accepted.length) := by
  -- Along the run no more is held than was accepted.
  suffices all : session.held.length ≤ session.accepted.length ∧
      (.writeFails ∉ history → session.accepted = session.held) ∧
      (.writeFails ∈ history → session.held.length < session.accepted.length) from all.2
  induction history generalizing session with
  | nil =>
      cases run
      exact ⟨Nat.le_refl _, fun _ => rfl, fun member => absurd member List.not_mem_nil⟩
  | cons step past ih =>
      obtain ⟨earlier, ran, taken⟩ := (Runs.replay_cons act _ step past session).mp run
      obtain ⟨most, kept, missing⟩ := ih earlier ran
      obtain ⟨grows, breaks⟩ := acted_held earlier session step (act_acted earlier session step taken)
      by_cases fails : step = .writeFails
      · obtain ⟨same, shorter⟩ := breaks fails
        rw [same]
        refine ⟨by omega, fun clean => ?_, fun _ => by omega⟩
        exact absurd (fails ▸ List.mem_cons_self) clean
      · obtain ⟨more, accepted, held⟩ := grows fails
        rw [accepted, held, List.length_append, List.length_append]
        refine ⟨by omega, fun clean => ?_, fun member => ?_⟩
        · rw [kept fun member => clean (List.mem_cons_of_mem step member)]
        · have earlierFailure := (List.mem_cons.mp member).resolve_left (Ne.symm fails)
          have short := missing earlierFailure
          omega

/-- The accepted documents are, in order, those written, those being written and those
still queued, if and only if no write of a flush has failed. -/
theorem accepted_held_iff (quality : Quality) (preview : Bool) (history : List ReceiverStep)
    (session : ReceiverControl) (run : replay quality preview history = some session) :
    session.accepted = session.written ++ (session.pending ++ session.outboundMeta) ↔
      .writeFails ∉ history := by
  obtain ⟨kept, missing⟩ := replay_held quality preview history session run
  constructor
  · intro same member
    have short := missing member
    rw [same] at short
    exact Nat.lt_irrefl _ short
  · exact kept

def quietRun : List ReceiverStep :=
  [.sendMetadata tallyNone, .writeOk, .takeQueue, .sendMetadata tallyProgram]

def brokenRun : List ReceiverStep :=
  [.subscribed, .loadPreview, .loadQuality, .disconnect, .writeFails, .takeQueue,
    .sendMetadata tallyPreview, .sendMetadata tallyProgram]

theorem accepted_held_iff_quiet :
    ∃ session, replay .default false quietRun = some session ∧
      (session.accepted = session.written ++ (session.pending ++ session.outboundMeta) ↔
        .writeFails ∉ quietRun) :=
  ⟨_, rfl, accepted_held_iff .default false quietRun _ rfl⟩

/-- Both tallies are gone, the one that was behind the failed one too. -/
theorem tallies_lost :
    ∃ session, replay .default false brokenRun = some session ∧
      session.accepted = [tallyProgram, tallyPreview] ∧ session.written = [] ∧
      session.pending = [] ∧ session.outboundMeta = [] ∧
      session.socket = .up (subscriptions .default false) false :=
  ⟨_, rfl, rfl, rfl, rfl, rfl, rfl⟩

end ReceiverControl

end OpenMediaTransport
