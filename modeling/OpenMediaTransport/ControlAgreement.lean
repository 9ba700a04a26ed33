import OpenMediaTransport.ReceiverControl

/-!
Whether sender and receiver agree on the receiver's settings. Once every call has
returned and the queue is flushed, what counts at the sender is the command queued
last, and at the receiver the value stored last; a reconnect in between makes no
difference. Preview and quality go the same way, so that a step is looked at once for
both. The session holds the receiving ends of two channels and so cannot be shared
between threads: its calls are made one after the other, and only the I/O thread's steps
come in between.
-/

namespace OpenMediaTransport

open Framing Markup

/-! The latest setting in a sequence. -/

theorem latest_append {α : Type} (setting : Metadata → Option α) (default : α)
    (front back : List Metadata) :
    latest setting default (front ++ back) = latest setting (latest setting default front) back := by
  unfold latest
  rw [List.filterMap_append, List.getLast?_append]
  cases (back.filterMap setting).getLast? <;> rfl

theorem latest_silent {α : Type} (setting : Metadata → Option α) (default : α)
    (items : List Metadata) (silent : items.filterMap setting = []) :
    latest setting default items = default := by
  rw [latest, silent]
  rfl

theorem latest_again {α : Type} (setting : Metadata → Option α) (start value : α)
    (items : List Metadata) (reached : latest setting start items = value) :
    latest setting value items = value := by
  unfold latest at reached ⊢
  cases last : (items.filterMap setting).getLast? with
  | none => rfl
  | some found =>
      rw [last] at reached
      exact reached

def parsedTexts (documentParse : List Char → Except String XmlNode) (texts : List (List Char)) :
    List Metadata :=
  texts.flatMap (parseMetadata documentParse)

/-- One of the settings a call can make: what a command and a document carry of it, what
the session says, and what a reconnect has read. -/
structure ControlKind (α : Type) where
  initial : α
  carried : Command → Option α
  setting : Metadata → Option α
  current : Bool → Int32 → α
  loaded : Quality → Option Bool → Option α

def carriedPreview : Command → Option Bool
  | .preview on => some on
  | .quality _ => none

def carriedQuality : Command → Option Quality
  | .preview _ => none
  | .quality suggested => some suggested

def previewKind : ControlKind Bool where
  initial := false
  carried := carriedPreview
  setting := previewSetting
  current := fun preview _ => preview
  loaded := fun _ preview => preview

def qualityKind : ControlKind Quality where
  initial := .default
  carried := carriedQuality
  setting := qualitySetting
  current := fun _ quality => qualityFromI32 quality
  loaded := fun quality _ => some quality

namespace ControlKind

variable {α : Type} (kind : ControlKind α)
variable (documentParse : List Char → Except String XmlNode)

def now (session : ReceiverControl) : α := kind.current session.preview session.quality

structure Lawful : Prop where
  told : ∀ command, (parseMetadata documentParse (Command.xml command)).filterMap kind.setting =
    (kind.carried command).toList
  kept : ∀ (session : ReceiverControl) (command : Command), kind.carried command = none →
    kind.now (session.store command) = kind.now session
  reads_quality : ∀ session : ReceiverControl,
    (kind.loaded session.suggestedQuality none).getD (kind.now session) = kind.now session
  reads_preview : ∀ (session : ReceiverControl) (quality : Quality),
    (kind.loaded quality none).getD (kind.now session) =
      (kind.loaded quality (some session.preview)).getD (kind.now session)
  subscribes : ∀ (quality : Quality) (preview : Bool) (other : α),
    latest kind.setting kind.initial (parsedTexts documentParse (subscriptions quality preview)) =
      (kind.loaded quality (some preview)).getD other

/-- The value that the queued documents will be applied to, over the connection there
is or the next one. -/
def start (socket : VideoSocket) (pending : List (List Char)) (now : α) : α :=
  match socket with
  | .up sent false => latest kind.setting kind.initial (parsedTexts documentParse (sent ++ pending))
  | .up _ true => now
  | .loading quality preview => (kind.loaded quality preview).getD now
  | .down => now

def base (session : ReceiverControl) : α :=
  kind.start documentParse session.socket session.pending (kind.now session)

/-- With no call under way, the queued documents lead to the value of the session. -/
def Steady (session : ReceiverControl) : Prop :=
  session.calls.filterMap kind.carried = [] →
    latest kind.setting (kind.base documentParse session)
      (parsedTexts documentParse session.outboundMeta) = kind.now session

/-- The last call under way queues the value that the session still has. -/
def InOrder (session : ReceiverControl) : ReceiverStep → Prop
  | .queue index => ∀ command value, session.calls[index]? = some command →
      kind.carried command = some value →
        (session.calls.eraseIdx index).filterMap kind.carried = [] → kind.now session = value
  | .sendMetadata _ => False
  | _ => True

variable {documentParse} {kind}

theorem filterMap_eraseIdx (calls : List Command) (index : Nat) (command : Command)
    (call : calls[index]? = some command) (silent : kind.carried command = none) :
    (calls.eraseIdx index).filterMap kind.carried = calls.filterMap kind.carried := by
  obtain ⟨bound, same⟩ := List.getElem?_eq_some_iff.mp call
  conv_rhs => rw [← List.take_append_drop index calls, List.drop_eq_getElem_cons bound, same]
  rw [List.eraseIdx_eq_take_drop_succ, List.filterMap_append, List.filterMap_append,
    List.filterMap_cons_none silent]

/-- A step that leaves calls, queue and settings alone keeps the agreement, if the queue
is then applied to the same value or to the session's. -/
theorem Steady.rebase (session after : ReceiverControl) (steady : kind.Steady documentParse session)
    (calls : after.calls = session.calls) (queued : after.outboundMeta = session.outboundMeta)
    (current : kind.now after = kind.now session)
    (fresh : kind.base documentParse after = kind.now session ∨
      kind.base documentParse after = kind.base documentParse session) :
    kind.Steady documentParse after := by
  intro idle
  rw [calls] at idle
  have reached := steady idle
  rw [queued, current]
  rcases fresh with own | same
  · rw [own]
    exact latest_again kind.setting _ _ _ reached
  · rw [same]
    exact reached

theorem queue_steady (lawful : kind.Lawful documentParse) (session : ReceiverControl)
    (index : Nat) (command : Command) (call : session.calls[index]? = some command)
    (ordered : kind.InOrder session (.queue index)) (steady : kind.Steady documentParse session) :
    kind.Steady documentParse { session.sendMetadata command.xml with
      calls := session.calls.eraseIdx index } := by
  intro left
  have told := lawful.told command
  have split : parsedTexts documentParse (session.outboundMeta ++ [command.xml]) =
      parsedTexts documentParse session.outboundMeta ++ parseMetadata documentParse command.xml := by
    simp [parsedTexts]
  change latest kind.setting (kind.base documentParse session)
    (parsedTexts documentParse (session.outboundMeta ++ [command.xml])) = kind.now session
  rw [split, latest_append]
  cases carries : kind.carried command with
  | none =>
      rw [carries] at told
      rw [latest_silent _ _ _ told]
      exact steady ((filterMap_eraseIdx session.calls index command call carries).symm.trans left)
  | some value =>
      rw [carries] at told
      rw [ordered command value call carries left, latest, told]
      rfl

theorem store_steady (lawful : kind.Lawful documentParse) (session : ReceiverControl)
    (command : Command) (steady : kind.Steady documentParse session) :
    kind.Steady documentParse
      { session.store command with calls := session.calls ++ [command] } := by
  intro idle
  have silent := List.filterMap_eq_nil_iff.mp idle
  have carries := silent command (List.mem_append_right _ List.mem_cons_self)
  have same := lawful.kept session command carries
  have before : session.calls.filterMap kind.carried = [] :=
    List.filterMap_eq_nil_iff.mpr fun other member =>
      silent other (List.mem_append_left _ member)
  have reached := steady before
  change latest kind.setting (kind.start documentParse (session.store command).socket
    (session.store command).pending (kind.now (session.store command)))
    (parsedTexts documentParse (session.store command).outboundMeta) =
      kind.now (session.store command)
  rw [same]
  cases command <;> exact reached

theorem take_steady (session : ReceiverControl) (sent : List (List Char)) (failed : Bool)
    (up : session.socket = .up sent failed) (idle : session.pending = [])
    (steady : kind.Steady documentParse session) :
    kind.Steady documentParse
      { session with pending := session.outboundMeta, outboundMeta := [] } := by
  intro calls
  have reached := steady calls
  change latest kind.setting (kind.start documentParse session.socket session.outboundMeta
    (kind.now session)) [] = kind.now session
  rw [up]
  cases failed with
  | true => rfl
  | false =>
      have moved : latest kind.setting kind.initial
          (parsedTexts documentParse (sent ++ session.outboundMeta)) = kind.now session := by
        rw [base, up, idle, start, List.append_nil, ← latest_append] at reached
        rw [parsedTexts, List.flatMap_append]
        exact reached
      exact moved

theorem acted_steady (lawful : kind.Lawful documentParse) (session after : ReceiverControl)
    (step : ReceiverStep) (acted : session.Acted step after) (ordered : kind.InOrder session step)
    (flushing : session.Flushing) (steady : kind.Steady documentParse session) :
    kind.Steady documentParse after := by
  cases acted with
  | stored command =>
      exact store_steady lawful session command steady
  | queued index command call =>
      exact queue_steady lawful session index command call ordered steady
  | sent xml => exact ordered.elim
  | taken sent failed up idle =>
      exact take_steady session sent failed up idle steady
  | wrote sent failed xml rest up busy =>
      refine steady.rebase session _ rfl rfl rfl (.inr ?_)
      unfold base start
      rw [up, busy]
      cases failed with
      | true => rfl
      | false =>
          change latest _ _ (parsedTexts _ (sent ++ [xml] ++ rest)) =
            latest _ _ (parsedTexts _ (sent ++ xml :: rest))
          rw [List.append_assoc, List.singleton_append]
  | broke sent failed xml rest up busy =>
      exact steady.rebase session _ rfl rfl rfl (.inl rfl)
  | closed sent failed up idle =>
      exact steady.rebase session _ rfl rfl rfl (.inl rfl)
  | readQuality down =>
      exact steady.rebase session _ rfl rfl rfl (.inl (lawful.reads_quality session))
  | readPreview quality loading =>
      refine steady.rebase session _ rfl rfl rfl (.inr ?_)
      unfold base start
      rw [loading]
      exact (lawful.reads_preview session quality).symm
  | connected quality preview loading =>
      have idle : session.pending = [] := by
        refine flushing.resolve_right ?_
        rintro ⟨sent, failed, up⟩
        cases loading.symm.trans up
      -- The new connection starts with the settings just loaded, whatever the old one had.
      have fresh := lawful.subscribes quality preview (kind.now session)
      rw [← List.append_nil (subscriptions quality preview)] at fresh
      refine steady.rebase session _ rfl rfl rfl (.inr ?_)
      unfold base
      rw [loading, idle]
      exact fresh
  | gaveUp quality preview loading =>
      exact steady.rebase session _ rfl rfl rfl (.inl rfl)

theorem init_steady (lawful : kind.Lawful documentParse) (quality : Quality) (preview : Bool)
    (loaded : (kind.loaded quality (some preview)).getD
        (kind.now (ReceiverControl.init quality preview)) =
      kind.now (ReceiverControl.init quality preview)) :
    kind.Steady documentParse (ReceiverControl.init quality preview) := by
  intro _
  have subscribed := lawful.subscribes quality preview
    (kind.now (ReceiverControl.init quality preview))
  rw [loaded, ← List.append_nil (subscriptions quality preview)] at subscribed
  change latest kind.setting (latest kind.setting kind.initial
    (parsedTexts documentParse (subscriptions quality preview ++ []))) [] = _
  rw [latest_silent kind.setting _ [] rfl]
  exact subscribed

end ControlKind

section Kinds
variable (documentParse : List Char → Except String XmlNode)
variable (reads : ReadsEmptyTag documentParse)
include reads

theorem subscriptions_parsed (quality : Quality) (preview : Bool) :
    parsedTexts documentParse (subscriptions quality preview) =
      [.subscribe false false true, .settings (some preview) none, .subscribe true false false,
        .settings none (some quality)] := by
  simp only [parsedTexts, subscriptions, List.flatMap_cons, List.flatMap_nil,
    subscribeMetadata_parsed documentParse reads, previewXml_parsed documentParse reads,
    subscribeVideo_parsed documentParse reads, suggestedQualityXml_parsed documentParse reads]
  rfl

theorem previewKind_lawful : previewKind.Lawful documentParse where
  told := by
    intro command
    cases command with
    | preview on => rw [Command.xml, previewXml_parsed documentParse reads]; rfl
    | quality suggested => rw [Command.xml, suggestedQualityXml_parsed documentParse reads]; rfl
  kept := by
    intro session command silent
    cases command with
    | preview on => cases silent
    | quality suggested => rfl
  reads_quality := fun _ => rfl
  reads_preview := fun _ _ => rfl
  subscribes := by
    intro quality preview other
    rw [subscriptions_parsed documentParse reads]
    rfl

theorem qualityKind_lawful : qualityKind.Lawful documentParse where
  told := by
    intro command
    cases command with
    | preview on => rw [Command.xml, previewXml_parsed documentParse reads]; rfl
    | quality suggested => rw [Command.xml, suggestedQualityXml_parsed documentParse reads]; rfl
  kept := by
    intro session command silent
    cases command with
    | preview on => rfl
    | quality suggested => cases silent
  reads_quality := fun _ => rfl
  reads_preview := fun _ _ => rfl
  subscribes := by
    intro quality preview other
    rw [subscriptions_parsed documentParse reads]
    rfl
end Kinds

/-! What the sender makes of the bytes. -/

theorem command_text (command : Command) : ControlText command.xml := by
  cases command with
  | preview on => cases on <;> exact ⟨by decide, by decide⟩
  | quality suggested => cases suggested <;> exact ⟨by decide, by decide⟩

theorem subscriptions_text (quality : Quality) (preview : Bool) :
    ∀ text ∈ subscriptions quality preview, ControlText text := by
  intro text member
  simp only [subscriptions, List.mem_cons, List.not_mem_nil, or_false] at member
  rcases member with rfl | rfl | rfl | rfl
  · exact ⟨by decide, by decide⟩
  · exact command_text (.preview preview)
  · exact ⟨by decide, by decide⟩
  · exact command_text (.quality quality)

theorem delivered_state (documentParse : List Char → Except String XmlNode)
    (sent : List (List Char)) (texts : ∀ text ∈ sent, ControlText text)
    (chunks : List (List UInt8)) (delivered : chunks.flatten = sent.flatMap documentBytes)
    (short : ∀ data ∈ chunks, data.length ≤ peerReadSize) :
    (ingestReads (applyMetadata documentParse) {} [] chunks).1 =
      (parsedTexts documentParse sent).foldl applyItem {} := by
  have control : ∀ frame ∈ sent.map documentBytes, ControlFrame frame := by
    intro frame member
    obtain ⟨text, inside, rfl⟩ := List.mem_map.mp member
    exact documentBytes_control text (texts text inside)
  have whole : chunks.flatten = (sent.map documentBytes).flatten := delivered
  have nothing := drain_wait peerDecoder [] rfl
  have read := ingestReads_control (applyMetadata documentParse) (sent.map documentBytes) control
    {} chunks [] [] (by rw [List.nil_append, List.append_nil, whole]) short
  have items := drain_frames peerDecoder (sent.map documentBytes) []
    (fun frame inside => (control frame inside).whole) rfl
  rw [List.append_nil] at items
  rw [nothing, List.nil_append, whole, items, ingestLog_documents] at read
  have documents : frameDocuments documentParse (sent.map documentBytes) =
      parsedTexts documentParse sent := by
    rw [frameDocuments, List.flatMap_map]
    refine List.flatMap_congr fun text inside => ?_
    rw [documentBytes_applied text (texts text inside)]
    simp [recordXml]
  rw [documents] at read
  exact congrArg Prod.fst read

/-! Runs of calls, flushes and reconnects. -/

/-- The setting is what the session still says. -/
def Command.Stands (session : ReceiverControl) : Command → Prop
  | .preview on => session.preview = on
  | .quality suggested => session.quality = suggested.code

/-- A step of the I/O thread or of the two calls, each of which starts when none is under way. -/
def Called (session : ReceiverControl) : ReceiverStep → Prop
  | .store _ => session.calls = []
  | .sendMetadata _ => False
  | _ => True

instance (session : ReceiverControl) : (step : ReceiverStep) → Decidable (Called session step)
  | .store _ => inferInstanceAs (Decidable (session.calls = []))
  | .sendMetadata _ => .isFalse id
  | .queue _ | .takeQueue | .writeOk | .writeFails | .disconnect | .loadQuality | .loadPreview
  | .subscribed | .subscribeFails => .isTrue trivial

/-- At most one call is under way, and what it has stored is still there. -/
def OneCall (session : ReceiverControl) : Prop :=
  session.calls = [] ∨ ∃ command, session.calls = [command] ∧ command.Stands session

theorem acted_oneCall (session after : ReceiverControl) (step : ReceiverStep)
    (acted : session.Acted step after) (called : Called session step)
    (before : OneCall session) : OneCall after := by
  cases acted with
  | stored command =>
      have none : session.calls = [] := called
      refine .inr ⟨command, ?_, ?_⟩
      · rw [none]
        rfl
      · cases command <;> rfl
  | queued index command call =>
      rcases before with none | ⟨open_, only, -⟩
      · rw [none] at call
        cases call
      · refine .inl ?_
        change session.calls.eraseIdx index = []
        rw [only] at call ⊢
        cases index with
        | zero => rfl
        | succ index => cases call
  | _ => exact before

theorem OneCall.inOrder {session : ReceiverControl} {step : ReceiverStep}
    (one : OneCall session) (own : ∀ xml, step ≠ .sendMetadata xml) :
    previewKind.InOrder session step ∧ qualityKind.InOrder session step := by
  cases step with
  | queue index =>
      have stands : ∀ command, session.calls[index]? = some command → command.Stands session := by
        intro command call
        rcases one with none | ⟨open_, only, stands⟩
        · rw [none] at call
          cases call
        · rw [only] at call
          cases List.mem_singleton.mp (List.mem_of_getElem? call)
          exact stands
      constructor
      · intro command value call carries _
        cases command with
        | quality suggested => cases carries
        | preview on =>
            cases carries
            exact stands _ call
      · intro command value call carries _
        cases command with
        | preview on => cases carries
        | quality suggested =>
            cases carries
            have same : session.quality = value.code := stands _ call
            change qualityFromI32 session.quality = value
            rw [same, qualityFromI32_code]
  | sendMetadata xml => exact absurd rfl (own xml)
  | _ => exact ⟨trivial, trivial⟩

def ReceiverControl.texts (session : ReceiverControl) : List (List Char) :=
  (match session.socket with
    | .up sent _ => sent
    | _ => []) ++ (session.pending ++ session.outboundMeta)

theorem acted_texts (session after : ReceiverControl) (step : ReceiverStep)
    (acted : session.Acted step after) (own : ∀ xml, step ≠ .sendMetadata xml)
    (before : ∀ text ∈ session.texts, ControlText text) : ∀ text ∈ after.texts, ControlText text := by
  unfold ReceiverControl.texts at before ⊢
  intro text member
  cases acted with
  | stored command => cases command <;> exact before text member
  | queued index command call =>
      dsimp only [ReceiverControl.sendMetadata] at member
      rw [← List.append_assoc, ← List.append_assoc] at member
      rcases List.mem_append.mp member with old | new
      · exact before text (by simpa using old)
      · rw [List.mem_singleton.mp new]
        exact command_text command
  | sent xml => exact absurd rfl (own xml)
  | taken sent failed up idle => exact before text (by simpa [up, idle] using member)
  | wrote sent failed xml rest up busy => exact before text (by simpa [up, busy] using member)
  | broke sent failed xml rest up busy =>
      refine before text ?_
      simp only [up, busy, List.nil_append, List.mem_append, List.mem_cons] at member ⊢
      tauto
  | closed sent failed up idle =>
      refine before text ?_
      simp only [up, List.nil_append, List.mem_append] at member ⊢
      tauto
  | readQuality down => exact before text (by simpa [down] using member)
  | readPreview quality loading => exact before text (by simpa [loading] using member)
  | connected quality preview loading =>
      rcases List.mem_append.mp member with fresh | old
      · exact subscriptions_text quality preview text fresh
      · exact before text (by simpa [loading] using old)
  | gaveUp quality preview loading => exact before text (by simpa [loading] using member)

structure Agreeing (documentParse : List Char → Except String XmlNode)
    (session : ReceiverControl) : Prop where
  flushing : session.Flushing
  texts : ∀ text ∈ session.texts, ControlText text
  call : OneCall session
  preview : previewKind.Steady documentParse session
  quality : qualityKind.Steady documentParse session

section Runs
variable (documentParse : List Char → Except String XmlNode)
variable (reads : ReadsEmptyTag documentParse)
include reads

theorem agreeing_invariant (quality : Quality) (preview : Bool) :
    Runs.Invariant ReceiverControl.act (.init quality preview) Called
      (Agreeing documentParse) where
  start := by
    have previewLaws := previewKind_lawful documentParse reads
    have qualityLaws := qualityKind_lawful documentParse reads
    refine ⟨.inl rfl, fun text member => ?_, .inl rfl, ?_, ?_⟩
    · exact subscriptions_text quality preview text
        (by simpa [ReceiverControl.texts, ReceiverControl.init] using member)
    · exact ControlKind.init_steady previewLaws quality preview rfl
    · exact ControlKind.init_steady qualityLaws quality preview (qualityFromI32_code quality).symm
  step before after step agreed called taken := by
    have acted := ReceiverControl.act_acted before after step taken
    have own : ∀ xml, step ≠ .sendMetadata xml := by
      rintro xml rfl
      exact called
    obtain ⟨previewOrder, qualityOrder⟩ := agreed.call.inOrder own
    exact ⟨ReceiverControl.acted_flushing before after step acted agreed.flushing,
      acted_texts before after step acted own agreed.texts,
      acted_oneCall before after step acted called agreed.call,
      ControlKind.acted_steady (previewKind_lawful documentParse reads) before after step acted
        previewOrder agreed.flushing agreed.preview,
      ControlKind.acted_steady (qualityKind_lawful documentParse reads) before after step acted
        qualityOrder agreed.flushing agreed.quality⟩

/-- Whenever every call has returned and the queue is flushed over a connection on which no write
has failed, the sender's state for this peer has the session's preview and quality. -/
theorem control_agrees (quality : Quality) (preview : Bool) (history : List ReceiverStep)
    (session : ReceiverControl)
    (run : ReceiverControl.replay quality preview history = some session)
    (called : Runs.Throughout ReceiverControl.act (.init quality preview) Called history)
    (returned : session.calls = []) (flushed : session.outboundMeta = [] ∧ session.pending = [])
    (sent : List (List Char)) (live : session.socket = .up sent false)
    (chunks : List (List UInt8)) (delivered : chunks.flatten = sent.flatMap documentBytes)
    (short : ∀ data ∈ chunks, data.length ≤ peerReadSize) :
    let peer := (ingestReads (applyMetadata documentParse) {} [] chunks).1
    peer.preview = session.preview ∧ peer.quality = session.suggestedQuality := by
  have agreed := (agreeing_invariant documentParse reads quality preview).run _ _ history session
    called run
  have texts : ∀ text ∈ sent, ControlText text := fun text member =>
    agreed.texts text (by rw [ReceiverControl.texts, live]; exact List.mem_append_left _ member)
  have state := (delivered_state documentParse sent texts chunks delivered short).trans
    (applied_state (parsedTexts documentParse sent))
  have previewReached := agreed.preview (by rw [returned]; rfl)
  have qualityReached := agreed.quality (by rw [returned]; rfl)
  unfold ControlKind.base at previewReached qualityReached
  rw [live, flushed.1, flushed.2] at previewReached qualityReached
  dsimp only
  rw [state]
  constructor
  · rw [← List.append_nil sent]
    exact previewReached
  · rw [← List.append_nil sent]
    exact qualityReached
end Runs

def previewRun : List ReceiverStep :=
  [.writeOk, .takeQueue, .queue 0, .writeOk, .takeQueue, .store (.quality .high), .queue 0,
    .store (.preview true)]

def lostRun : List ReceiverStep :=
  [.subscribed, .loadPreview, .loadQuality, .disconnect] ++ previewRun

def previewSent : List (List Char) :=
  subscriptions .default false ++ [previewOn, suggestedQualityXml .high]

/-- What the sender has of the peer once it has read these documents in one piece. -/
def heardState (sent : List (List Char)) : PeerState :=
  (ingestReads (applyMetadata readEmptyTag) {} [] [sent.flatMap documentBytes]).1

/-- The sender knows both settings, from the two documents or from the new subscriptions. -/
theorem control_agrees_preview :
    ((heardState previewSent).preview = true ∧ (heardState previewSent).quality = .high) ∧
      (heardState (subscriptions .high true)).preview = true ∧
      (heardState (subscriptions .high true)).quality = .high := by
  have called : Runs.Throughout ReceiverControl.act (.init .default false) Called lostRun := by
    decide +kernel
  have short : ∀ sent ∈ [previewSent, subscriptions .high true],
      ∀ data ∈ [sent.flatMap documentBytes], data.length ≤ peerReadSize := by decide +kernel
  have written := control_agrees readEmptyTag readEmptyTag_reads .default false previewRun _ rfl
    called.1.1.1.1 rfl ⟨rfl, rfl⟩ previewSent rfl _ (List.append_nil _)
    (short _ List.mem_cons_self)
  have reread := control_agrees readEmptyTag readEmptyTag_reads .default false lostRun _ rfl called
    rfl ⟨rfl, rfl⟩ (subscriptions .high true) rfl _ (List.append_nil _)
    (short _ (List.mem_cons_of_mem _ List.mem_cons_self))
  rw [heardState, heardState]
  exact ⟨written, reread⟩

end OpenMediaTransport
