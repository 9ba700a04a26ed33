import OpenMediaTransport.ControlDocuments
import OpenMediaTransport.PeerWrites
import OpenMediaTransport.Runs

/-!
The sender's control plane. The owner adds peers, sets its quality policy and polls;
a poll reads once from every peer and then, under a second hold of the lock, joins
the peers' states. Writers may remove peers at any time, between the two as well.

A history is a list of steps, the newest first. Beside the sender it keeps the bytes
that were read from each peer.
-/

namespace OpenMediaTransport

open Framing Markup

structure ControlledSender where
  peers : List (Nat × Peer)
  nextPeerId : Nat
  quality : Quality
  subscribed : PeerState
  /-- `AudioIngress` sends. -/
  audioEnabled : Bool
  /-- The owner is between the two halves of a poll. -/
  polling : Bool

def ControlledSender.init : ControlledSender where
  peers := []
  nextPeerId := 1
  quality := .default
  subscribed := {}
  audioEnabled := false
  polling := false

inductive PeerRead where
  | data (bytes : List UInt8) (fits : bytes.length ≤ peerReadSize)
  | failed (kind : ErrorKind)

def PeerRead.bytes : PeerRead → List UInt8
  | .data bytes _ => bytes
  | .failed _ => []

/-- The state and the best quality so far, joined with those of one more peer. -/
def joinPeer (agg : PeerState × Quality) (state : PeerState) : PeerState × Quality :=
  ({ agg.1 with
      video := agg.1.video || state.video
      audio := agg.1.audio || state.audio
      metadata := agg.1.metadata || state.metadata
      preview := agg.1.preview || state.preview
      tally := ⟨agg.1.tally.preview ||| state.tally.preview,
        agg.1.tally.program ||| state.tally.program⟩ },
    if agg.2.code < state.quality.code then state.quality else agg.2)

/-- `recompute_subscriptions`, with the peers in the order the map yields them. -/
def ControlledSender.recomputeSubscriptions (sender : ControlledSender) (order : List Peer) :
    ControlledSender :=
  let joined := (order.map Peer.state).foldl joinPeer ({}, .default)
  let agg := { joined.1 with
    quality := if sender.quality = .default then joined.2 else sender.quality }
  { sender with subscribed := agg, audioEnabled := agg.audio }

inductive ControlStep where
  | addPeer (info : Option AssembledFrame) (outcome : WriteOutcome)
  | setQuality (quality : Quality)
  | pollReads (reads : Nat → PeerRead)
  | recompute (order : List (Nat × Peer))
  | write (wire : WireBytes) (outcome : Nat → WriteOutcome)

section Steps
variable (documentParse : List Char → Except String XmlNode)

/-- A peer after its read, or `none` where it is dead. -/
def pollPeer (peer : Peer) : PeerRead → Option Peer
  | .data [] _ => none
  | .data bytes _ =>
      let next := ingestPeerBytes (applyMetadata documentParse) peer.state peer.inbound bytes
      some { peer with state := next.1, inbound := next.2 }
  | .failed .wouldBlock => some peer
  | .failed .timedOut => some peer
  | .failed _ => none

/-- The pass over the map: no peer's read depends on another's. -/
def pollPeers (reads : Nat → PeerRead) (peers : List (Nat × Peer)) : List (Nat × Peer) :=
  peers.filterMap fun entry =>
    (pollPeer documentParse entry.2 (reads entry.1)).map fun peer => (entry.1, peer)

def ControlledSender.act (sender : ControlledSender) : ControlStep → Option ControlledSender
  | .addPeer info outcome =>
      if sender.polling then none
      else some { sender with
        peers := (sender.nextPeerId, acceptedPeer info outcome) :: sender.peers
        nextPeerId := sender.nextPeerId + 1 }
  | .setQuality quality =>
      if sender.polling then none else some { sender with quality }
  | .pollReads reads =>
      if sender.polling then none
      else some { sender with peers := pollPeers documentParse reads sender.peers, polling := true }
  | .recompute order =>
      if sender.polling ∧ order.Perm sender.peers then
        some { sender.recomputeSubscriptions (order.map Prod.snd) with polling := false }
      else none
  | .write wire outcome => some { sender with peers := writePeers wire outcome sender.peers }

/-- The bytes read from each peer, with those of one more step. -/
def hear (sender : ControlledSender) (heard : Nat → List UInt8) (step : ControlStep) (id : Nat) :
    List UInt8 :=
  match step with
  | .pollReads reads =>
      if id ∈ sender.peers.map Prod.fst then heard id ++ (reads id).bytes else heard id
  | _ => heard id

def actHeard (before : ControlledSender × (Nat → List UInt8)) (step : ControlStep) :
    Option (ControlledSender × (Nat → List UInt8)) :=
  (before.1.act documentParse step).map fun after => (after, hear before.1 before.2 step)

def replayControl : List ControlStep → Option (ControlledSender × (Nat → List UInt8)) :=
  Runs.replay (actHeard documentParse) (.init, fun _ => [])
end Steps

/-! Joining. -/

theorem join_any (field : PeerState → Bool)
    (step : ∀ agg state, field (joinPeer agg state).1 = (field agg.1 || field state))
    (states : List PeerState) (agg : PeerState × Quality) :
    field (states.foldl joinPeer agg).1 = (field agg.1 || states.any field) := by
  induction states generalizing agg with
  | nil => exact (Bool.or_false _).symm
  | cons state rest ih => rw [List.foldl_cons, ih, step, List.any_cons, Bool.or_assoc]

theorem join_or (field : PeerState → Int32)
    (step : ∀ agg state, field (joinPeer agg state).1 = field agg.1 ||| field state)
    (states : List PeerState) (agg : PeerState × Quality) :
    field (states.foldl joinPeer agg).1 =
      (states.map field).foldl (fun bits more => bits ||| more) (field agg.1) := by
  induction states generalizing agg with
  | nil => rfl
  | cons state rest ih => rw [List.foldl_cons, ih, step, List.map_cons, List.foldl_cons]

theorem joinPeer_best (agg : PeerState × Quality) (state : PeerState) :
    agg.2.code ≤ (joinPeer agg state).2.code ∧ state.quality.code ≤ (joinPeer agg state).2.code ∧
      ((joinPeer agg state).2 = agg.2 ∨ (joinPeer agg state).2 = state.quality) := by
  have chosen : (joinPeer agg state).2 =
      if agg.2.code < state.quality.code then state.quality else agg.2 := rfl
  rw [chosen]
  by_cases better : agg.2.code < state.quality.code
  · rw [if_pos better]
    exact ⟨Int32.le_of_lt better, Int32.le_refl _, .inr rfl⟩
  · rw [if_neg better]
    exact ⟨Int32.le_refl _, Int32.not_lt.mp better, .inl rfl⟩

/-- The best quality is one of those joined, and none of them is better. -/
theorem join_best (states : List PeerState) (agg : PeerState × Quality) :
    agg.2.code ≤ (states.foldl joinPeer agg).2.code ∧
      (∀ state ∈ states, state.quality.code ≤ (states.foldl joinPeer agg).2.code) ∧
      ((states.foldl joinPeer agg).2 = agg.2 ∨
        ∃ state ∈ states, (states.foldl joinPeer agg).2 = state.quality) := by
  induction states generalizing agg with
  | nil => exact ⟨Int32.le_refl _, by simp, .inl rfl⟩
  | cons state rest ih =>
      obtain ⟨above, each, one⟩ := ih (joinPeer agg state)
      obtain ⟨keeps, covers, chosen⟩ := joinPeer_best agg state
      refine ⟨Int32.le_trans keeps above, fun other member => ?_, ?_⟩
      · rcases List.mem_cons.mp member with rfl | later
        · exact Int32.le_trans covers above
        · exact each other later
      · rcases one with same | ⟨other, later, same⟩
        · rcases chosen with old | new
          · exact .inl (same.trans old)
          · exact .inr ⟨state, List.mem_cons_self, same.trans new⟩
        · exact .inr ⟨other, List.mem_cons_of_mem state later, same⟩

/-! Every peer's state is that of the bytes read from it. -/

section Runs
variable (documentParse : List Char → Except String XmlNode)

/-- The peer's state and buffer after the bytes read from it. -/
def Listened (peer : Peer) (read : List UInt8) : Prop :=
  peer.state = ingestLog (applyMetadata documentParse) {} (drain peerDecoder read).1 ∧
    peer.inbound = (drain peerDecoder read).2

structure Listening (sender : ControlledSender) (heard : Nat → List UInt8) : Prop where
  fresh : ∀ entry ∈ sender.peers, entry.1 < sender.nextPeerId
  unheard : ∀ id, sender.nextPeerId ≤ id → heard id = []
  listened : ∀ entry ∈ sender.peers, Listened documentParse entry.2 (heard entry.1)

theorem acceptedPeer_listened (info : Option AssembledFrame) (outcome : WriteOutcome) :
    Listened documentParse (acceptedPeer info outcome) [] := by
  have nothing := drain_wait peerDecoder [] rfl
  unfold Listened acceptedPeer
  rw [nothing]
  cases info <;> exact ⟨rfl, rfl⟩

theorem pollPeer_listened (frames : List (List UInt8))
    (control : ∀ frame ∈ frames, ControlFrame frame) (before after : Peer) (read : List UInt8)
    (result : PeerRead) (stays : pollPeer documentParse before result = some after)
    (front : read ++ result.bytes <+: frames.flatten)
    (listened : Listened documentParse before read) :
    Listened documentParse after (read ++ result.bytes) := by
  obtain ⟨state, inbound⟩ := listened
  cases result with
  | data bytes fits =>
      obtain ⟨unread, aligned⟩ := front
      have next := ingestPeerBytes_control (applyMetadata documentParse) frames control {} read
        bytes unread aligned fits
      cases bytes with
      | nil => cases stays
      | cons byte rest =>
          rw [← state, ← inbound] at next
          cases stays
          exact ⟨congrArg Prod.fst next, congrArg Prod.snd next⟩
  | failed kind =>
      have same : after = before := by
        cases kind <;> cases stays <;> rfl
      rw [same, PeerRead.bytes, List.append_nil]
      exact ⟨state, inbound⟩

theorem hear_grows (sender : ControlledSender) (heard : Nat → List UInt8) (step : ControlStep)
    (id : Nat) : heard id <+: hear sender heard step id := by
  cases step with
  | pollReads reads =>
      unfold hear
      dsimp only
      split
      · exact List.prefix_append _ _
      · exact List.prefix_refl _
  | _ => exact List.prefix_refl _

theorem addPeer_listening (before : ControlledSender) (heard : Nat → List UInt8)
    (info : Option AssembledFrame) (outcome : WriteOutcome)
    (listening : Listening documentParse before heard) :
    Listening documentParse
      { before with
        peers := (before.nextPeerId, acceptedPeer info outcome) :: before.peers
        nextPeerId := before.nextPeerId + 1 } heard := by
  obtain ⟨fresh, unheard, listened⟩ := listening
  constructor
  case fresh =>
    intro entry member
    rcases List.mem_cons.mp member with rfl | old
    · exact Nat.lt_succ_self _
    · exact Nat.lt_succ_of_lt (fresh entry old)
  case unheard =>
    exact fun id later => unheard id (Nat.le_of_succ_le later)
  case listened =>
    intro entry member
    rcases List.mem_cons.mp member with rfl | old
    · change Listened documentParse _ (heard before.nextPeerId)
      rw [unheard _ (Nat.le_refl _)]
      exact acceptedPeer_listened documentParse info outcome
    · exact listened entry old

theorem pollPeers_entry (reads : Nat → PeerRead) (peers : List (Nat × Peer)) (entry : Nat × Peer)
    (member : entry ∈ pollPeers documentParse reads peers) :
    ∃ old ∈ peers, old.1 = entry.1 ∧
      pollPeer documentParse old.2 (reads old.1) = some entry.2 := by
  obtain ⟨old, inside, stays⟩ := List.mem_filterMap.mp member
  obtain ⟨peer, polled, rfl⟩ := Option.map_eq_some_iff.mp stays
  exact ⟨old, inside, rfl, polled⟩

/-- Writing leaves a peer's state and buffer alone. -/
theorem writePeers_reading (wire : WireBytes) (outcome : Nat → WriteOutcome)
    (peers : List (Nat × Peer)) (entry : Nat × Peer)
    (member : entry ∈ writePeers wire outcome peers) :
    ∃ old ∈ peers, old.1 = entry.1 ∧ old.2.state = entry.2.state ∧
      old.2.inbound = entry.2.inbound := by
  obtain ⟨old, inside, written⟩ := writePeers_entry wire outcome peers _ _ member
  refine ⟨(entry.1, old), inside, rfl, ?_⟩
  rcases written with ⟨-, same⟩ | ⟨-, -, same⟩ <;> rw [same] <;> exact ⟨rfl, rfl⟩

theorem write_listening (before : ControlledSender) (heard : Nat → List UInt8) (wire : WireBytes)
    (outcome : Nat → WriteOutcome) (listening : Listening documentParse before heard) :
    Listening documentParse { before with peers := writePeers wire outcome before.peers } heard := by
  obtain ⟨fresh, unheard, listened⟩ := listening
  have origin := writePeers_reading wire outcome before.peers
  refine ⟨fun entry member => ?_, unheard, fun entry member => ?_⟩
  · obtain ⟨old, inside, same, -⟩ := origin entry member
    rw [← same]
    exact fresh old inside
  · obtain ⟨old, inside, same, state, inbound⟩ := origin entry member
    have before := listened old inside
    unfold Listened at before ⊢
    rw [state, inbound, same] at before
    exact before

variable (sends : Nat → List (List UInt8))
variable (control : ∀ id, ∀ frame ∈ sends id, ControlFrame frame)
include control

theorem pollReads_listening (before : ControlledSender) (heard : Nat → List UInt8)
    (reads : Nat → PeerRead)
    (fronts : ∀ id, hear before heard (.pollReads reads) id <+: (sends id).flatten)
    (listening : Listening documentParse before heard) :
    Listening documentParse
      { before with peers := pollPeers documentParse reads before.peers, polling := true }
      (hear before heard (.pollReads reads)) := by
  obtain ⟨fresh, unheard, listened⟩ := listening
  constructor
  case fresh =>
    intro entry member
    obtain ⟨old, inside, same, -⟩ := pollPeers_entry documentParse reads before.peers entry member
    rw [← same]
    exact fresh old inside
  case unheard =>
    intro id later
    have absent : id ∉ before.peers.map Prod.fst := by
      intro inside
      obtain ⟨entry, old, rfl⟩ := List.mem_map.mp inside
      exact Nat.not_le_of_lt (fresh entry old) later
    exact (if_neg absent).trans (unheard id later)
  case listened =>
    intro entry member
    obtain ⟨old, inside, same, polled⟩ :=
      pollPeers_entry documentParse reads before.peers entry member
    have present : old.1 ∈ before.peers.map Prod.fst := List.mem_map_of_mem inside
    -- A peer that stays has been given exactly the bytes of this poll.
    have now : hear before heard (.pollReads reads) old.1 = heard old.1 ++ (reads old.1).bytes :=
      if_pos present
    have front := fronts old.1
    rw [← same]
    rw [now] at front ⊢
    exact pollPeer_listened documentParse (sends old.1) (control old.1) old.2 entry.2 _ _ polled
      front (listened old inside)

theorem act_listening (before after : ControlledSender) (heard : Nat → List UInt8)
    (step : ControlStep) (taken : before.act documentParse step = some after)
    (fronts : ∀ id, hear before heard step id <+: (sends id).flatten)
    (listening : Listening documentParse before heard) :
    Listening documentParse after (hear before heard step) := by
  cases step with
  | addPeer info outcome =>
      simp only [ControlledSender.act] at taken
      split at taken
      · cases taken
      · cases taken
        exact addPeer_listening documentParse before heard info outcome listening
  | setQuality quality =>
      simp only [ControlledSender.act] at taken
      split at taken
      · cases taken
      · cases taken
        exact ⟨listening.fresh, listening.unheard, listening.listened⟩
  | pollReads reads =>
      simp only [ControlledSender.act] at taken
      split at taken
      · cases taken
      · cases taken
        exact pollReads_listening documentParse sends control before heard reads fronts listening
  | recompute order =>
      simp only [ControlledSender.act] at taken
      split at taken
      · cases taken
        exact ⟨listening.fresh, listening.unheard, listening.listened⟩
      · cases taken
  | write wire outcome =>
      cases taken
      exact write_listening documentParse before heard wire outcome listening

theorem replay_listening (history : List ControlStep) (sender : ControlledSender)
    (heard : Nat → List UInt8) (run : replayControl documentParse history = some (sender, heard))
    (fronts : ∀ id, heard id <+: (sends id).flatten) :
    Listening documentParse sender heard := by
  induction history generalizing sender heard with
  | nil =>
      cases run
      exact ⟨fun entry member => absurd member List.not_mem_nil, fun _ _ => rfl,
        fun entry member => absurd member List.not_mem_nil⟩
  | cons step past ih =>
      obtain ⟨⟨earlier, before⟩, ran, last⟩ := (Runs.replay_cons _ _ step past _).mp run
      obtain ⟨after, taken, same⟩ := Option.map_eq_some_iff.mp last
      cases same
      -- What was heard before the step is a front of what is heard after it.
      have listening := ih earlier before ran fun id =>
        (hear_grows earlier before step id).trans (fronts id)
      exact act_listening documentParse sends control earlier sender before step taken fronts
        listening

theorem listening_states (sender : ControlledSender) (heard : Nat → List UInt8)
    (fronts : ∀ id, heard id <+: (sends id).flatten)
    (listening : Listening documentParse sender heard) :
    ∀ entry ∈ sender.peers, entry.2.state =
      (frameDocuments documentParse
        (arrived (sends entry.1) (heard entry.1).length)).foldl applyItem {} := by
  intro entry member
  obtain ⟨unread, aligned⟩ := fronts entry.1
  have items := (drain_arrived peerDecoder (sends entry.1)
    (fun frame inside => (control entry.1 frame inside).whole) (heard entry.1) unread aligned).1
  rw [(listening.listened entry member).1, items, ingestLog_documents]

end Runs

def asked (documentParse : List Char → Except String XmlNode) (sends : Nat → List (List UInt8))
    (heard : Nat → List UInt8) (id : Nat) : List Metadata :=
  frameDocuments documentParse (arrived (sends id) (heard id).length)

/-- The sender's aggregate is the join over the peers in its map. -/
structure Joined (sender : ControlledSender) (documents : Nat → List Metadata) : Prop where
  video : sender.subscribed.video = true ↔
    ∃ entry ∈ sender.peers, ∃ item ∈ documents entry.1, asksVideo item = true
  audio : sender.subscribed.audio = true ↔
    ∃ entry ∈ sender.peers, ∃ item ∈ documents entry.1, asksAudio item = true
  metadata : sender.subscribed.metadata = true ↔
    ∃ entry ∈ sender.peers, ∃ item ∈ documents entry.1, asksMetadata item = true
  preview : sender.subscribed.preview = true ↔
    ∃ entry ∈ sender.peers, latest previewSetting false (documents entry.1) = true
  tally : sender.subscribed.tally =
    ⟨(sender.peers.map fun entry => (latest tallySetting {} (documents entry.1)).preview).foldl
        (fun bits more => bits ||| more) 0,
      (sender.peers.map fun entry => (latest tallySetting {} (documents entry.1)).program).foldl
        (fun bits more => bits ||| more) 0⟩
  local_quality : sender.quality ≠ .default → sender.subscribed.quality = sender.quality
  best_quality : sender.quality = .default →
    (∀ entry ∈ sender.peers,
      (latest qualitySetting .default (documents entry.1)).code ≤ sender.subscribed.quality.code) ∧
    (sender.subscribed.quality = .default ∨ ∃ entry ∈ sender.peers,
      sender.subscribed.quality = latest qualitySetting .default (documents entry.1))
  enabled : sender.audioEnabled = sender.subscribed.audio

theorem any_states (peers order : List (Nat × Peer)) (same : order.Perm peers)
    (field : PeerState → Bool) :
    ((order.map Prod.snd).map Peer.state).any field = true ↔
      ∃ entry ∈ peers, field entry.2.state = true := by
  rw [List.map_map, List.any_map, List.any_eq_true]
  exact exists_congr fun entry => and_congr_left fun _ => same.mem_iff

theorem or_states (peers order : List (Nat × Peer)) (same : order.Perm peers)
    (field : PeerState → Int32) (start : Int32) :
    (((order.map Prod.snd).map Peer.state).map field).foldl (fun bits more => bits ||| more) start =
      (peers.map fun entry => field entry.2.state).foldl (fun bits more => bits ||| more) start := by
  rw [List.map_map, List.map_map]
  refine (same.map _).foldl_eq' (fun first _ second _ bits => ?_) start
  rw [Int32.or_assoc, Int32.or_comm first, ← Int32.or_assoc]

theorem joined_any (peers order : List (Nat × Peer)) (same : order.Perm peers)
    (field : PeerState → Bool) (bare : field {} = false)
    (step : ∀ agg state, field (joinPeer agg state).1 = (field agg.1 || field state)) :
    field (((order.map Prod.snd).map Peer.state).foldl joinPeer ({}, .default)).1 = true ↔
      ∃ entry ∈ peers, field entry.2.state = true := by
  rw [join_any field step, bare, Bool.false_or]
  exact any_states peers order same field

theorem joined_asks (peers order : List (Nat × Peer)) (same : order.Perm peers)
    (documents : Nat → List Metadata)
    (states : ∀ entry ∈ peers, entry.2.state = (documents entry.1).foldl applyItem {})
    (field : PeerState → Bool) (asks : Metadata → Bool) (bare : field {} = false)
    (step : ∀ agg state, field (joinPeer agg state).1 = (field agg.1 || field state))
    (told : ∀ items : List Metadata, field (items.foldl applyItem {}) = items.any asks) :
    field (((order.map Prod.snd).map Peer.state).foldl joinPeer ({}, .default)).1 = true ↔
      ∃ entry ∈ peers, ∃ item ∈ documents entry.1, asks item = true := by
  refine (joined_any peers order same field bare step).trans ?_
  refine exists_congr fun entry => and_congr_right fun inside => ?_
  rw [states entry inside, told]
  exact List.any_eq_true

/-- Whatever order the map yields the peers in, they are joined. -/
theorem recompute_joined (sender : ControlledSender) (order : List (Nat × Peer))
    (same : order.Perm sender.peers) (documents : Nat → List Metadata)
    (states : ∀ entry ∈ sender.peers, entry.2.state = (documents entry.1).foldl applyItem {}) :
    Joined (sender.recomputeSubscriptions (order.map Prod.snd)) documents := by
  have shown : ∀ entry ∈ sender.peers, entry.2.state = _ := fun entry inside =>
    (states entry inside).trans (applied_state (documents entry.1))
  -- An `or` and a maximum do not depend on the order in which the map is walked.
  have best := join_best ((order.map Prod.snd).map Peer.state) ({}, .default)
  have member : ∀ state, state ∈ (order.map Prod.snd).map Peer.state ↔
      ∃ entry ∈ sender.peers, state = entry.2.state := by
    intro state
    rw [List.map_map, List.mem_map]
    exact exists_congr fun entry => and_congr same.mem_iff eq_comm
  constructor
  case video =>
    exact joined_asks sender.peers order same documents states PeerState.video asksVideo rfl
      (fun _ _ => rfl) fun items => by rw [applied_state]
  case audio =>
    exact joined_asks sender.peers order same documents states PeerState.audio asksAudio rfl
      (fun _ _ => rfl) fun items => by rw [applied_state]
  case metadata =>
    exact joined_asks sender.peers order same documents states PeerState.metadata asksMetadata rfl
      (fun _ _ => rfl) fun items => by rw [applied_state]
  case preview =>
    refine (joined_any sender.peers order same PeerState.preview rfl fun _ _ => rfl).trans ?_
    refine exists_congr fun entry => and_congr_right fun inside => ?_
    rw [shown entry inside]
  case tally =>
    have lamp (field : Tally → Int32) (start : Int32) :
        (sender.peers.map fun entry => field entry.2.state.tally).foldl
            (fun bits more => bits ||| more) start =
          (sender.peers.map fun entry =>
            field (latest tallySetting {} (documents entry.1))).foldl
              (fun bits more => bits ||| more) start := by
      congr 1
      exact List.map_congr_left fun entry inside => by rw [shown entry inside]
    have preview := join_or (fun state => state.tally.preview) (fun _ _ => rfl)
      ((order.map Prod.snd).map Peer.state) ({}, .default)
    have program := join_or (fun state => state.tally.program) (fun _ _ => rfl)
      ((order.map Prod.snd).map Peer.state) ({}, .default)
    rw [or_states sender.peers order same, lamp Tally.preview] at preview
    rw [or_states sender.peers order same, lamp Tally.program] at program
    exact Tally.mk.injEq .. ▸ ⟨preview, program⟩
  case local_quality =>
    exact fun chosen => if_neg chosen
  case best_quality =>
    intro unset
    have chosen : (sender.recomputeSubscriptions (order.map Prod.snd)).subscribed.quality =
        (((order.map Prod.snd).map Peer.state).foldl joinPeer ({}, .default)).2 := if_pos unset
    obtain ⟨-, each, one⟩ := best
    rw [chosen]
    refine ⟨fun entry inside => ?_, one.imp_right fun ⟨state, listed, same⟩ => ?_⟩
    · have bound := each entry.2.state ((member _).mpr ⟨entry, inside, rfl⟩)
      rw [shown entry inside] at bound
      exact bound
    · obtain ⟨entry, inside, rfl⟩ := (member state).mp listed
      refine ⟨entry, inside, same.trans ?_⟩
      rw [shown entry inside]
  case enabled => rfl

/-- Right after a poll the aggregate is the join over the peers still in the map, of
what the documents read from each so far have asked for. -/
theorem aggregate_joins (documentParse : List Char → Except String XmlNode)
    (sends : Nat → List (List UInt8)) (control : ∀ id, ∀ frame ∈ sends id, ControlFrame frame)
    (order : List (Nat × Peer)) (past : List ControlStep) (sender : ControlledSender)
    (heard : Nat → List UInt8)
    (run : replayControl documentParse (.recompute order :: past) = some (sender, heard))
    (fronts : ∀ id, heard id <+: (sends id).flatten) :
    Joined sender (asked documentParse sends heard) := by
  obtain ⟨⟨before, earlier⟩, ran, last⟩ := (Runs.replay_cons _ _ _ past _).mp run
  obtain ⟨after, taken, reached⟩ := Option.map_eq_some_iff.mp last
  cases reached
  have listening := replay_listening documentParse sends control past before earlier ran fronts
  have states := listening_states documentParse sends control before earlier fronts listening
  simp only [ControlledSender.act] at taken
  split at taken
  · rename_i ready
    cases taken
    obtain ⟨video, audio, metadata, preview, tally, local_quality, best_quality, enabled⟩ :=
      recompute_joined before order ready.2 (asked documentParse sends earlier) states
    exact ⟨video, audio, metadata, preview, tally, local_quality, best_quality, enabled⟩
  · cases taken

/-! Two peers, one of whose documents comes in two reads. -/

def peerDocument (id : Nat) : List Char := if id = 1 then subscribeAudio else subscribeVideo

def peerSends (id : Nat) : List (List UInt8) := [documentBytes (peerDocument id)]

theorem peerSends_control (id : Nat) : ∀ frame ∈ peerSends id, ControlFrame frame := by
  intro frame member
  rw [List.mem_singleton.mp member]
  refine documentBytes_control _ ?_
  unfold peerDocument
  split
  · exact ⟨by decide, by decide⟩
  · exact ⟨by decide, by decide⟩

def firstReads (id : Nat) : PeerRead :=
  if id = 1 then .data ((documentBytes subscribeAudio).take 20) (by decide)
  else .data (documentBytes subscribeVideo) (by decide)

def laterReads (id : Nat) : PeerRead :=
  if id = 1 then .data ((documentBytes subscribeAudio).drop 20) (by decide)
  else .failed .wouldBlock

def polledOnce : ControlledSender where
  peers := pollPeers readEmptyTag firstReads [(2, acceptedPeer none .ok), (1, acceptedPeer none .ok)]
  nextPeerId := 3
  quality := .default
  subscribed := {}
  audioEnabled := false
  polling := true

def ControlledSender.joined (sender : ControlledSender) : ControlledSender :=
  { sender.recomputeSubscriptions (sender.peers.map Prod.snd) with polling := false }

def polledTwice : ControlledSender :=
  { polledOnce.joined with
    peers := pollPeers readEmptyTag laterReads polledOnce.peers, polling := true }

def polledRun : List ControlStep :=
  [.recompute polledTwice.peers, .pollReads laterReads, .recompute polledOnce.peers,
    .pollReads firstReads, .addPeer none .ok, .addPeer none .ok]

def onceHeard (id : Nat) : List UInt8 := if id ∈ [2, 1] then (firstReads id).bytes else []

def twiceHeard (id : Nat) : List UInt8 :=
  if id ∈ [2, 1] then onceHeard id ++ (laterReads id).bytes else onceHeard id

theorem twiceHeard_front (id : Nat) : twiceHeard id <+: (peerSends id).flatten := by
  unfold twiceHeard onceHeard firstReads laterReads peerSends peerDocument
  rw [List.flatten_singleton]
  by_cases known : id ∈ [2, 1]
  · rw [if_pos known, if_pos known]
    by_cases first : id = 1
    · rw [if_pos first, if_pos first, if_pos first]
      exact (List.take_append_drop 20 _).symm ▸ List.prefix_rfl
    · rw [if_neg first, if_neg first, if_neg first]
      exact (List.append_nil _).symm ▸ List.prefix_rfl
  · rw [if_neg known, if_neg known]
    exact List.nil_prefix

theorem joined_taken (documentParse : List Char → Except String XmlNode)
    (sender : ControlledSender) (heard : Nat → List UInt8) (past : List ControlStep)
    (polling : sender.polling = true)
    (ran : replayControl documentParse past = some (sender, heard)) :
    replayControl documentParse (.recompute sender.peers :: past) = some (sender.joined, heard) := by
  refine (Runs.replay_cons _ _ _ past _).mpr ⟨_, ran, ?_⟩
  exact congrArg (Option.map _) (if_pos ⟨polling, List.Perm.refl sender.peers⟩)

theorem polledRun_replayed :
    replayControl readEmptyTag polledRun = some (polledTwice.joined, twiceHeard) := by
  have once : replayControl readEmptyTag [.pollReads firstReads, .addPeer none .ok,
      .addPeer none .ok] = some (polledOnce, onceHeard) := rfl
  have joined := joined_taken readEmptyTag polledOnce onceHeard _ rfl once
  have twice : replayControl readEmptyTag (.pollReads laterReads :: .recompute polledOnce.peers ::
      [.pollReads firstReads, .addPeer none .ok, .addPeer none .ok]) =
      some (polledTwice, twiceHeard) :=
    (Runs.replay_cons _ _ _ _ _).mpr ⟨_, joined, rfl⟩
  exact joined_taken readEmptyTag polledTwice twiceHeard _ rfl twice

/-- After the second poll one peer has asked for audio, with a document read in two parts. -/
theorem aggregate_joins_polled :
    (polledOnce.joined.audioEnabled = false ∧ polledTwice.joined.audioEnabled = true) ∧
      replayControl readEmptyTag polledRun = some (polledTwice.joined, twiceHeard) ∧
      Joined polledTwice.joined (asked readEmptyTag peerSends twiceHeard) :=
  ⟨by decide +kernel, polledRun_replayed, aggregate_joins readEmptyTag peerSends peerSends_control polledTwice.peers _
    _ _ polledRun_replayed twiceHeard_front⟩

end OpenMediaTransport
