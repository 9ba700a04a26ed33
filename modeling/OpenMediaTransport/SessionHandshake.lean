import OpenMediaTransport.ControlAgreement
import OpenMediaTransport.MediaDelivery
import OpenMediaTransport.SessionSupervisors

/-!
The subscriptions of a receiver session. Each of its sockets asks for frames of its own kind as
soon as it is open, at first and behind every reconnect, and the sender goes by what has arrived
over that socket. So a frame that the session wants comes over one of its sockets, and none
comes over both.
-/

namespace OpenMediaTransport

open Framing Markup

/-- The documents that `send_subscriptions` writes to `av` and to `meta`. -/
def sendSubscriptions (av onMeta : Bool) (frameTypes : FrameType) (quality : Quality)
    (preview includeAudioOnAv : Bool) : List (List Char) × List (List Char) :=
  (if av then
      (if frameTypes.contains .video || frameTypes.contains .metadata then [subscribeMetadata]
        else []) ++
      (if frameTypes.contains .video then
        [previewXml preview, subscribeVideo, suggestedQualityXml quality] else []) ++
      (if includeAudioOnAv && frameTypes.contains .audio then [subscribeAudio] else [])
    else [],
    if onMeta && frameTypes.contains .audio then [subscribeAudio] else [])

/-- `subscribe_socket`; a connect writes the same. The video role never has `decode_audio`. -/
def subscribeSocket (frameTypes : FrameType) (quality : Quality) (preview : Bool) :
    SocketRole → List (List Char)
  | .video => (sendSubscriptions true false frameTypes quality preview false).1
  | .audio => (sendSubscriptions false true frameTypes quality false false).2

def SocketRole.frames : SocketRole → FrameType
  | .video => .video
  | .audio => .audio

def SocketRole.asks : SocketRole → Metadata → Bool
  | .video => asksVideo
  | .audio => asksAudio

theorem subscribeSocket_control (frameTypes : FrameType) (quality : Quality) (preview : Bool)
    (video : frameTypes.contains .video = true) :
    subscribeSocket frameTypes quality preview .video = subscriptions quality preview := by
  simp only [subscribeSocket, sendSubscriptions, video]
  rfl

theorem subscribeSocket_text (frameTypes : FrameType) (quality : Quality) (preview : Bool)
    (role : SocketRole) : ∀ text ∈ subscribeSocket frameTypes quality preview role,
      ControlText text := by
  have all : ∀ text ∈ subscribeAudio :: subscriptions quality preview, ControlText text :=
    List.forall_mem_cons.mpr ⟨⟨by decide, by decide⟩, subscriptions_text quality preview⟩
  have listed : ∀ text ∈ subscribeSocket frameTypes quality preview role,
      text ∈ subscribeAudio :: subscriptions quality preview := by
    unfold subscribeSocket sendSubscriptions subscriptions
    cases role with
    | video =>
        cases frameTypes.contains .video <;> cases frameTypes.contains .metadata <;> simp
    | audio => cases frameTypes.contains .audio <;> simp
  exact fun text member => all text (listed text member)

section Documents
variable (documentParse : List Char → Except String XmlNode)
variable (reads : ReadsEmptyTag documentParse)
include reads

theorem subscribeAudio_parsed :
    parseMetadata documentParse subscribeAudio = [.subscribe false true false] :=
  parseMetadata_emptyTag documentParse reads "OMTSubscribe".toList "Audio".toList "true".toList
    (by decide) (by decide) (by decide) (by decide)

theorem subscribeSocket_asks (frameTypes : FrameType) (quality : Quality) (preview : Bool)
    (role kind : SocketRole) :
    (parsedTexts documentParse (subscribeSocket frameTypes quality preview role)).any kind.asks =
      (decide (role = kind) && frameTypes.contains kind.frames) := by
  unfold subscribeSocket sendSubscriptions parsedTexts
  cases role with
  | video =>
      cases video : frameTypes.contains .video <;> cases frameTypes.contains .metadata <;>
        cases kind <;>
        simp [SocketRole.frames, SocketRole.asks, asksVideo, asksAudio, video,
          subscribeMetadata_parsed documentParse reads, previewXml_parsed documentParse reads,
          subscribeVideo_parsed documentParse reads,
          suggestedQualityXml_parsed documentParse reads]
  | audio =>
      cases audio : frameTypes.contains .audio <;> cases kind <;>
        simp [SocketRole.frames, SocketRole.asks, asksVideo, asksAudio, audio,
          subscribeAudio_parsed documentParse reads]

theorem subscribeSocket_preview (frameTypes : FrameType) (quality : Quality)
    (preview : Bool) (video : frameTypes.contains .video = true) (later : List Metadata) :
    latest previewSetting false (parsedTexts documentParse
        (subscribeSocket frameTypes quality preview .video) ++ later) =
      latest previewSetting preview later := by
  rw [subscribeSocket_control frameTypes quality preview video,
    subscriptions_parsed documentParse reads]
  simp only [List.cons_append, List.nil_append, latest_cons]
  rfl

end Documents

/-! What has arrived. -/

theorem arrived_behind {α : Type} (front rest : List (List α)) (count : Nat)
    (all : front.flatten.length ≤ count) :
    arrived (front ++ rest) count = front ++ arrived rest (count - front.flatten.length) := by
  induction front generalizing count with
  | nil => rfl
  | cons frame front ih =>
      rw [List.flatten_cons, List.length_append] at all
      rw [List.cons_append, arrived, if_pos (Nat.le_of_add_right_le all),
        ih _ (Nat.le_sub_of_add_le' all), List.flatten_cons, List.length_append, Nat.sub_sub]
      rfl

theorem arrived_take {α : Type} (frames : List (List α)) (count : Nat) :
    arrived frames count <+: frames := by
  induction frames generalizing count with
  | nil => exact List.prefix_refl _
  | cons frame rest ih =>
      rw [arrived]
      split
      · exact (List.prefix_cons_inj frame).mpr (ih _)
      · exact List.nil_prefix

theorem frameDocuments_texts (documentParse : List Char → Except String XmlNode)
    (texts : List (List Char)) (control : ∀ text ∈ texts, ControlText text) :
    frameDocuments documentParse (texts.map documentBytes) = parsedTexts documentParse texts := by
  rw [frameDocuments, List.flatMap_map]
  refine List.flatMap_congr fun text inside => ?_
  rw [documentBytes_applied text (control text inside)]
  simp [recordXml]

theorem asked_behind (documentParse : List Char → Except String XmlNode)
    (sends : Nat → List (List UInt8)) (heard : Nat → List UInt8) (id : Nat)
    (first later : List (List Char)) (control : ∀ text ∈ first ++ later, ControlText text)
    (sent : sends id = (first ++ later).map documentBytes)
    (all : (first.flatMap documentBytes).length ≤ (heard id).length) :
    ∃ told, told <+: later ∧ asked documentParse sends heard id =
      parsedTexts documentParse first ++ parsedTexts documentParse told := by
  rw [List.flatMap_def] at all
  have split := arrived_behind (first.map documentBytes) (later.map documentBytes) _ all
  obtain ⟨told, front, same⟩ := List.prefix_map_iff.mp (arrived_take (later.map documentBytes)
    ((heard id).length - (first.map documentBytes).flatten.length))
  refine ⟨told, front, ?_⟩
  unfold asked
  rw [sent, List.map_append, split, same, ← List.map_append, frameDocuments_texts]
  · exact List.flatMap_append
  · intro text member
    refine control text (List.mem_append.mpr ?_)
    exact (List.mem_append.mp member).imp_right fun inside => front.subset inside

/-! A session and its sender. -/

theorem asksFor_kind (items : List Metadata) (kind : SocketRole) :
    asksFor items kind.frames = items.any kind.asks := by
  cases kind <;> rfl

/-- The sockets of a session are peers of the sender. Over each it has sent its subscriptions,
which have arrived, and then documents that ask for no frames. -/
structure Subscribed (documentParse : List Char → Except String XmlNode)
    (sends : Nat → List (List UInt8)) (heard : Nat → List UInt8) (frameTypes : FrameType)
    (quality : Quality) (preview : Bool) (id : SocketRole → Nat)
    (later : SocketRole → List (List Char)) : Prop where
  sent : ∀ role ∈ wantedRoles frameTypes, sends (id role) =
    (subscribeSocket frameTypes quality preview role ++ later role).map documentBytes
  texts : ∀ role, ∀ text ∈ later role, ControlText text
  quiet : ∀ role kind, (parsedTexts documentParse (later role)).any (SocketRole.asks kind) = false
  all : ∀ role ∈ wantedRoles frameTypes,
    ((subscribeSocket frameTypes quality preview role).flatMap documentBytes).length ≤
      (heard (id role)).length

section Session
variable {documentParse : List Char → Except String XmlNode}
variable (reads : ReadsEmptyTag documentParse)
variable {sends : Nat → List (List UInt8)} {heard : Nat → List UInt8} {frameTypes : FrameType}
variable {quality : Quality} {preview : Bool} {id : SocketRole → Nat}
variable {later : SocketRole → List (List Char)}
variable (subscribed : Subscribed documentParse sends heard frameTypes quality preview id later)
include reads subscribed

theorem socket_asked (role : SocketRole) (wanted : role ∈ wantedRoles frameTypes) :
    (∀ kind : SocketRole, asksFor (asked documentParse sends heard (id role)) kind.frames =
      (decide (role = kind) && frameTypes.contains kind.frames)) ∧
    ∃ told, told <+: later role ∧ (role = .video → frameTypes.contains .video = true →
      latest previewSetting false (asked documentParse sends heard (id role)) =
        latest previewSetting preview (parsedTexts documentParse told)) := by
  obtain ⟨told, front, same⟩ := asked_behind documentParse sends heard (id role)
    (subscribeSocket frameTypes quality preview role) (later role)
    (List.forall_mem_append.mpr
      ⟨subscribeSocket_text frameTypes quality preview role, subscribed.texts role⟩)
    (subscribed.sent role wanted) (subscribed.all role wanted)
  refine ⟨fun kind => ?_, told, front, fun video asks => ?_⟩
  · have silent : (parsedTexts documentParse told).any kind.asks = false := by
      have quiet := subscribed.quiet role kind
      obtain ⟨rest, split⟩ := front
      rw [← split, parsedTexts, List.flatMap_append, List.any_append, Bool.or_eq_false_iff] at quiet
      exact quiet.1
    rw [same, asksFor_kind, List.any_append, silent, Bool.or_false,
      subscribeSocket_asks documentParse reads]
  · subst video
    rw [same]
    exact subscribeSocket_preview documentParse reads frameTypes quality preview asks _

end Session

def previewSession : SocketRole → List (List Char) := subscribeSocket ⟨6⟩ .medium true

def previewSocket : SocketRole → Nat
  | .video => 1
  | .audio => 2

def previewRole (id : Nat) : SocketRole := if id = 1 then .video else .audio

def previewRead (role : SocketRole) : PeerRead :=
  .data ((previewSession role).flatMap documentBytes) (by cases role <;> decide +kernel)

def previewSends (id : Nat) : List (List UInt8) := (previewSession (previewRole id)).map documentBytes

def previewRuns : List ControlStep :=
  [.pollReads fun id => previewRead (previewRole id), .addPeer none .ok, .addPeer none .ok]

def previewHeard (id : Nat) : List UInt8 :=
  if id ∈ [2, 1] then (previewRead (previewRole id)).bytes else []

def previewSender : ControlledSender :=
  { ControlledSender.init with
    peers := pollPeers readEmptyTag (fun id => previewRead (previewRole id))
      [(2, acceptedPeer none .ok), (1, acceptedPeer none .ok)]
    nextPeerId := 3
    polling := true }

def previewPeer (role : SocketRole) : Peer :=
  let next := ingestPeerBytes (applyMetadata readEmptyTag) {} []
    ((previewSession role).flatMap documentBytes)
  { acceptedPeer none .ok with state := next.1, inbound := next.2 }

theorem previewSession_subscribed : Subscribed readEmptyTag previewSends previewHeard ⟨6⟩ .medium
    true previewSocket (fun _ => []) where
  sent := fun role _ => by cases role <;> rfl
  texts := fun _ text member => absurd member List.not_mem_nil
  quiet := fun _ _ => rfl
  all := fun role _ => by cases role <;> exact Nat.le_refl _

end OpenMediaTransport
