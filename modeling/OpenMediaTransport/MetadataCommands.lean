import OpenMediaTransport.PeerControl

/-!
Three functions read control documents: the sender's control plane changes the state of
a peer by `apply_metadata`, `classify` lists commands, and `is_subscribe` answers for one
kind of media. They read the parsed documents independently of each other.
-/

namespace OpenMediaTransport

open Markup

inductive MetadataCommand where
  | subscribeVideo
  | subscribeAudio
  | subscribeMetadata
  | previewOn
  | previewOff
  | quality (quality : Quality)
  | tally (tally : Tally)
  deriving DecidableEq

def metadataToCommands : Metadata → List MetadataCommand
  | .subscribe video audio metadata =>
      (if video then [.subscribeVideo] else []) ++
        (if audio then [.subscribeAudio] else []) ++
          if metadata then [.subscribeMetadata] else []
  | .settings preview quality =>
      (match preview with
        | some on => [if on then .previewOn else .previewOff]
        | none => []) ++
        match quality with
        | some quality => [.quality quality]
        | none => []
  | .tally tally => [.tally tally]
  | _ => []

/-- The pattern that `is_subscribe` looks for. -/
def matchesKind (kind : List Char) : Metadata → Bool
  | .subscribe video audio metadata =>
      (kind == "Video".toList && video) || (kind == "Audio".toList && audio) ||
        (kind == "Metadata".toList && metadata)
  | _ => false

section Readings
variable (documentParse : List Char → Except String XmlNode)

def classify (xml : List Char) : List MetadataCommand :=
  (parseMetadata documentParse xml).flatMap metadataToCommands

def isSubscribe (xml kind : List Char) : Bool :=
  (parseMetadata documentParse xml).any (matchesKind kind)
end Readings

def applyCommand (state : PeerState) : MetadataCommand → PeerState
  | .subscribeVideo => { state with video := true }
  | .subscribeAudio => { state with audio := true }
  | .subscribeMetadata => { state with metadata := true }
  | .previewOn => { state with preview := true }
  | .previewOff => { state with preview := false }
  | .quality quality => { state with quality }
  | .tally tally => { state with tally }

/-- One document does what its commands do one after the other. -/
theorem commands_apply (state : PeerState) (item : Metadata) :
    (metadataToCommands item).foldl applyCommand state = applyItem state item := by
  cases item with
  | subscribe video audio metadata => cases video <;> cases audio <;> cases metadata <;> rfl
  | settings preview quality =>
      cases preview with
      | none => cases quality <;> rfl
      | some on => cases on <;> cases quality <;> rfl
  | tally tally => rfl
  | senderInfo info => rfl
  | redirect newAddress => rfl
  | address name port removed addresses => rfl
  | web url => rfl
  | ptz ptz => rfl
  | ancillary ancillary => rfl
  | unknown element => rfl

theorem foldl_commands (items : List Metadata) (state : PeerState) :
    items.foldl applyItem state = (items.flatMap metadataToCommands).foldl applyCommand state := by
  induction items generalizing state with
  | nil => rfl
  | cons item rest ih =>
      rw [List.foldl_cons, ih, List.flatMap_cons, List.foldl_append, commands_apply]

/-- The word that stands for a subscription in the calls of `is_subscribe`. -/
def MetadataCommand.keyword : MetadataCommand → Option (List Char)
  | .subscribeVideo => some "Video".toList
  | .subscribeAudio => some "Audio".toList
  | .subscribeMetadata => some "Metadata".toList
  | _ => none

/-- Settings and tally make commands of their own only. -/
theorem settings_commands (preview : Option Bool) (quality : Option Quality)
    (command : MetadataCommand)
    (listed : command ∈ metadataToCommands (.settings preview quality)) :
    command.keyword = none := by
  cases preview with
  | none =>
      cases quality with
      | none => cases listed
      | some level =>
          cases List.mem_singleton.mp listed
          rfl
  | some on =>
      rcases List.mem_append.mp listed with switched | rated
      · cases List.mem_singleton.mp switched
        cases on <;> rfl
      · cases quality with
        | none => cases rated
        | some level =>
            cases List.mem_singleton.mp rated
            rfl

theorem keyword_listed (command : MetadataCommand) (kind : List Char)
    (named : command.keyword = some kind) (item : Metadata) :
    command ∈ metadataToCommands item ↔ matchesKind kind item = true := by
  cases item with
  | subscribe video audio metadata =>
      cases command with
      | subscribeVideo =>
          cases named
          simp [metadataToCommands, matchesKind]
      | subscribeAudio =>
          cases named
          simp [metadataToCommands, matchesKind]
      | subscribeMetadata =>
          cases named
          simp [metadataToCommands, matchesKind]
      | _ => cases named
  | settings preview quality =>
      constructor
      · intro listed
        rw [settings_commands preview quality command listed] at named
        cases named
      · intro matched
        cases matched
  | tally tally =>
      constructor
      · intro listed
        cases List.mem_singleton.mp listed
        cases named
      · intro matched
        cases matched
  | _ => simp [metadataToCommands, matchesKind]

theorem isSubscribe_listed (documentParse : List Char → Except String XmlNode)
    (command : MetadataCommand) (kind : List Char) (named : command.keyword = some kind)
    (xml : List Char) :
    isSubscribe documentParse xml kind = true ↔ command ∈ classify documentParse xml := by
  rw [isSubscribe, classify, List.any_eq_true, List.mem_flatMap]
  constructor
  · rintro ⟨item, parsed, matched⟩
    exact ⟨item, parsed, (keyword_listed command kind named item).mpr matched⟩
  · rintro ⟨item, parsed, listed⟩
    exact ⟨item, parsed, (keyword_listed command kind named item).mp listed⟩

/-- The readings agree, for documents however they were parsed and for every text, whatever
the XML parser makes of it. -/
theorem control_readings (documentParse : List Char → Except String XmlNode) :
    (∀ (items : List Metadata) (state : PeerState),
      items.foldl applyItem state =
        (items.flatMap metadataToCommands).foldl applyCommand state) ∧
    (∀ (xml : List Char) (state : PeerState),
      applyMetadata documentParse state xml =
        (classify documentParse xml).foldl applyCommand state) ∧
    (∀ xml : List Char,
      (isSubscribe documentParse xml "Video".toList = true ↔
        .subscribeVideo ∈ classify documentParse xml) ∧
      (isSubscribe documentParse xml "Audio".toList = true ↔
        .subscribeAudio ∈ classify documentParse xml) ∧
      (isSubscribe documentParse xml "Metadata".toList = true ↔
        .subscribeMetadata ∈ classify documentParse xml)) :=
  ⟨foldl_commands,
    fun xml state => foldl_commands (parseMetadata documentParse xml) state,
    fun xml =>
      ⟨isSubscribe_listed documentParse .subscribeVideo _ rfl xml,
        isSubscribe_listed documentParse .subscribeAudio _ rfl xml,
        isSubscribe_listed documentParse .subscribeMetadata _ rfl xml⟩⟩

end OpenMediaTransport
