import OpenMediaTransport.PeerControl

/-!
The documents a receiver sends about itself: one empty element with one attribute,
as `metadata.rs` spells them, and the frame that `write_metadata_frame` puts around
one. Of the parser it is relied on only that it reads such an element.
-/

namespace OpenMediaTransport

open Framing Markup Text

namespace Markup

def emptyTag (name key value : List Char) : List Char :=
  '<' :: (name ++ ' ' :: (key ++ '=' :: '"' :: (value ++ "\" />".toList)))

def Letters (text : List Char) : Prop := ∀ char ∈ text, char.isAlpha = true

def ReadsEmptyTag (documentParse : List Char → Except String XmlNode) : Prop :=
  ∀ name key value, Letters name → Letters key → Letters value →
    name ≠ [] → key ≠ [] →
      documentParse (emptyTag name key value) = .ok (.element name [(key, value)] [])

/-- A parser for this one form. -/
def readEmptyTag (xml : List Char) : Except String XmlNode :=
  let body := xml.drop 1
  let name := body.takeWhile Char.isAlpha
  let pair := (body.dropWhile Char.isAlpha).drop 1
  let key := pair.takeWhile Char.isAlpha
  let quoted := (pair.dropWhile Char.isAlpha).drop 2
  let value := quoted.takeWhile Char.isAlpha
  if emptyTag name key value = xml ∧ name ≠ [] ∧ key ≠ [] then
    .ok (.element name [(key, value)] [])
  else .error "not an empty element with one attribute"

theorem takeWhile_letters (front rest : List Char) (char : Char) (letters : Letters front)
    (stop : char.isAlpha = false) :
    (front ++ char :: rest).takeWhile Char.isAlpha = front ∧
      (front ++ char :: rest).dropWhile Char.isAlpha = char :: rest := by
  have other : ¬ char.isAlpha = true := by
    rw [stop]
    exact Bool.false_ne_true
  constructor
  · rw [List.takeWhile_append_of_pos letters, List.takeWhile_cons_of_neg other, List.append_nil]
  · rw [List.dropWhile_append_of_pos letters, List.dropWhile_cons_of_neg other]

theorem readEmptyTag_reads : ReadsEmptyTag readEmptyTag := by
  intro name key value nameLetters keyLetters valueLetters named given
  have tail : "\" />".toList = '"' :: " />".toList := by decide
  obtain ⟨nameTaken, nameLeft⟩ := takeWhile_letters name
    (key ++ '=' :: '"' :: (value ++ "\" />".toList)) ' ' nameLetters (by decide)
  obtain ⟨keyTaken, keyLeft⟩ := takeWhile_letters key
    ('"' :: (value ++ "\" />".toList)) '=' keyLetters (by decide)
  obtain ⟨valueTaken, -⟩ := takeWhile_letters value " />".toList '"' valueLetters (by decide)
  rw [← tail] at valueTaken
  have body : (emptyTag name key value).drop 1 =
      name ++ ' ' :: (key ++ '=' :: '"' :: (value ++ "\" />".toList)) := rfl
  unfold readEmptyTag
  simp only [body, nameTaken, nameLeft, List.drop_succ_cons, List.drop_zero, keyTaken,
    keyLeft, valueTaken]
  exact if_pos ⟨trivial, named, given⟩

end Markup

def subscribeVideo : List Char := "<OMTSubscribe Video=\"true\" />".toList
def subscribeAudio : List Char := "<OMTSubscribe Audio=\"true\" />".toList
def subscribeMetadata : List Char := "<OMTSubscribe Metadata=\"true\" />".toList
def previewOn : List Char := "<OMTSettings Preview=\"true\" />".toList
def previewOff : List Char := "<OMTSettings Preview=\"false\" />".toList

def previewXml (on : Bool) : List Char := if on then previewOn else previewOff

def Quality.asStr : Quality → List Char
  | .default => "Default".toList
  | .low => "Low".toList
  | .medium => "Medium".toList
  | .high => "High".toList

def Quality.code : Quality → Int32
  | .default => 0
  | .low => 1
  | .medium => 50
  | .high => 100

def suggestedQualityXml (quality : Quality) : List Char :=
  "<OMTSettings Quality=\"".toList ++ (quality.asStr ++ "\" />".toList)

section Parsed
variable (documentParse : List Char → Except String XmlNode)
variable (reads : ReadsEmptyTag documentParse)
include reads

theorem parseMetadata_emptyTag (name key value : List Char)
    (letters : (name ++ key ++ value).all Char.isAlpha = true) (named : name ≠ [])
    (given : key ≠ [])
    (other : (emptyTag name key value).take 5 ≠ "<OMTT".toList) :
    parseMetadata documentParse (emptyTag name key value) =
      flattenElement ⟨name, [(key, value)], [], []⟩ := by
  simp only [List.all_append, Bool.and_eq_true, List.all_eq_true] at letters
  have noMark : trimStartMatches (· == '\uFEFF') (emptyTag name key value) =
      emptyTag name key value := List.dropWhile_cons_of_neg (by decide)
  rw [parseMetadata, tallyFromLibomtnetConstant_other _ other]
  dsimp only
  rw [XmlElement.parse, noMark,
    reads name key value letters.1.1 letters.1.2 letters.2 named given]
  rfl

theorem subscribeMetadata_parsed :
    parseMetadata documentParse subscribeMetadata = [.subscribe false false true] :=
  parseMetadata_emptyTag documentParse reads "OMTSubscribe".toList "Metadata".toList "true".toList
    (by decide) (by decide) (by decide) (by decide)

theorem subscribeVideo_parsed :
    parseMetadata documentParse subscribeVideo = [.subscribe true false false] :=
  parseMetadata_emptyTag documentParse reads "OMTSubscribe".toList "Video".toList "true".toList
    (by decide) (by decide) (by decide) (by decide)

theorem previewXml_parsed (on : Bool) :
    parseMetadata documentParse (previewXml on) = [.settings (some on) none] := by
  cases on with
  | true =>
      exact parseMetadata_emptyTag documentParse reads "OMTSettings".toList "Preview".toList
        "true".toList (by decide) (by decide) (by decide) (by decide)
  | false =>
      exact parseMetadata_emptyTag documentParse reads "OMTSettings".toList "Preview".toList
        "false".toList (by decide) (by decide) (by decide) (by decide)

theorem suggestedQualityXml_parsed (quality : Quality) :
    parseMetadata documentParse (suggestedQualityXml quality) =
      [.settings none (some quality)] := by
  have parsed := parseMetadata_emptyTag documentParse reads "OMTSettings".toList
    "Quality".toList quality.asStr (by cases quality <;> decide) (by decide) (by decide)
    (by cases quality <;> decide)
  have named : qualityFromName quality.asStr = some quality := by cases quality <;> decide
  have setting : flattenElement ⟨"OMTSettings".toList, [("Quality".toList, quality.asStr)], [], []⟩ =
      [.settings none (qualityFromName quality.asStr)] := rfl
  exact parsed.trans (by rw [setting, named])

end Parsed

/-! The frame around a document. -/

/-- The frame of `write_metadata_frame`; the length is cut to 32 bits. -/
def documentFrame (xml : List Char) : AssembledFrame where
  header := ⟨protocolVersion, .metadata, 0, 0, .ofNat (Utf8.encode xml).length⟩
  video := none
  audio := none
  data := Utf8.encode xml
  metadata := []

def documentBytes (xml : List Char) : List UInt8 := (documentFrame xml).toBytes

/-- A document that a sender's input buffer takes. -/
structure ControlText (xml : List Char) : Prop where
  clean : Char.ofNat 0 ∉ xml
  small : headerSize + (Utf8.encode xml).length ≤ controlFrameMax

section Frames
variable (xml : List Char) (text : ControlText xml)
include text

theorem documentFrame_carries : MetadataText (documentFrame xml) xml false where
  formed := by
    have small := text.small
    unfold controlFrameMax headerSize at small
    have length : (Int32.ofNat (Utf8.encode xml).length).toInt = (Utf8.encode xml).length :=
      Int32.toInt_ofNat_of_lt (by omega)
    have noVideo : FrameType.metadata.contains .video = false := by decide
    have noAudio : FrameType.metadata.contains .audio = false := by decide
    refine ⟨rfl, rfl, ?_, noVideo.symm, ?_⟩
    case refine_2 =>
      change false = (FrameType.metadata.contains .audio && _)
      rw [noAudio, Bool.false_and]
    rw [documentFrame, length]
    simp [AssembledFrame.extBytes]
  type := rfl
  bare := rfl
  clean := text.clean
  data := (List.append_nil _).symm

theorem documentBytes_control : ControlFrame (documentBytes xml) where
  whole := carried_whole (documentFrame xml) xml false (documentFrame_carries xml text)
  small := by
    have small := text.small
    rw [documentBytes, AssembledFrame.toBytes, List.length_append, FrameHeader.toBytes_length]
    simpa [AssembledFrame.extBytes, documentFrame] using small

theorem documentBytes_applied {σ : Type} (apply : σ → List Char → σ) (state : σ) :
    ingestFrame apply state (documentBytes xml) = apply state xml := by
  rw [ingestFrame_texts, documentBytes,
    carried_applied (documentFrame xml) xml false (documentFrame_carries xml text)]
  rfl
end Frames

end OpenMediaTransport
