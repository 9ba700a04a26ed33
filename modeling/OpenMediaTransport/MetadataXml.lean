import OpenMediaTransport.Markup
import OpenMediaTransport.Text
import OpenMediaTransport.WireTypes

/-!
`xml.rs` and the parser of `metadata.rs`. A document comes from `roxmltree`,
which is a parameter: it answers with the root node of a text, or with the
reason it is not one. Whatever that tree is, the elements read from it and the
typed documents are computed here. The four tally texts are compared whole,
before any parsing.
-/

namespace OpenMediaTransport

open Markup Text

structure XmlElement where
  name : List Char
  attributes : List (List Char × List Char)
  children : List XmlElement
  text : List Char

/-- The character data directly under a node. -/
def textOf : List XmlNode → List Char
  | [] => []
  | .text content :: rest => content ++ textOf rest
  | _ :: rest => textOf rest

mutual
/-- `from_node`; a node that is no element has no name, attributes or children. -/
def fromNode : XmlNode → XmlElement
  | .element name attributes children =>
      ⟨name, attributes, fromChildren children, trim (textOf children)⟩
  | .text _ => ⟨[], [], [], []⟩
  | .other => ⟨[], [], [], []⟩

def fromChildren : List XmlNode → List XmlElement
  | [] => []
  | .element name attributes children :: rest =>
      fromNode (.element name attributes children) :: fromChildren rest
  | .text _ :: rest => fromChildren rest
  | .other :: rest => fromChildren rest
end

/-- `XmlElement::parse`: leading byte-order marks are dropped. -/
def XmlElement.parse (documentParse : List Char → Except String XmlNode) (xml : List Char) :
    Except OmtError XmlElement :=
  match documentParse (trimStartMatches (· == '\uFEFF') xml) with
  | .ok root => .ok (fromNode root)
  | .error reason => .error (.protocol (.invalidMetadataXml reason))

def parseBool (value : List Char) : Option Bool :=
  let trimmed := trim value
  if eqIgnoreAsciiCase trimmed "true".toList || trimmed == "1".toList then some true
  else if eqIgnoreAsciiCase trimmed "false".toList || trimmed == "0".toList then some false
  else none

namespace XmlElement

def attr (element : XmlElement) (name : List Char) : Option (List Char) :=
  (element.attributes.find? fun pair => pair.1 == name).map (·.2)

def attrBool (element : XmlElement) (name : List Char) : Option Bool :=
  (element.attr name).bind parseBool

def child (element : XmlElement) (name : List Char) : Option XmlElement :=
  element.children.find? fun candidate => candidate.name == name

def childrenNamed (element : XmlElement) (name : List Char) : List XmlElement :=
  element.children.filter fun candidate => candidate.name == name

/-- Text of the first child named `name`; an empty text counts as absent. -/
def childText (element : XmlElement) (name : List Char) : Option (List Char) :=
  match element.child name with
  | none => none
  | some found => if found.text.isEmpty then none else some found.text

end XmlElement

structure SenderInfo where
  productName : List Char
  manufacturer : List Char
  version : List Char

structure PtzMetadata where
  protocol : List Char
  url : Option (List Char)
  sequence : Option (List Char)
  command : Option (List Char)
  reply : Option (List Char)

structure AncillaryPacket where
  attributes : List (List Char × List Char)
  payload : List Char

structure AncillaryMetadata where
  xmlns : Option (List Char)
  packets : List AncillaryPacket

inductive Metadata where
  | subscribe (video audio metadata : Bool)
  | settings (preview : Option Bool) (quality : Option Quality)
  | tally (tally : Tally)
  | senderInfo (info : SenderInfo)
  | redirect (newAddress : List Char)
  | address (name : List Char) (port : UInt16) (removed : Bool) (addresses : List (List Char))
  | web (url : List Char)
  | ptz (ptz : PtzMetadata)
  | ancillary (ancillary : AncillaryMetadata)
  | unknown (element : XmlElement)

def qualityFromName (name : List Char) : Option Quality :=
  if name == "Default".toList then some .default
  else if name == "Low".toList then some .low
  else if name == "Medium".toList then some .medium
  else if name == "High".toList then some .high
  else none

/-- `i32::from` of a flag that may be absent. -/
def lampOf (lit : Option Bool) : Int32 := if lit.getD false then 1 else 0

def addressMetadata (element : XmlElement) : Metadata :=
  .address ((element.childText "Name".toList).getD [])
    (((element.childText "Port".toList).bind parseU16).getD 0)
    (((element.childText "Removed".toList).bind parseBool).getD false)
    (match element.child "Addresses".toList with
      | none => []
      | some list =>
          (list.childrenNamed "IPAddress".toList ++ list.childrenNamed "Address".toList).map
            (·.text))

def ancillaryMetadata (element : XmlElement) : Metadata :=
  .ancillary {
    xmlns := (element.attr "xmlns".toList).or (element.attr "xmns".toList)
    packets := (element.childrenNamed "Packet".toList).map fun packet =>
      { attributes := packet.attributes
        payload := (packet.childText "Payload".toList).getD [] } }

def elementToMetadata (element : XmlElement) : Metadata :=
  if element.name == "OMTSubscribe".toList then
    .subscribe ((element.attrBool "Video".toList).getD false)
      ((element.attrBool "Audio".toList).getD false)
      ((element.attrBool "Metadata".toList).getD false)
  else if element.name == "OMTSettings".toList then
    .settings (element.attrBool "Preview".toList)
      ((element.attr "Quality".toList).bind qualityFromName)
  else if element.name == "OMTTally".toList then
    .tally { preview := lampOf (element.attrBool "Preview".toList)
             program := lampOf (element.attrBool "Program".toList) }
  else if element.name == "OMTInfo".toList then
    .senderInfo {
      productName := (element.attr "ProductName".toList).getD []
      manufacturer := (element.attr "Manufacturer".toList).getD []
      version := (element.attr "Version".toList).getD [] }
  else if element.name == "OMTRedirect".toList then
    .redirect ((element.attr "NewAddress".toList).getD [])
  else if element.name == "OMTAddress".toList then addressMetadata element
  else if element.name == "OMTWeb".toList then .web ((element.attr "URL".toList).getD [])
  else if element.name == "OMTPTZ".toList then
    .ptz {
      protocol := (element.attr "Protocol".toList).getD []
      url := element.attr "URL".toList
      sequence := element.attr "Sequence".toList
      command := element.attr "Command".toList
      reply := element.attr "Reply".toList }
  else if element.name == "AncillaryData".toList then ancillaryMetadata element
  else .unknown element

mutual
/-- `flatten(element_to_metadata(element))`: only a group is opened. -/
def flattenElement : XmlElement → List Metadata
  | ⟨name, attributes, children, text⟩ =>
      if name == "OMTGroup".toList then flattenAll children
      else [elementToMetadata ⟨name, attributes, children, text⟩]

def flattenAll : List XmlElement → List Metadata
  | [] => []
  | element :: rest => flattenElement element ++ flattenAll rest
end

/-! The tally texts, with their doubled equals sign. -/

def tallyPreview : List Char := "<OMTTally Preview=\"true\" Program==\"false\" />".toList
def tallyProgram : List Char := "<OMTTally Preview=\"false\" Program==\"true\" />".toList
def tallyPreviewProgram : List Char := "<OMTTally Preview=\"true\" Program==\"true\" />".toList
def tallyNone : List Char := "<OMTTally Preview=\"false\" Program==\"false\" />".toList

def tallyFromLibomtnetConstant (xml : List Char) : Option Tally :=
  if xml == tallyPreview then some { preview := 1, program := 0 }
  else if xml == tallyProgram then some { preview := 0, program := 1 }
  else if xml == tallyPreviewProgram then some { preview := 1, program := 1 }
  else if xml == tallyNone then some { preview := 0, program := 0 }
  else none

/-- All four texts are recognised, and ruled out, by how they begin. -/
theorem tallyFromLibomtnetConstant_other (xml : List Char)
    (other : xml.take 5 ≠ "<OMTT".toList) : tallyFromLibomtnetConstant xml = none := by
  have apart (constant : List Char) (start : constant.take 5 = "<OMTT".toList) :
      (xml == constant) = false := by
    apply beq_false_of_ne
    intro same
    rw [same] at other
    exact other start
  unfold tallyFromLibomtnetConstant
  rw [apart tallyPreview (by decide), apart tallyProgram (by decide),
    apart tallyPreviewProgram (by decide), apart tallyNone (by decide)]
  rfl

/-- Parse XML into typed documents. `<OMTGroup>` children are flattened. -/
def parseMetadata (documentParse : List Char → Except String XmlNode) (xml : List Char) :
    List Metadata :=
  match tallyFromLibomtnetConstant xml with
  | some tally => [.tally tally]
  | none =>
      match XmlElement.parse documentParse xml with
      | .ok root => flattenElement root
      | .error _ => []

/-! The element walk is `flatten` of `metadata.rs`. -/

theorem flattenAll_flatMap (elements : List XmlElement) :
    flattenAll elements = elements.flatMap flattenElement := by
  induction elements with
  | nil => rfl
  | cons element rest ih => rw [flattenAll, ih, List.flatMap_cons]

/-- Where a metadata is an unknown element, it is this one. -/
def KeepsElement (element : XmlElement) (item : Metadata) : Prop :=
  ∀ kept, item = .unknown kept → kept = element

theorem keepsElement_ite (element : XmlElement) (hit : Bool) (item other : Metadata)
    (front : KeepsElement element item) (back : KeepsElement element other) :
    KeepsElement element (if hit = true then item else other) := by
  cases hit with
  | true => exact front
  | false => exact back

theorem elementToMetadata_keeps (element : XmlElement) :
    KeepsElement element (elementToMetadata element) := by
  unfold elementToMetadata
  repeat' apply keepsElement_ite
  all_goals
    intro kept same
    cases same
  rfl

theorem elementToMetadata_group (element : XmlElement)
    (group : element.name = "OMTGroup".toList) : elementToMetadata element = .unknown element := by
  unfold elementToMetadata
  rw [group]
  rfl

theorem flattenElement_metadata (element : XmlElement) :
    flattenElement element =
      match elementToMetadata element with
      | .unknown group =>
          if group.name == "OMTGroup".toList then group.children.flatMap flattenElement
          else [.unknown group]
      | item => [item] := by
  have kept := elementToMetadata_keeps element
  rcases element with ⟨name, attributes, children, text⟩
  rw [flattenElement]
  by_cases group : name = "OMTGroup".toList
  · subst group
    rw [elementToMetadata_group _ rfl, if_pos (beq_self_eq_true _), flattenAll_flatMap]
    rfl
  · have other : ¬ (name == "OMTGroup".toList) = true := fun same => group (beq_iff_eq.mp same)
    rw [if_neg other]
    cases item : elementToMetadata ⟨name, attributes, children, text⟩ with
    | unknown element =>
        cases kept element item
        exact (if_neg other).symm
    | _ => rfl

/-! The texts read from a clean tree are trimmed, and made of XML characters. -/

def cleanText (text : List Char) : Bool := text.all xmlChar && trim text == text

mutual
def XmlElement.clean : XmlElement → Bool
  | ⟨_, _, children, text⟩ => cleanText text && cleanElements children

def cleanElements : List XmlElement → Bool
  | [] => true
  | element :: rest => element.clean && cleanElements rest
end

theorem cleanElements_iff (elements : List XmlElement) :
    cleanElements elements = true ↔ ∀ element ∈ elements, element.clean = true := by
  induction elements with
  | nil => simp [cleanElements]
  | cons element rest ih => simp [cleanElements, ih]

theorem textOf_clean (nodes : List XmlNode) (clean : cleanAll nodes = true) :
    (textOf nodes).all xmlChar = true := by
  induction nodes with
  | nil => rfl
  | cons node rest ih =>
      obtain ⟨first, later⟩ := Bool.and_eq_true_iff.mp clean
      cases node with
      | text content =>
          rw [textOf, List.all_append, ih later, Bool.and_true]
          exact first
      | _ => exact ih later

theorem trim_clean (text : List Char) (clean : text.all xmlChar = true) :
    cleanText (trim text) = true := by
  rw [List.all_eq_true] at clean
  rw [cleanText, trim_trim, beq_self_eq_true, Bool.and_true, List.all_eq_true]
  exact fun char member => clean char (trim_subset text char member)

mutual
theorem fromNode_clean : (node : XmlNode) → node.clean = true → (fromNode node).clean = true
  | .element _ _ children, clean => by
      rw [fromNode, XmlElement.clean, fromChildren_clean children clean,
        trim_clean _ (textOf_clean children clean)]
      rfl
  | .text _, _ => rfl
  | .other, _ => rfl

theorem fromChildren_clean : (nodes : List XmlNode) → cleanAll nodes = true →
    cleanElements (fromChildren nodes) = true
  | [], _ => rfl
  | .element name attributes children :: rest, clean => by
      obtain ⟨first, later⟩ := Bool.and_eq_true_iff.mp clean
      rw [fromChildren, cleanElements, fromNode_clean (.element name attributes children) first,
        fromChildren_clean rest later]
      rfl
  | .text _ :: rest, clean => fromChildren_clean rest (Bool.and_eq_true_iff.mp clean).2
  | .other :: rest, clean => fromChildren_clean rest (Bool.and_eq_true_iff.mp clean).2
end

theorem childText_clean (element : XmlElement) (clean : element.clean = true) (name : List Char) :
    cleanText ((element.childText name).getD []) = true := by
  rcases element with ⟨_, _, children, _⟩
  obtain ⟨_, inner⟩ := Bool.and_eq_true_iff.mp clean
  unfold XmlElement.childText XmlElement.child
  cases found : children.find? fun candidate => candidate.name == name with
  | none => rfl
  | some child =>
      have kept := (cleanElements_iff children).mp inner child (List.mem_of_find?_eq_some found)
      dsimp only
      split
      · rfl
      · rcases child with ⟨_, _, _, _⟩
        exact (Bool.and_eq_true_iff.mp kept).1

def Metadata.isAddress : Metadata → Bool
  | .address _ _ _ _ => true
  | _ => false

theorem elementToMetadata_holds (holds : Metadata → Prop) (element : XmlElement)
    (address : holds (addressMetadata element))
    (other : ∀ item : Metadata, item.isAddress = false → holds item) :
    holds (elementToMetadata element) := by
  have test (name : List Char) (first later : Metadata) (one : holds first) (rest : holds later) :
      holds (if element.name == name then first else later) := by
    split
    · exact one
    · exact rest
  apply test _ _ _ (other _ rfl)
  apply test _ _ _ (other _ rfl)
  apply test _ _ _ (other _ rfl)
  apply test _ _ _ (other _ rfl)
  apply test _ _ _ (other _ rfl)
  apply test _ _ _ address
  apply test _ _ _ (other _ rfl)
  apply test _ _ _ (other _ rfl)
  apply test _ _ _ (other _ rfl)
  exact other _ rfl

/-- The name an address document carries is a clean text. -/
def NameClean : Metadata → Prop
  | .address name _ _ _ => cleanText name = true
  | _ => True

theorem elementToMetadata_clean (element : XmlElement) (clean : element.clean = true) :
    NameClean (elementToMetadata element) := by
  apply elementToMetadata_holds NameClean element (childText_clean element clean _)
  intro item other
  cases item with
  | address _ _ _ _ => cases other
  | _ => trivial

def HostsClean : Metadata → Prop
  | .address _ _ _ addresses => ∀ ip ∈ addresses, cleanText ip = true
  | _ => True

theorem childrenNamed_clean (element : XmlElement) (clean : element.clean = true)
    (name : List Char) : ∀ child ∈ element.childrenNamed name, cleanText child.text = true := by
  rcases element with ⟨_, _, children, _⟩
  obtain ⟨_, inner⟩ := Bool.and_eq_true_iff.mp clean
  intro child member
  have kept := (cleanElements_iff children).mp inner child (List.mem_filter.mp member).1
  rcases child with ⟨_, _, _, _⟩
  exact (Bool.and_eq_true_iff.mp kept).1

theorem addressMetadata_hosts (element : XmlElement) (clean : element.clean = true) :
    HostsClean (addressMetadata element) := by
  unfold addressMetadata HostsClean
  intro ip member
  cases found : element.child "Addresses".toList with
  | none =>
      rw [found] at member
      cases member
  | some list =>
      rw [found] at member
      have listClean : list.clean = true := by
        rcases element with ⟨_, _, children, _⟩
        exact (cleanElements_iff children).mp (Bool.and_eq_true_iff.mp clean).2 list
          (List.mem_of_find?_eq_some found)
      obtain ⟨child, either, rfl⟩ := List.mem_map.mp member
      rcases List.mem_append.mp either with front | back
      · exact childrenNamed_clean list listClean _ child front
      · exact childrenNamed_clean list listClean _ child back

theorem elementToMetadata_hosts (element : XmlElement) (clean : element.clean = true) :
    HostsClean (elementToMetadata element) := by
  apply elementToMetadata_holds HostsClean element (addressMetadata_hosts element clean)
  intro item other
  cases item with
  | address _ _ _ _ => cases other
  | _ => trivial

mutual
/-- What holds of every clean element's metadata holds of all that a clean document gives. -/
theorem flattenElement_keeps (keeps : Metadata → Prop)
    (each : ∀ element : XmlElement, element.clean = true → keeps (elementToMetadata element)) :
    (element : XmlElement) → element.clean = true → ∀ item ∈ flattenElement element, keeps item
  | ⟨name, attributes, children, text⟩, clean, item, member => by
      rw [flattenElement] at member
      split at member
      · exact flattenAll_keeps keeps each children (Bool.and_eq_true_iff.mp clean).2 item member
      · rw [List.mem_singleton.mp member]
        exact each _ clean

theorem flattenAll_keeps (keeps : Metadata → Prop)
    (each : ∀ element : XmlElement, element.clean = true → keeps (elementToMetadata element)) :
    (elements : List XmlElement) → cleanElements elements = true →
    ∀ item ∈ flattenAll elements, keeps item
  | [], _, _, member => by cases member
  | element :: rest, clean, item, member => by
      obtain ⟨first, later⟩ := Bool.and_eq_true_iff.mp clean
      rcases List.mem_append.mp member with front | back
      · exact flattenElement_keeps keeps each element first item front
      · exact flattenAll_keeps keeps each rest later item back
end

theorem parseMetadata_keeps (keeps : Metadata → Prop)
    (each : ∀ element : XmlElement, element.clean = true → keeps (elementToMetadata element))
    (tallies : ∀ tally, keeps (.tally tally))
    (documentParse : List Char → Except String XmlNode) (reads : ReadsXml documentParse)
    (xml : List Char) : ∀ item ∈ parseMetadata documentParse xml, keeps item := by
  intro item member
  unfold parseMetadata at member
  split at member
  · rw [List.mem_singleton.mp member]
    exact tallies _
  · split at member
    · rename_i root accepted
      unfold XmlElement.parse at accepted
      split at accepted
      · rename_i node parsed
        cases accepted
        exact flattenElement_keeps keeps each _
          (fromNode_clean node (reads.clean _ node parsed)) item member
      · cases accepted
    · cases member

theorem parseMetadata_clean (documentParse : List Char → Except String XmlNode)
    (reads : ReadsXml documentParse) (xml : List Char) :
    ∀ item ∈ parseMetadata documentParse xml, NameClean item :=
  parseMetadata_keeps NameClean elementToMetadata_clean (fun _ => trivial) documentParse reads xml

theorem parseMetadata_hosts (documentParse : List Char → Except String XmlNode)
    (reads : ReadsXml documentParse) (xml : List Char) :
    ∀ item ∈ parseMetadata documentParse xml, HostsClean item :=
  parseMetadata_keeps HostsClean elementToMetadata_hosts (fun _ => trivial) documentParse reads xml

end OpenMediaTransport
