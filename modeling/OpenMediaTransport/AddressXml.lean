import OpenMediaTransport.SettledNames

/-!
Address documents, written by `to_xml` and read by `from_xml`. Of the parser it is
relied on only that it reads documents back; the rest is the code's own: the
escapes it writes, the children it looks for, and a name that was read before
being the same name when it is read again.
-/

namespace OpenMediaTransport

open Markup Text

/-- `escape_xml` of `address.rs`: four replacements, one after the other. -/
def escapeXml (text : List Char) : List Char :=
  replaceChar (replaceChar (replaceChar (replaceChar text '&' "&amp;".toList)
    '<' "&lt;".toList) '>' "&gt;".toList) '"' "&quot;".toList

namespace OmtAddress

def ipLine (ip : List Char) : List Char :=
  "    <IPAddress>".toList ++ (escapeXml ip ++ "</IPAddress>\n".toList)

/-- The addresses written: the unspecified one where there is none. -/
def writtenIps (address : OmtAddress) : List (List Char) :=
  if address.addresses.isEmpty then ["0.0.0.0".toList] else address.addresses

def toXml (address : OmtAddress) : List Char :=
  "<OMTAddress>\n  <Name>".toList ++ (escapeXml address.instanceName ++
    ("</Name>\n  <Port>".toList ++ (decimal address.port.toNat ++ ("</Port>\n".toList ++
      ((if address.removed then "  <Removed>True</Removed>\n".toList else []) ++
        ("  <Addresses>\n".toList ++ (address.writtenIps.flatMap ipLine ++
          "  </Addresses>\n</OMTAddress>".toList)))))))

end OmtAddress

/-! The document it is. -/

def ipContent (ips : List (List Char)) : Content :=
  ips.foldr (fun ip rest => .more "\n    ".toList "IPAddress".toList (.last ip) rest)
    (.last "\n  ".toList)

def addressesContent (ips : List (List Char)) : Content :=
  .more "\n  ".toList "Addresses".toList (ipContent ips) (.last "\n".toList)

def addressContent (address : OmtAddress) : Content :=
  .more "\n  ".toList "Name".toList (.last address.instanceName)
    (.more "\n  ".toList "Port".toList (.last (decimal address.port.toNat))
      (if address.removed then
        .more "\n  ".toList "Removed".toList (.last "True".toList)
          (addressesContent address.writtenIps)
      else addressesContent address.writtenIps))

def writableChar (char : Char) : Bool := xmlChar char && char != '\r'

def Writable (text : List Char) : Prop := ∀ char ∈ text, writableChar char = true

def escapeChar (char : Char) : List Char :=
  if char = '&' then "&amp;".toList
  else if char = '<' then "&lt;".toList
  else if char = '>' then "&gt;".toList
  else if char = '"' then "&quot;".toList
  else [char]

theorem escapeXml_chars (text : List Char) : escapeXml text = text.flatMap escapeChar := by
  have each := replaceChars_flatMap [('&', "&amp;".toList), ('<', "&lt;".toList),
    ('>', "&gt;".toList), ('"', "&quot;".toList)] text (by decide)
  exact each.trans (List.flatMap_congr fun _ _ => rfl)

theorem escapeXml_written (text : List Char) (writable : Writable text) :
    WrittenText text (escapeXml text) := by
  rw [escapeXml_chars]
  induction text with
  | nil => exact .nil
  | cons char rest ih =>
      have later := ih fun other member => writable other (List.mem_cons_of_mem _ member)
      have allowed := writable char List.mem_cons_self
      rw [List.flatMap_cons]
      unfold escapeChar
      split
      · rename_i hit
        exact .entity char "amp".toList rest _ (by rw [hit]; rfl) later
      split
      · rename_i hit
        exact .entity char "lt".toList rest _ (by rw [hit]; rfl) later
      split
      · rename_i hit
        exact .entity char "gt".toList rest _ (by rw [hit]; rfl) later
      split
      · rename_i hit
        exact .entity char "quot".toList rest _ (by rw [hit]; rfl) later
      · refine .bare char rest _ ?_ later
        simp only [writableChar, Bool.and_eq_true, bne_iff_ne] at allowed
        simp only [bareChar, Bool.and_eq_true, bne_iff_ne]
        tauto

theorem bare_written (text : List Char) (stands : text.all bareChar = true) :
    WrittenText text text := by
  induction text with
  | nil => exact .nil
  | cons char rest ih =>
      obtain ⟨first, later⟩ := Bool.and_eq_true_iff.mp stands
      exact .bare char rest rest first (ih later)

theorem ipContent_written (ips : List (List Char)) (writable : ∀ ip ∈ ips, Writable ip) :
    Written (ipContent ips) ("\n".toList ++ (ips.flatMap OmtAddress.ipLine ++ "  ".toList)) := by
  have indented : "\n    ".toList = "\n".toList ++ "    ".toList := by decide
  have opened : "    <IPAddress>".toList = "    ".toList ++ opening "IPAddress".toList := by decide
  have closed : "</IPAddress>\n".toList = closing "IPAddress".toList ++ "\n".toList := by decide
  unfold ipContent OmtAddress.ipLine
  rw [opened, closed]
  induction ips with
  | nil =>
      have gap : WrittenText "\n  ".toList "\n  ".toList := bare_written _ (by decide)
      have same : "\n".toList ++ "  ".toList = "\n  ".toList := by decide
      rw [List.flatMap_nil, List.nil_append, same]
      exact .last _ _ gap
  | cons ip rest ih =>
      have later := ih fun other member => writable other (List.mem_cons_of_mem _ member)
      have own := escapeXml_written ip (writable ip List.mem_cons_self)
      have gap : WrittenText "\n    ".toList "\n    ".toList := bare_written _ (by decide)
      have named : tagName "IPAddress".toList = true := by decide
      have whole := Written.more _ _ _ _ _ (.last ip) _ gap named (.last _ _ own) later
      rw [indented] at whole
      rw [List.flatMap_cons]
      simp only [List.append_assoc] at whole ⊢
      exact whole

theorem field_written (name text written after : List Char) (rest : Content)
    (data : WrittenText text written) (named : tagName name = true) (later : Written rest after) :
    Written (.more "\n  ".toList name (.last text) rest)
      ("\n  ".toList ++ (opening name ++ (written ++ (closing name ++ after)))) := by
  have gap : WrittenText "\n  ".toList "\n  ".toList := bare_written _ (by decide)
  exact Written.more _ _ _ _ _ _ _ gap named (.last _ _ data) later

theorem addressesContent_written (ips : List (List Char)) (writable : ∀ ip ∈ ips, Writable ip) :
    Written (addressesContent ips)
      ("\n  ".toList ++ (opening "Addresses".toList ++
        (("\n".toList ++ (ips.flatMap OmtAddress.ipLine ++ "  ".toList)) ++
          (closing "Addresses".toList ++ "\n".toList)))) := by
  have gap : WrittenText "\n  ".toList "\n  ".toList := bare_written _ (by decide)
  have ending : WrittenText "\n".toList "\n".toList := bare_written _ (by decide)
  have named : tagName "Addresses".toList = true := by decide
  exact Written.more _ _ _ _ _ _ _ gap named (ipContent_written ips writable) (.last _ _ ending)

theorem decimal_written (value : Nat) : WrittenText (decimal value) (decimal value) := by
  refine bare_written _ (List.all_eq_true.mpr fun char member => ?_)
  have digit := decimal_digit value char member
  have low : char.toNat < 128 := Nat.lt_of_le_of_lt (digit_code char digit).2 (by decide)
  have checked := ascii_all (fun char => !char.isDigit || bareChar char) (by decide) char low
  rw [digit] at checked
  exact checked

/-- What `to_xml` writes is a document, and the one above. -/
theorem toXml_written (address : OmtAddress) (named : Writable address.instanceName)
    (hosts : ∀ ip ∈ address.writtenIps, Writable ip) :
    WrittenDocument "OMTAddress".toList (addressContent address) address.toXml := by
  have name := escapeXml_written _ named
  have port := decimal_written address.port.toNat
  have list := addressesContent_written _ hosts
  have top : "<OMTAddress>\n  <Name>".toList =
      opening "OMTAddress".toList ++ ("\n  ".toList ++ opening "Name".toList) := by decide
  have second : "</Name>\n  <Port>".toList =
      closing "Name".toList ++ ("\n  ".toList ++ opening "Port".toList) := by decide
  have third : "</Port>\n".toList = closing "Port".toList ++ "\n".toList := by decide
  have flag : "  <Removed>True</Removed>\n".toList = "  ".toList ++ (opening "Removed".toList ++
      ("True".toList ++ (closing "Removed".toList ++ "\n".toList))) := by decide
  have start : "  <Addresses>\n".toList =
      "  ".toList ++ (opening "Addresses".toList ++ "\n".toList) := by decide
  have bottom : "  </Addresses>\n</OMTAddress>".toList = "  ".toList ++ (closing "Addresses".toList ++
      ("\n".toList ++ closing "OMTAddress".toList)) := by decide
  have line : "\n  ".toList = "\n".toList ++ "  ".toList := by decide
  refine ⟨by decide, ?_⟩
  unfold addressContent OmtAddress.toXml
  rw [top, second, third, start, bottom]
  by_cases gone : address.removed = true
  · rw [if_pos gone, if_pos gone, flag]
    have yes : WrittenText "True".toList "True".toList := bare_written _ (by decide)
    have field := field_written "Name".toList _ _ _ _ name (by decide)
      (field_written "Port".toList _ _ _ _ port (by decide)
        (field_written "Removed".toList _ _ _ _ yes (by decide) list))
    refine ⟨_, field, ?_⟩
    rw [line]
    simp only [List.append_assoc]
  · rw [if_neg gone, if_neg gone]
    have field := field_written "Name".toList _ _ _ _ name (by decide)
      (field_written "Port".toList _ _ _ _ port (by decide) list)
    refine ⟨_, field, ?_⟩
    rw [line]
    simp only [List.append_assoc, List.nil_append]

/-! Reading it back. -/

/-- An address whose name is settled and whose texts can be written. -/
structure Relayable (address : OmtAddress) : Prop extends Settled address where
  writable : Writable address.instanceName
  hosts : ∀ ip ∈ address.addresses, Writable ip

theorem textOf_textNodes (text : List Char) : textOf (textNodes text) = text := by
  cases text with
  | nil => rfl
  | cons char rest => exact List.append_nil _

theorem fromChildren_textNodes (text : List Char) (nodes : List XmlNode) :
    fromChildren (textNodes text ++ nodes) = fromChildren nodes := by
  cases text <;> rfl

def contentElements : Content → List XmlElement
  | .last _ => []
  | .more _ name inner rest => fromNode (.element name [] inner.nodes) :: contentElements rest

theorem fromChildren_nodes (content : Content) :
    fromChildren content.nodes = contentElements content := by
  induction content with
  | last text => cases text <;> rfl
  | more text name inner rest _ rest_ih =>
      rw [Content.nodes, fromChildren_textNodes, fromChildren, rest_ih]
      rfl

def leaf (name text : List Char) : XmlElement := ⟨name, [], [], trim text⟩

theorem fromNode_leaf (name text : List Char) :
    fromNode (.element name [] (Content.last text).nodes) = leaf name text := by
  rw [fromNode, fromChildren_nodes, Content.nodes, textOf_textNodes]
  rfl

theorem contentElements_ips (ips : List (List Char)) :
    contentElements (ipContent ips) = ips.map (leaf "IPAddress".toList) := by
  induction ips with
  | nil => rfl
  | cons ip rest ih =>
      rw [List.map_cons, ← ih, ← fromNode_leaf]
      rfl

def ipsElement (ips : List (List Char)) : XmlElement :=
  fromNode (.element "Addresses".toList [] (ipContent ips).nodes)

theorem ipsElement_children (ips : List (List Char)) :
    (ipsElement ips).name = "Addresses".toList ∧
      (ipsElement ips).children = ips.map (leaf "IPAddress".toList) := by
  rw [ipsElement, fromNode, fromChildren_nodes, contentElements_ips]
  exact ⟨rfl, rfl⟩

theorem ipsElement_texts (ips : List (List Char)) :
    ((ipsElement ips).childrenNamed "IPAddress".toList ++
      (ipsElement ips).childrenNamed "Address".toList).map (·.text) = ips.map trim := by
  have own : (fun child : XmlElement => child.name == "IPAddress".toList) ∘
      leaf "IPAddress".toList = fun _ => true := funext fun _ => beq_self_eq_true _
  have other : (fun child : XmlElement => child.name == "Address".toList) ∘
      leaf "IPAddress".toList = fun _ => false := by
    funext ip
    change ("IPAddress".toList == "Address".toList) = false
    decide
  unfold XmlElement.childrenNamed
  rw [(ipsElement_children ips).2, List.filter_map, List.filter_map, own, other]
  simp [leaf]

def addressChildren (address : OmtAddress) : List XmlElement :=
  leaf "Name".toList address.instanceName :: leaf "Port".toList (decimal address.port.toNat) ::
    ((if address.removed then [leaf "Removed".toList "True".toList] else []) ++
      [ipsElement address.writtenIps])

theorem contentElements_address (address : OmtAddress) :
    contentElements (addressContent address) = addressChildren address := by
  unfold addressContent addressChildren addressesContent
  simp only [contentElements, fromNode_leaf]
  by_cases gone : address.removed = true
  · rw [if_pos gone, if_pos gone, contentElements, fromNode_leaf]
    rfl
  · rw [if_neg gone, if_neg gone]
    rfl

theorem childText_leaf (element : XmlElement) (label text : List Char) (trimmed : Trimmed text)
    (named : text ≠ []) (found : element.child label = some (leaf label text)) :
    element.childText label = some text := by
  unfold XmlElement.childText
  rw [found]
  dsimp only [leaf]
  rw [trim_of_trimmed text trimmed, if_neg (by simpa using named)]

def addressElement (address : OmtAddress) (text : List Char) : XmlElement :=
  ⟨"OMTAddress".toList, [], addressChildren address, text⟩

theorem child_here (name text label : List Char) (attributes : List (List Char × List Char))
    (found : XmlElement) (rest : List XmlElement) (same : found.name = label) :
    XmlElement.child ⟨name, attributes, found :: rest, text⟩ label = some found :=
  List.find?_cons_of_pos (beq_iff_eq.mpr same)

theorem child_later (name text label : List Char) (attributes : List (List Char × List Char))
    (first : XmlElement) (rest : List XmlElement) (apart : (first.name == label) = false) :
    XmlElement.child ⟨name, attributes, first :: rest, text⟩ label =
      XmlElement.child ⟨name, attributes, rest, text⟩ label :=
  List.find?_cons_of_neg (ne_true_of_eq_false apart)

theorem addressElement_fields (address : OmtAddress) (text : List Char) :
    (addressElement address text).child "Name".toList =
        some (leaf "Name".toList address.instanceName) ∧
      (addressElement address text).child "Port".toList =
        some (leaf "Port".toList (decimal address.port.toNat)) ∧
      (addressElement address text).child "Removed".toList =
        (if address.removed then some (leaf "Removed".toList "True".toList) else none) ∧
      (addressElement address text).child "Addresses".toList =
        some (ipsElement address.writtenIps) := by
  have named := (ipsElement_children address.writtenIps).1
  unfold addressElement addressChildren
  -- The name and the port stand first, whatever follows them.
  have past (label : List Char) (rest : List XmlElement)
      (noName : ("Name".toList == label) = false) (noPort : ("Port".toList == label) = false) :
      XmlElement.child ⟨"OMTAddress".toList, [], leaf "Name".toList address.instanceName ::
          leaf "Port".toList (decimal address.port.toNat) :: rest, text⟩ label =
        XmlElement.child ⟨"OMTAddress".toList, [], rest, text⟩ label :=
    (child_later _ _ _ _ _ _ noName).trans (child_later _ _ _ _ _ _ noPort)
  have noName : ("Name".toList == "Port".toList) = false := by decide
  have noFlag : ("Removed".toList == "Addresses".toList) = false := by decide
  have noList : ("Addresses".toList == "Removed".toList) = false := by decide
  refine ⟨child_here _ _ _ _ _ _ rfl, (child_later _ _ _ _ _ _ noName).trans
    (child_here _ _ _ _ _ _ rfl), ?_, ?_⟩
  · rw [past _ _ (by decide) (by decide)]
    cases address.removed with
    | true => exact child_here _ _ _ _ _ _ rfl
    | false => exact child_later _ _ _ _ _ [] (by rw [named]; exact noList)
  · rw [past _ _ (by decide) (by decide)]
    cases address.removed with
    | true =>
        exact (child_later _ _ _ _ _ _ noFlag).trans (child_here _ _ _ _ _ _ named)
    | false => exact child_here _ _ _ _ _ _ named

theorem addressMetadata_address (address : OmtAddress) (text : List Char)
    (settled : Settled address) :
    addressMetadata (addressElement address text) =
      .address address.instanceName address.port address.removed (address.writtenIps.map trim) := by
  obtain ⟨name, port, removed, list⟩ := addressElement_fields address text
  have nameText := childText_leaf _ _ _ settled.trimmed settled.named name
  have portText := childText_leaf _ _ _ (decimal_trimmed _) (decimal_ne_nil _) port
  have flag : (((addressElement address text).childText "Removed".toList).bind parseBool).getD false =
      address.removed := by
    unfold XmlElement.childText
    rw [removed]
    cases address.removed <;> decide
  unfold addressMetadata
  rw [nameText, portText, flag, list, Option.bind_some, parseU16_decimal]
  dsimp only [Option.getD_some]
  rw [ipsElement_texts]

theorem toXml_start (address : OmtAddress) : ∃ rest, address.toXml = "<OMTA".toList ++ rest := by
  have start : "<OMTAddress>\n  <Name>".toList = "<OMTA".toList ++ "ddress>\n  <Name>".toList := by
    decide
  unfold OmtAddress.toXml
  rw [start, List.append_assoc]
  exact ⟨_, rfl⟩

theorem toXml_noTally (address : OmtAddress) :
    tallyFromLibomtnetConstant address.toXml = none := by
  obtain ⟨rest, start⟩ := toXml_start address
  apply tallyFromLibomtnetConstant_other
  have front : address.toXml.take 5 = "<OMTA".toList := by
    rw [start]
    rfl
  rw [front]
  decide

/-- An address written and read is the address, with its addresses as they were written. -/
theorem fromXml_toXml (documentParse : List Char → Except String XmlNode)
    (reads : ReadsXml documentParse) (address : OmtAddress) (relayable : Relayable address) :
    OmtAddress.fromXml documentParse address.toXml =
      .ok (.ok { address with addresses := address.writtenIps.map trim }) := by
  have hosts : ∀ ip ∈ address.writtenIps, Writable ip := by
    unfold OmtAddress.writtenIps
    split
    · intro ip member
      rw [List.mem_singleton.mp member]
      have digits : "0.0.0.0".toList.all writableChar = true := by decide
      exact List.all_eq_true.mp digits
    · exact relayable.hosts
  have document := reads.reads _ _ _ (toXml_written address relayable.writable hosts)
  obtain ⟨rest, start⟩ := toXml_start address
  have noMark : trimStartMatches (· == '\uFEFF') address.toXml = address.toXml := by
    rw [start]
    exact List.dropWhile_cons_of_neg (by decide)
  have root : fromNode (.element "OMTAddress".toList [] (addressContent address).nodes) =
      addressElement address (trim (textOf (addressContent address).nodes)) := by
    rw [fromNode, fromChildren_nodes, contentElements_address]
    rfl
  have item (text : List Char) : flattenElement (addressElement address text) =
      [addressMetadata (addressElement address text)] := rfl
  obtain ⟨char, tail, shape⟩ := List.exists_cons_of_ne_nil relayable.named
  have some : ¬ address.instanceName.isEmpty = true := by simp [shape]
  unfold OmtAddress.fromXml parseMetadata XmlElement.parse
  rw [toXml_noTally, noMark, document]
  dsimp only
  rw [root, item, addressMetadata_address address _ relayable.toSettled, OmtAddress.fromItems,
    if_neg some, relayable.again]
  rfl

/-! What was read can be relayed. -/

theorem sanitizeName_named (name : List Char) (clean : cleanText name = true) (named : name ≠ []) :
    sanitizeName name ≠ [] := by
  obtain ⟨allowed, trimmed⟩ := Bool.and_eq_true_iff.mp clean
  obtain ⟨char, rest, rfl⟩ := List.exists_cons_of_ne_nil named
  have black := (beq_iff_eq.mp trimmed ▸ trim_trimmed (char :: rest)).head char rest rfl
  have xml := List.all_eq_true.mp allowed char List.mem_cons_self
  have kept : nameChar char = true := by
    simp only [nameChar, Bool.and_eq_true, bne_iff_ne]
    refine ⟨⟨?_, ?_⟩, ?_⟩
    · rintro rfl
      exact absurd xml (by decide)
    · rintro rfl
      exact absurd black (by decide)
    · rintro rfl
      exact absurd black (by decide)
  rw [sanitizeName, List.filter_cons_of_pos kept]
  exact (trim_front char _ black).2

/-- An address read comes from one address document, which has a name. -/
theorem fromItems_made (items : List Metadata) (address : OmtAddress)
    (made : OmtAddress.fromItems items = .ok (.ok address)) :
    ∃ name port removed addresses read, .address name port removed addresses ∈ items ∧
      name ≠ [] ∧ OmtAddress.fromFullName name port = .ok read ∧
      address = { read with removed, addresses } := by
  induction items with
  | nil => cases made
  | cons item rest ih =>
      cases item with
      | address name port removed addresses =>
          rw [OmtAddress.fromItems] at made
          split at made
          · cases made
          rename_i some
          cases found : OmtAddress.fromFullName name port with
          | error panic =>
              rw [found] at made
              cases made
          | ok read =>
              rw [found] at made
              cases made
              exact ⟨name, port, removed, addresses, read, List.mem_cons_self, by simpa using some,
                found, rfl⟩
      | _ =>
          obtain ⟨name, port, removed, addresses, read, member, rest⟩ := ih made
          exact ⟨name, port, removed, addresses, read, List.mem_cons_of_mem _ member, rest⟩

theorem fromItems_settled (items : List Metadata) (clean : ∀ item ∈ items, NameClean item)
    (address : OmtAddress) (made : OmtAddress.fromItems items = .ok (.ok address)) :
    Settled address ∧ Writable address.instanceName := by
  obtain ⟨name, port, removed, addresses, read, member, named, found, rfl⟩ :=
    fromItems_made items address made
  have kept : cleanText name = true := clean _ member
  obtain ⟨settled, samePort, within⟩ := fromFullName_settled name port read
    (sanitizeName_named name kept named) found
  refine ⟨⟨settled.named, settled.trimmed, settled.again⟩, fun char member => ?_⟩
  rcases within char member with own | added
  · -- A character of the document's name.
    have xml := List.all_eq_true.mp (Bool.and_eq_true_iff.mp kept).1 char
      (List.mem_filter.mp (trim_subset _ char own)).1
    have plain := sanitizeName_clean name char own
    simp only [nameChar, Bool.and_eq_true] at plain
    rw [writableChar, xml, plain.2]
    rfl
  · have listed : " ()".toList.all writableChar = true := by decide
    exact List.all_eq_true.mp listed char added

theorem fromXml_settled (documentParse : List Char → Except String XmlNode)
    (reads : ReadsXml documentParse) (xml : List Char) (address : OmtAddress)
    (made : OmtAddress.fromXml documentParse xml = .ok (.ok address)) :
    Settled address ∧ Writable address.instanceName :=
  fromItems_settled _ (parseMetadata_clean documentParse reads xml) address made

theorem fromXml_hosts (documentParse : List Char → Except String XmlNode)
    (reads : ReadsXml documentParse) (xml : List Char) (address : OmtAddress)
    (made : OmtAddress.fromXml documentParse xml = .ok (.ok address)) :
    ∀ ip ∈ address.addresses, cleanText ip = true := by
  obtain ⟨_, _, _, _, _, member, _, _, rfl⟩ := fromItems_made _ address made
  exact parseMetadata_hosts documentParse reads xml _ member

end OpenMediaTransport
