import OpenMediaTransport.MetadataGroups

/-!
The documents that `metadata.rs` and `SenderInfo::to_xml` write: one empty element whose
attributes hold escaped strings. Of the parser it is relied on only that it reads such an
element, decoding each attribute from left to right. Whatever is escaped, an attribute ends
where it was to end and is decoded to the string it was written from.
-/

namespace OpenMediaTransport

open Markup Text

namespace Markup

/-- A character that attribute values keep: white space but the blank is normalised. -/
def keptChar (char : Char) : Bool :=
  xmlChar char && char != '\t' && char != '\n' && char != '\r'

def Kept (text : List Char) : Prop := ∀ char ∈ text, keptChar char = true

instance (text : List Char) : Decidable (Kept text) :=
  decidable_of_iff (text.all keptChar = true) List.all_eq_true

/-- One pass over what stands between double quotes. -/
inductive QuotedValue : List Char → List Char → Prop where
  | nil : QuotedValue [] []
  | bare (char : Char) (written value : List Char) (kept : keptChar char = true)
      (plain : char ≠ '<' ∧ char ≠ '&' ∧ char ≠ '"') (later : QuotedValue written value) :
      QuotedValue (char :: written) (char :: value)
  | entity (char : Char) (name written value : List Char) (known : entityChar name = some char)
      (later : QuotedValue written value) :
      QuotedValue ('&' :: (name ++ ';' :: written)) (char :: value)

def quotedText : List (List Char × List Char) → List Char
  | [] => " />".toList
  | (key, written) :: rest => ' ' :: (key ++ '=' :: '"' :: (written ++ '"' :: quotedText rest))

/-- The text of an empty element, its attributes as they are written. -/
def emptyElement (name : List Char) (written : List (List Char × List Char)) : List Char :=
  '<' :: (name ++ quotedText written)

/-- The attributes as they are written, and as they are read. -/
def QuotedAttributes : List (List Char × List Char) → List (List Char × List Char) → Prop :=
  List.Forall₂ fun written read =>
    written.1 = read.1 ∧ tagName read.1 = true ∧ read.1 ≠ "xmlns".toList ∧
      QuotedValue written.2 read.2

/-- An empty element with quoted attributes is read as what it is. -/
def ReadsQuoted (documentParse : List Char → Except String XmlNode) : Prop :=
  ∀ name written attributes, tagName name = true → QuotedAttributes written attributes →
    (attributes.map Prod.fst).Nodup →
      documentParse (emptyElement name written) = .ok (.element name attributes [])

theorem quoted_cons (key written value : List Char) {front back : List (List Char × List Char)}
    (named : tagName key = true ∧ key ≠ "xmlns".toList) (valued : QuotedValue written value)
    (later : QuotedAttributes front back) :
    QuotedAttributes ((key, written) :: front) ((key, value) :: back) :=
  .cons ⟨rfl, named.1, named.2, valued⟩ later

/-! What the escapers write. -/

def entityText (name : List Char) : List Char := '&' :: (name ++ [';'])

/-- Replacing some characters by entities, and among them those that a value cannot hold. -/
structure EntityTable (table : List (Char × List Char)) : Prop where
  apart : table.Pairwise fun earlier later => later.1 ∉ earlier.2
  entities : ∀ entry ∈ table, ∃ name, entry.2 = entityText name ∧ entityChar name = some entry.1
  covers : ∀ mark ∈ ['<', '&', '"'], mark ∈ table.map Prod.fst

theorem tabled_mem (table : List (Char × List Char)) (char : Char)
    (listed : char ∈ table.map Prod.fst) : (char, tabled table char) ∈ table := by
  induction table with
  | nil => cases listed
  | cons entry rest ih =>
      unfold tabled
      by_cases here : char = entry.1
      · rw [if_pos here, here]
        exact List.mem_cons_self
      · rw [if_neg here]
        exact List.mem_cons_of_mem _ (ih ((List.mem_cons.mp listed).resolve_left here))

/-- Whatever is in the text, one pass undoes the replacements. -/
theorem replaceChars_quoted (table : List (Char × List Char)) (escapes : EntityTable table)
    (text : List Char) (kept : Kept text) : QuotedValue (replaceChars table text) text := by
  rw [replaceChars_flatMap table text escapes.apart]
  induction text with
  | nil => exact .nil
  | cons char rest ih =>
      obtain ⟨own, others⟩ := List.forall_mem_cons.mp kept
      have later := ih others
      rw [List.flatMap_cons]
      -- A character of the table is read back from its entity, any other stands for itself.
      by_cases listed : char ∈ table.map Prod.fst
      · obtain ⟨name, written, known⟩ := escapes.entities _ (tabled_mem table char listed)
        dsimp only at written known
        rw [written, entityText, List.cons_append, List.append_assoc]
        exact .entity char name _ rest known later
      · rw [tabled_absent table char listed]
        have plain (mark : Char) (covered : mark ∈ ['<', '&', '"']) : char ≠ mark := by
          rintro rfl
          exact listed (escapes.covers char covered)
        exact .bare char _ rest own ⟨plain '<' (by decide), plain '&' (by decide), plain '"' (by decide)⟩
          later

theorem QuotedValue.plain (text : List Char)
    (plain : text.all (fun char => keptChar char && char != '<' && char != '&' && char != '"') = true) :
    QuotedValue text text := by
  induction text with
  | nil => exact .nil
  | cons char rest ih =>
      simp only [List.all_cons, Bool.and_eq_true, bne_iff_ne] at plain
      obtain ⟨⟨⟨⟨kept, less⟩, ampersand⟩, quote⟩, later⟩ := plain
      exact .bare char rest rest kept ⟨less, ampersand, quote⟩ (ih (by simpa using later))

end Markup

/-! The builders. -/

namespace MetadataBuilders

/-- `escape_xml` of `xml.rs`. -/
def escapeXml (text : List Char) : List Char :=
  replaceChars [('&', "&amp;".toList), ('<', "&lt;".toList), ('>', "&gt;".toList),
    ('"', "&quot;".toList), ('\'', "&apos;".toList)] text

/-- `escape_xml_attr` of `types.rs`. -/
def escapeXmlAttr (text : List Char) : List Char :=
  replaceChars [('&', "&amp;".toList), ('"', "&quot;".toList), ('<', "&lt;".toList),
    ('>', "&gt;".toList)] text

def viscaOverIpXml (url : List Char) : List Char :=
  "<OMTPTZ Protocol=\"VISCAoverIP\" URL=\"".toList ++ (escapeXml url ++ "\" />".toList)

def viscaCommandXml (sequence commandHex : List Char) : List Char :=
  "<OMTPTZ Protocol=\"VISCA\" Sequence=\"".toList ++ (escapeXml sequence ++
    ("\" Command=\"".toList ++ (escapeXml commandHex ++ "\" />".toList)))

def viscaReplyXml (sequence replyHex : List Char) : List Char :=
  "<OMTPTZ Protocol=\"VISCA\" Sequence=\"".toList ++ (escapeXml sequence ++
    ("\" Reply=\"".toList ++ (escapeXml replyHex ++ "\" />".toList)))

def webXml (url : List Char) : List Char :=
  "<OMTWeb URL=\"".toList ++ (escapeXml url ++ "\" />".toList)

def redirectXml (newAddress : List Char) : List Char :=
  "<OMTRedirect NewAddress=\"".toList ++ (escapeXml newAddress ++ "\" />".toList)

end MetadataBuilders

namespace SenderInfo

def toXml (info : SenderInfo) : List Char :=
  "<OMTInfo ProductName=\"".toList ++ (MetadataBuilders.escapeXmlAttr info.productName ++
    ("\" Manufacturer=\"".toList ++ (MetadataBuilders.escapeXmlAttr info.manufacturer ++
      ("\" Version=\"".toList ++ (MetadataBuilders.escapeXmlAttr info.version ++ "\" />".toList)))))

def fromXml (documentParse : List Char → Except String XmlNode) (xml : List Char) :
    Option SenderInfo :=
  (parseMetadata documentParse xml).findSome? fun
    | .senderInfo info => some info
    | _ => none

end SenderInfo

namespace MetadataBuilders

theorem escapeXml_quoted (text : List Char) (kept : Kept text) : QuotedValue (escapeXml text) text := by
  apply replaceChars_quoted _ _ text kept
  refine ⟨by decide, ?_, by simp⟩
  simp only [List.forall_mem_cons]
  exact ⟨⟨"amp".toList, rfl, rfl⟩, ⟨"lt".toList, rfl, rfl⟩, ⟨"gt".toList, rfl, rfl⟩,
    ⟨"quot".toList, rfl, rfl⟩, ⟨"apos".toList, rfl, rfl⟩, fun _ member => nomatch member⟩

theorem escapeXmlAttr_quoted (text : List Char) (kept : Kept text) :
    QuotedValue (escapeXmlAttr text) text := by
  apply replaceChars_quoted _ _ text kept
  refine ⟨by decide, ?_, by simp⟩
  simp only [List.forall_mem_cons]
  exact ⟨⟨"amp".toList, rfl, rfl⟩, ⟨"quot".toList, rfl, rfl⟩, ⟨"lt".toList, rfl, rfl⟩,
    ⟨"gt".toList, rfl, rfl⟩, fun _ member => nomatch member⟩

section Parsed
variable (documentParse : List Char → Except String XmlNode) (reads : ReadsQuoted documentParse)
include reads

theorem parseMetadata_emptyElement (name : List Char) (written attributes : List (List Char × List Char))
    (named : tagName name = true) (quoted : QuotedAttributes written attributes)
    (distinct : (attributes.map Prod.fst).Nodup) (long : 4 ≤ name.length)
    (other : ('<' :: name).take 5 ≠ "<OMTT".toList) :
    parseMetadata documentParse (emptyElement name written) =
      flattenElement ⟨name, attributes, [], []⟩ := by
  -- The tally texts are compared before anything is parsed.
  have opens : (emptyElement name written).take 5 = ('<' :: name).take 5 := by
    unfold emptyElement
    rw [← List.cons_append]
    exact List.take_append_of_le_length (Nat.succ_le_succ long)
  have noMark : trimStartMatches (· == '\uFEFF') (emptyElement name written) =
      emptyElement name written := List.dropWhile_cons_of_neg (by decide)
  rw [parseMetadata, tallyFromLibomtnetConstant_other _ (by rw [opens]; exact other)]
  dsimp only
  rw [XmlElement.parse, noMark, reads name written attributes named quoted distinct]
  rfl

theorem redirectXml_parsed (newAddress : List Char) (kept : Kept newAddress) :
    parseMetadata documentParse (redirectXml newAddress) = [.redirect newAddress] := by
  have shape : redirectXml newAddress =
      emptyElement "OMTRedirect".toList [("NewAddress".toList, escapeXml newAddress)] := rfl
  have quoted : QuotedAttributes [("NewAddress".toList, escapeXml newAddress)]
      [("NewAddress".toList, newAddress)] :=
    quoted_cons _ _ _ (by decide) (escapeXml_quoted newAddress kept) .nil
  have parsed := parseMetadata_emptyElement documentParse reads "OMTRedirect".toList _ _ (by decide)
    quoted (show ["NewAddress".toList].Nodup by decide) (by decide) (by decide)
  rw [shape, parsed]
  rfl

theorem webXml_parsed (url : List Char) (kept : Kept url) :
    parseMetadata documentParse (webXml url) = [.web url] := by
  have shape : webXml url = emptyElement "OMTWeb".toList [("URL".toList, escapeXml url)] := rfl
  have quoted : QuotedAttributes [("URL".toList, escapeXml url)] [("URL".toList, url)] :=
    quoted_cons _ _ _ (by decide) (escapeXml_quoted url kept) .nil
  have parsed := parseMetadata_emptyElement documentParse reads "OMTWeb".toList _ _ (by decide)
    quoted (show ["URL".toList].Nodup by decide) (by decide) (by decide)
  rw [shape, parsed]
  rfl

theorem viscaOverIpXml_parsed (url : List Char) (kept : Kept url) :
    parseMetadata documentParse (viscaOverIpXml url) =
      [.ptz ⟨"VISCAoverIP".toList, some url, none, none, none⟩] := by
  have shape : viscaOverIpXml url = emptyElement "OMTPTZ".toList
      [("Protocol".toList, "VISCAoverIP".toList), ("URL".toList, escapeXml url)] := rfl
  have quoted : QuotedAttributes
      [("Protocol".toList, "VISCAoverIP".toList), ("URL".toList, escapeXml url)]
      [("Protocol".toList, "VISCAoverIP".toList), ("URL".toList, url)] :=
    quoted_cons _ _ _ (by decide) (QuotedValue.plain _ (by decide))
      (quoted_cons _ _ _ (by decide) (escapeXml_quoted url kept) .nil)
  have parsed := parseMetadata_emptyElement documentParse reads "OMTPTZ".toList _ _ (by decide)
    quoted (show ["Protocol".toList, "URL".toList].Nodup by decide) (by decide) (by decide)
  rw [shape, parsed]
  rfl

theorem visca_parsed (key sequence payload : List Char)
    (named : tagName key = true ∧ key ≠ "xmlns".toList)
    (distinct : ["Protocol".toList, "Sequence".toList, key].Nodup)
    (sequenceKept : Kept sequence) (payloadKept : Kept payload) :
    parseMetadata documentParse (emptyElement "OMTPTZ".toList [("Protocol".toList, "VISCA".toList),
        ("Sequence".toList, escapeXml sequence), (key, escapeXml payload)]) =
      flattenElement ⟨"OMTPTZ".toList, [("Protocol".toList, "VISCA".toList),
        ("Sequence".toList, sequence), (key, payload)], [], []⟩ := by
  have quoted : QuotedAttributes [("Protocol".toList, "VISCA".toList),
        ("Sequence".toList, escapeXml sequence), (key, escapeXml payload)]
      [("Protocol".toList, "VISCA".toList), ("Sequence".toList, sequence), (key, payload)] :=
    quoted_cons _ _ _ (by decide) (QuotedValue.plain _ (by decide))
      (quoted_cons _ _ _ (by decide) (escapeXml_quoted sequence sequenceKept)
        (quoted_cons _ _ _ named (escapeXml_quoted payload payloadKept) .nil))
  exact parseMetadata_emptyElement documentParse reads "OMTPTZ".toList _ _ (by decide) quoted
    distinct (by decide) (by decide)

theorem viscaCommandXml_parsed (sequence commandHex : List Char)
    (sequenceKept : Kept sequence) (commandKept : Kept commandHex) :
    parseMetadata documentParse (viscaCommandXml sequence commandHex) =
      [.ptz ⟨"VISCA".toList, none, some sequence, some commandHex, none⟩] := by
  have shape : viscaCommandXml sequence commandHex = emptyElement "OMTPTZ".toList
      [("Protocol".toList, "VISCA".toList), ("Sequence".toList, escapeXml sequence),
        ("Command".toList, escapeXml commandHex)] := rfl
  rw [shape, visca_parsed documentParse reads "Command".toList sequence commandHex (by decide)
    (by decide) sequenceKept commandKept]
  rfl

theorem viscaReplyXml_parsed (sequence replyHex : List Char)
    (sequenceKept : Kept sequence) (replyKept : Kept replyHex) :
    parseMetadata documentParse (viscaReplyXml sequence replyHex) =
      [.ptz ⟨"VISCA".toList, none, some sequence, none, some replyHex⟩] := by
  have shape : viscaReplyXml sequence replyHex = emptyElement "OMTPTZ".toList
      [("Protocol".toList, "VISCA".toList), ("Sequence".toList, escapeXml sequence),
        ("Reply".toList, escapeXml replyHex)] := rfl
  rw [shape, visca_parsed documentParse reads "Reply".toList sequence replyHex (by decide)
    (by decide) sequenceKept replyKept]
  rfl

theorem senderInfo_parsed (info : SenderInfo)
    (productKept : Kept info.productName) (manufacturerKept : Kept info.manufacturer)
    (versionKept : Kept info.version) :
    parseMetadata documentParse info.toXml = [.senderInfo info] := by
  have shape : info.toXml = emptyElement "OMTInfo".toList
      [("ProductName".toList, escapeXmlAttr info.productName),
        ("Manufacturer".toList, escapeXmlAttr info.manufacturer),
        ("Version".toList, escapeXmlAttr info.version)] := rfl
  have quoted : QuotedAttributes [("ProductName".toList, escapeXmlAttr info.productName),
        ("Manufacturer".toList, escapeXmlAttr info.manufacturer),
        ("Version".toList, escapeXmlAttr info.version)]
      [("ProductName".toList, info.productName), ("Manufacturer".toList, info.manufacturer),
        ("Version".toList, info.version)] :=
    quoted_cons _ _ _ (by decide) (escapeXmlAttr_quoted _ productKept)
      (quoted_cons _ _ _ (by decide) (escapeXmlAttr_quoted _ manufacturerKept)
        (quoted_cons _ _ _ (by decide) (escapeXmlAttr_quoted _ versionKept) .nil))
  have parsed := parseMetadata_emptyElement documentParse reads "OMTInfo".toList _ _ (by decide)
    quoted (show ["ProductName".toList, "Manufacturer".toList, "Version".toList].Nodup by decide)
    (by decide) (by decide)
  rw [shape, parsed]
  rfl

end Parsed

/-! A parser that reads such elements. -/

section Reader
open XmlGrammar

theorem alpha_letter (char : Char) (alpha : char.isAlpha = true) :
    xmlNameStart char = true ∧ char ≠ ':' ∧ char ≠ '\r' := by
  have low : char.toNat < 128 := by
    have code := alpha_code char alpha
    omega
  have checked := ascii_all (fun char => !char.isAlpha ||
    (xmlNameStart char && char != ':' && char != '\r')) (by decide) char low
  simpa [alpha, and_assoc] using checked

theorem tagName_isName (name : List Char) (named : tagName name = true) : isName name = true := by
  obtain ⟨some, letters⟩ := Bool.and_eq_true_iff.mp named
  cases name with
  | nil => cases some
  | cons first rest =>
      obtain ⟨own, others⟩ := List.forall_mem_cons.mp (List.all_eq_true.mp letters)
      apply Bool.and_eq_true_iff.mpr
      refine ⟨(alpha_letter first own).1, List.all_eq_true.mpr fun char member => ?_⟩
      rw [xmlNameChar, (alpha_letter char (others char member)).1, Bool.true_or]

theorem tagName_free (name : List Char) (named : tagName name = true) :
    ':' ∉ name ∧ '\r' ∉ name := by
  have letters := List.all_eq_true.mp (Bool.and_eq_true_iff.mp named).2
  exact ⟨fun member => (alpha_letter ':' (letters ':' member)).2.1 rfl,
    fun member => (alpha_letter '\r' (letters '\r' member)).2.2 rfl⟩

theorem tagName_local (name : List Char) (named : tagName name = true) : localName name = name := by
  unfold localName
  cases found : splitOnce name ':' with
  | none => rfl
  | some parts =>
      have whole := (splitOnce_parts name parts.1 parts.2 ':' found).1
      have inside : ':' ∈ name := by
        rw [whole]
        simp
      exact absurd inside (tagName_free name named).1

theorem entityChar_referenced (name : List Char) (char : Char) (known : entityChar name = some char) :
    referenced name = some char ∧ '\r' ∉ name := by
  unfold entityChar at known
  repeat' split at known
  all_goals first
    | contradiction
    | (rename_i hit
       cases known
       rw [beq_iff_eq.mp hit]
       decide)

theorem quoted_attValue (written value : List Char) (quoted : QuotedValue written value) :
    AttValue '"' written value ∧ '\r' ∉ written := by
  induction quoted with
  | nil => exact ⟨.nil, List.not_mem_nil⟩
  | bare char written value kept plain later ih =>
      simp only [keptChar, Bool.and_eq_true, bne_iff_ne] at kept
      obtain ⟨⟨⟨legal, noTab⟩, noFeed⟩, noReturn⟩ := kept
      -- White space is read as a blank, and the blank is the only one that is kept.
      have same : (if xmlSpace char then ' ' else char) = char := by
        by_cases blank : char = ' '
        · rw [blank]
          rfl
        · simp [xmlSpace, blank, noTab, noFeed, noReturn]
      have whole := AttValue.bare char written value legal plain ih.1
      rw [same] at whole
      exact ⟨whole, List.not_mem_cons_of_ne_of_not_mem (Ne.symm noReturn) ih.2⟩
  | entity char name written value known later ih =>
      obtain ⟨refers, clear⟩ := entityChar_referenced name char known
      refine ⟨.reference name char written value refers ih.1, ?_⟩
      simp [clear, ih.2]

theorem quotedText_attributes (written read : List (List Char × List Char))
    (quoted : QuotedAttributes written read) :
    ∃ inside, quotedText written = inside ++ ([' '] ++ ['/', '>']) ∧ Attributes inside read ∧
      '\r' ∉ quotedText written := by
  induction quoted with
  | nil => exact ⟨[], rfl, .nil, by decide⟩
  | cons pair rest ih =>
      rename_i first second front back
      obtain ⟨key, text⟩ := first
      obtain ⟨name, value⟩ := second
      obtain ⟨rfl, named, _, valued⟩ := pair
      obtain ⟨inside, shape, attached, clear⟩ := ih
      obtain ⟨attValue, textClear⟩ := quoted_attValue text value valued
      have whole := Attributes.cons [' '] key [] [] text value inside '"' back
        (List.cons_ne_nil _ _) ⟨rfl, rfl, rfl⟩ (tagName_isName key named) (.inl rfl) attValue attached
      refine ⟨_, ?_, whole, ?_⟩
      · rw [quotedText, shape]
        simp
      · have keyClear := (tagName_free key named).2
        simp [quotedText, clear, textClear, keyClear]

theorem lineEnds_same (text : List Char) (noReturn : '\r' ∉ text) : lineEnds text = text := by
  induction text with
  | nil => rfl
  | cons char rest ih =>
      obtain ⟨apart, later⟩ := List.ne_and_not_mem_of_not_mem_cons noReturn
      rw [lineEnds, if_neg (by simpa using Ne.symm apart), ih later]

theorem plainAttributes_same (written read : List (List Char × List Char))
    (quoted : QuotedAttributes written read) : plainAttributes read = read := by
  induction quoted with
  | nil => rfl
  | cons pair rest ih =>
      rename_i first second front back
      obtain ⟨_, named, free, _⟩ := pair
      have undeclared : declaresNamespace second.1 = false := by
        apply Bool.or_eq_false_iff.mpr
        refine ⟨beq_false_of_ne free, ?_⟩
        apply Bool.eq_false_iff.mpr
        intro starts
        obtain ⟨tail, shape⟩ := List.isPrefixOf_iff_prefix.mp starts
        apply (tagName_free second.1 named).1
        rw [← shape]
        simp
      unfold plainAttributes at ih ⊢
      rw [List.filter_cons, undeclared]
      simp only [Bool.not_false, if_true, List.map_cons, ih, tagName_local second.1 named]

/-- A parser that reads every document reads these. -/
theorem readsQuoted_of_documents (documentParse : List Char → Except String XmlNode)
    (takes : ∀ text root, Document text root → documentParse text = .ok (nodeOf root)) :
    ReadsQuoted documentParse := by
  intro name written attributes named quoted distinct
  obtain ⟨inside, shape, attached, clear⟩ := quotedText_attributes written attributes quoted
  have part := Part.empty name inside [' '] attributes (tagName_isName name named) attached distinct rfl
  have noReturn : '\r' ∉ emptyElement name written := by
    have nameClear := (tagName_free name named).2
    simp [emptyElement, clear, nameClear]
  have document : Document (emptyElement name written) (.element name attributes []) := by
    refine ⟨[], _, [], ?_, .nil, part, .nil⟩
    rw [lineEnds_same _ noReturn, emptyElement, shape]
    simp
  rw [takes _ _ document, nodeOf, tagName_local name named, plainAttributes_same written attributes quoted]
  rfl

def readDocument (text : List Char) : Except String XmlNode :=
  match XmlReader.read text with
  | some root => .ok (nodeOf root)
  | none => .error "not well formed"

theorem readDocument_quoted : ReadsQuoted readDocument := by
  apply readsQuoted_of_documents
  intro text root document
  rw [readDocument, XmlReader.read_document text root document]

end Reader

/-- What the builders write is read as the one document it was built as. -/
theorem builders_parsed (documentParse : List Char → Except String XmlNode)
    (reads : ReadsQuoted documentParse) :
    (∀ info : SenderInfo, Kept info.productName → Kept info.manufacturer → Kept info.version →
        SenderInfo.fromXml documentParse info.toXml = some info) ∧
      (∀ newAddress, Kept newAddress →
        parseMetadata documentParse (redirectXml newAddress) = [.redirect newAddress]) ∧
      (∀ url, Kept url → parseMetadata documentParse (webXml url) = [.web url]) ∧
      (∀ url, Kept url → parseMetadata documentParse (viscaOverIpXml url) =
        [.ptz ⟨"VISCAoverIP".toList, some url, none, none, none⟩]) ∧
      (∀ sequence commandHex, Kept sequence → Kept commandHex →
        parseMetadata documentParse (viscaCommandXml sequence commandHex) =
          [.ptz ⟨"VISCA".toList, none, some sequence, some commandHex, none⟩]) ∧
      ∀ sequence replyHex, Kept sequence → Kept replyHex →
        parseMetadata documentParse (viscaReplyXml sequence replyHex) =
          [.ptz ⟨"VISCA".toList, none, some sequence, none, some replyHex⟩] := by
  refine ⟨?_, redirectXml_parsed documentParse reads, webXml_parsed documentParse reads,
    viscaOverIpXml_parsed documentParse reads, viscaCommandXml_parsed documentParse reads,
    viscaReplyXml_parsed documentParse reads⟩
  intro info product manufacturer version
  rw [SenderInfo.fromXml, senderInfo_parsed documentParse reads info product manufacturer version]
  rfl

theorem builders_parsed_quoted :
    SenderInfo.fromXml readDocument
        (SenderInfo.toXml ⟨"A&amp;B".toList, "\" Version=\"9".toList, "1>0 '".toList⟩) =
      some ⟨"A&amp;B".toList, "\" Version=\"9".toList, "1>0 '".toList⟩ ∧
    parseMetadata readDocument (viscaCommandXml "&lt;7".toList "81'01<".toList) =
      [.ptz ⟨"VISCA".toList, none, some "&lt;7".toList, some "81'01<".toList, none⟩] := by
  have builders := builders_parsed readDocument readDocument_quoted
  exact ⟨builders.1 _ (by decide) (by decide) (by decide),
    builders.2.2.2.2.1 _ _ (by decide) (by decide)⟩

end MetadataBuilders

end OpenMediaTransport
