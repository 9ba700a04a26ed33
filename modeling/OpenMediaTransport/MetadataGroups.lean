import OpenMediaTransport.GroupFlatten
import OpenMediaTransport.XmlReader

/-!
`group_xml` and what becomes of the documents in a group. A parser is relied on to take
exactly the well-formed texts; how it cuts character data into nodes is left to it.
-/

namespace OpenMediaTransport

open Markup Text XmlGrammar

def groupXml (inner : List (List Char)) : List Char :=
  inner.foldl (fun out xml => out ++ trim xml ++ ['\n']) "<OMTGroup>\n".toList ++
    "</OMTGroup>".toList

def tallyXml (tally : Tally) : List Char :=
  match tally.preview != 0, tally.program != 0 with
  | false, false => tallyNone
  | true, false => tallyPreview
  | false, true => tallyProgram
  | true, true => tallyPreviewProgram

/-! The tree of a derivation, as a parser hands it over. -/

def localName (name : List Char) : List Char :=
  match splitOnce name ':' with
  | some (_, part) => part
  | none => name

/-- Such an attribute is no attribute of the element. -/
def declaresNamespace (name : List Char) : Bool :=
  name == "xmlns".toList || "xmlns:".toList.isPrefixOf name

def plainAttributes (attributes : List (List Char × List Char)) : List (List Char × List Char) :=
  (attributes.filter fun pair => !declaresNamespace pair.1).map fun pair =>
    (localName pair.1, pair.2)

mutual
def nodeOf : SyntaxNode → XmlNode
  | .element name attributes children =>
      .element (localName name) (plainAttributes attributes) (nodesOf children)
  | .char content => .text [content]
  | .other => .other

def nodesOf : List SyntaxNode → List XmlNode
  | [] => []
  | node :: rest => nodeOf node :: nodesOf rest
end

/-- What is relied on: of the texts without declarations exactly the well-formed ones are
taken, and the same is read from the tree as from the derived one. -/
structure ParsesWellFormed (documentParse : List Char → Except String XmlNode) : Prop where
  accepts : ∀ text, ¬ Declares text →
    ((∃ root, documentParse text = .ok root) ↔ ∃ element, Document text element)
  reads : ∀ text root element, ¬ Declares text → documentParse text = .ok root →
    Document text element → fromNode root = fromNode (nodeOf element)

theorem nodesOf_append (front back : List SyntaxNode) :
    nodesOf (front ++ back) = nodesOf front ++ nodesOf back := by
  induction front with
  | nil => rfl
  | cons node rest ih => rw [List.cons_append, nodesOf, nodesOf, ih, List.cons_append]

theorem fromChildren_bare (front : List SyntaxNode) (rest : List XmlNode)
    (bare : ∀ node ∈ front, node.isElement = false) :
    fromChildren (nodesOf front ++ rest) = fromChildren rest := by
  induction front with
  | nil => rfl
  | cons node more ih =>
      have later := ih fun next member => bare next (List.mem_cons_of_mem _ member)
      have own := bare node List.mem_cons_self
      cases node with
      | element name attributes children => cases own
      | char content =>
          rw [nodesOf, nodeOf, List.cons_append, fromChildren]
          exact later
      | other =>
          rw [nodesOf, nodeOf, List.cons_append, fromChildren]
          exact later

theorem fromChildren_element (node : SyntaxNode) (rest : List XmlNode)
    (element : node.isElement = true) :
    fromChildren (nodeOf node :: rest) = fromNode (nodeOf node) :: fromChildren rest := by
  cases node with
  | element name attributes children => rw [nodeOf, fromChildren]
  | char content => cases element
  | other => cases element

theorem document_element (text : List Char) (root : SyntaxNode) (document : Document text root) :
    root.isElement = true := by
  obtain ⟨_, _, _, _, _, part, _⟩ := document
  cases part with
  | empty => rfl
  | full => rfl

/-! The texts of a group. -/

theorem tallyXml_bare (tally : Tally) : lineEnds (trim (tallyXml tally)) = tallyXml tally := by
  unfold tallyXml
  split <;> decide +kernel

theorem tallyConstant_iff (xml : List Char) :
    tallyFromLibomtnetConstant xml = none ↔ ∀ tally, xml ≠ tallyXml tally := by
  constructor
  · rintro unknown tally rfl
    unfold tallyXml at unknown
    split at unknown <;> revert unknown <;> decide
  · intro apart
    have preview := apart ⟨1, 0⟩
    have program := apart ⟨0, 1⟩
    have both := apart ⟨1, 1⟩
    have dark := apart ⟨0, 0⟩
    simp only [tallyXml] at preview program both dark
    simp_all [tallyFromLibomtnetConstant]

def groupBody (inner : List (List Char)) : List Char := inner.flatMap fun xml => trim xml ++ ['\n']

theorem groupXml_body (inner : List (List Char)) :
    groupXml inner = "<OMTGroup>\n".toList ++ (groupBody inner ++ "</OMTGroup>".toList) := by
  have folded (out : List Char) :
      inner.foldl (fun out xml => out ++ trim xml ++ ['\n']) out = out ++ groupBody inner := by
    induction inner generalizing out with
    | nil => exact (List.append_nil out).symm
    | cons xml rest ih =>
        rw [List.foldl_cons, ih, groupBody, groupBody, List.flatMap_cons]
        simp only [List.append_assoc]
  rw [groupXml, folded, List.append_assoc]

theorem lineEnds_groupBody (inner : List (List Char)) (rest : List Char) :
    lineEnds (groupBody inner ++ rest) =
      inner.flatMap (fun xml => lineEnds (trim xml) ++ ['\n']) ++ lineEnds rest := by
  induction inner with
  | nil => rfl
  | cons xml more ih =>
      have last : (trim xml).getLast? ≠ some '\r' := by
        intro ends
        obtain ⟨init, whole⟩ := List.getLast?_eq_some_iff.mp ends
        exact absurd ((trim_trimmed xml).last init _ whole) (by decide)
      have moved : groupBody (xml :: more) ++ rest = trim xml ++ '\n' :: (groupBody more ++ rest) := by
        simp [groupBody]
      have feed : lineEnds ('\n' :: (groupBody more ++ rest)) = '\n' :: lineEnds (groupBody more ++ rest) := by
        simp [lineEnds]
      rw [moved, lineEnds_append _ _ fun ends => absurd ends last, feed, ih]
      simp

theorem lineEnds_groupXml (inner : List (List Char)) :
    lineEnds (groupXml inner) =
      "<OMTGroup>\n".toList ++ (inner.flatMap (fun xml => lineEnds (trim xml) ++ ['\n']) ++
        "</OMTGroup>".toList) := by
  have front := lineEnds_append "<OMTGroup>\n".toList (groupBody inner ++ "</OMTGroup>".toList)
    fun ends => absurd ends (by decide)
  rw [groupXml_body, front, lineEnds_groupBody]
  rfl

/-! Documents that are all well formed make a well-formed group of their roots. -/

theorem groupBody_inside (inner : List (List Char)) (roots : List SyntaxNode)
    (documents : List.Forall₂ Document inner roots) :
    ∃ nodes, Inside (inner.flatMap fun xml => lineEnds (trim xml) ++ ['\n']) nodes ∧
      fromChildren (nodesOf nodes) = roots.map fun root => fromNode (nodeOf root) := by
  induction documents with
  | nil => exact ⟨[], fun brackets => .nil brackets, rfl⟩
  | cons document rest ih =>
      rename_i xml root more others
      obtain ⟨nodes, inside, children⟩ := ih
      have line := inside.space '\n' _ _ rfl
      obtain ⟨front, back, bare, whole⟩ := document.inside xml _ root _ line
      refine ⟨front ++ root :: (back ++ .char '\n' :: nodes), ?_, ?_⟩
      · simpa using whole
      · have first : fromChildren (nodesOf front ++ nodeOf root ::
            (nodesOf back ++ (.text ['\n'] :: nodesOf nodes))) =
            fromNode (nodeOf root) :: fromChildren (nodesOf nodes) := by
          rw [fromChildren_bare front _ fun node member => bare node (List.mem_append_left _ member),
            fromChildren_element root _ (document_element xml root document),
            fromChildren_bare back _ fun node member => bare node (List.mem_append_right _ member),
            fromChildren]
        rw [List.map_cons, ← children, ← first]
        simp [nodesOf_append, nodesOf, nodeOf]

theorem group_document (inner : List (List Char)) (roots : List SyntaxNode)
    (documents : List.Forall₂ Document inner roots) :
    ∃ nodes, Document (groupXml inner) (.element "OMTGroup".toList [] nodes) ∧
      fromChildren (nodesOf nodes) = roots.map fun root => fromNode (nodeOf root) := by
  obtain ⟨nodes, inside, children⟩ := groupBody_inside inner roots documents
  have content := inside.space '\n' _ _ rfl 0
  have group := Part.full "OMTGroup".toList [] [] _ [] [] _ (by decide) .nil List.nodup_nil ⟨rfl, rfl⟩ content
  refine ⟨.char '\n' :: nodes, ⟨[], _, [], ?_, .nil, group, .nil⟩, ?_⟩
  · rw [lineEnds_groupXml]
    simp
  · rw [nodesOf, nodeOf, fromChildren, children]

/-! A tally text in a group, wherever it stands, stops the reader for good. -/

theorem run_tally (tally : Tally) (stack : List XmlReader.Scope) (root : Option SyntaxNode)
    (rest : List Char) : XmlReader.Reader.run ⟨.data, stack, root⟩ (tallyXml tally ++ rest) = none := by
  unfold tallyXml
  split <;> rfl

theorem run_groupBody (inner : List (List Char)) (rest : List Char) (stack : List XmlReader.Scope)
    (scope : XmlReader.Scope) (root : Option SyntaxNode)
    (each : ∀ xml ∈ inner, (∃ tally, xml = tallyXml tally) ∨ ∃ element, Document xml element)
    (spoilt : ∃ xml ∈ inner, ∃ tally, xml = tallyXml tally) :
    XmlReader.Reader.run ⟨.data, scope :: stack, root⟩
      (inner.flatMap (fun xml => lineEnds (trim xml) ++ ['\n']) ++ rest) = none := by
  induction inner generalizing scope with
  | nil =>
      obtain ⟨_, member, _⟩ := spoilt
      cases member
  | cons xml more ih =>
      rw [List.flatMap_cons, List.append_assoc, List.append_assoc]
      rcases each xml List.mem_cons_self with ⟨tally, rfl⟩ | ⟨element, document⟩
      · rw [tallyXml_bare]
        exact run_tally tally _ _ _
      · by_cases own : ∃ tally, xml = tallyXml tally
        · obtain ⟨tally, rfl⟩ := own
          rw [tallyXml_bare]
          exact run_tally tally _ _ _
        · -- A well-formed document is read past, and the tally text is still to come.
          obtain ⟨front, back, _, inside⟩ :=
            document.inside xml [] element [] fun brackets => .nil brackets
          rw [List.append_nil] at inside
          have passed := XmlReader.Reader.part_reads _ _ _ (inside 0) scope stack root
            (['\n'] ++ (more.flatMap (fun xml => lineEnds (trim xml) ++ ['\n']) ++ rest))
          have feed (now : XmlReader.Scope) : XmlReader.Reader.step ⟨.data, now :: stack, root⟩ '\n' =
              some ⟨.data, ⟨now.tag, now.children ++ [.char '\n']⟩ :: stack, root⟩ := rfl
          rw [passed, List.cons_append, XmlReader.Reader.run_step _ _ _ _ (feed _)]
          refine ih _ (fun other member => each other (List.mem_cons_of_mem _ member)) ?_
          obtain ⟨other, member, tally⟩ := spoilt
          rcases List.mem_cons.mp member with rfl | later
          · exact absurd tally own
          · exact ⟨other, later, tally⟩

theorem group_malformed (inner : List (List Char))
    (each : ∀ xml ∈ inner, (∃ tally, xml = tallyXml tally) ∨ ∃ element, Document xml element)
    (spoilt : ∃ xml ∈ inner, ∃ tally, xml = tallyXml tally) :
    ¬ ∃ element, Document (groupXml inner) element := by
  rintro ⟨element, document⟩
  have whole := XmlReader.read_document _ element document
  have entered (rest : List Char) : XmlReader.start.run ("<OMTGroup>\n".toList ++ rest) =
      XmlReader.Reader.run ⟨.data, [⟨⟨"OMTGroup".toList, []⟩, [.char '\n']⟩], none⟩ rest := rfl
  rw [XmlReader.read, lineEnds_groupXml, entered, run_groupBody inner _ [] _ none each spoilt] at whole
  cases whole

/-! What `parse_metadata` makes of the documents and of the group. -/

theorem groupXml_opens (inner : List (List Char)) :
    ∃ rest, groupXml inner = '<' :: 'O' :: rest ∧ tallyFromLibomtnetConstant (groupXml inner) = none := by
  have other : (groupXml inner).take 5 ≠ "<OMTT".toList := by
    rw [groupXml_body]
    simp
  rw [groupXml_body] at other ⊢
  exact ⟨_, rfl, tallyFromLibomtnetConstant_other _ other⟩

theorem unmarked (xml : List Char) (bare : ¬ Declares xml) :
    trimStartMatches (· == '\uFEFF') xml = xml := by
  cases xml with
  | nil => rfl
  | cons char rest =>
      refine List.dropWhile_cons_of_neg fun mark => bare (.inl ?_)
      rw [beq_iff_eq.mp mark]
      rfl

section Parser
variable (documentParse : List Char → Except String XmlNode)

theorem parseMetadata_document (wellFormed : ParsesWellFormed documentParse) (xml : List Char)
    (element : SyntaxNode) (bare : ¬ Declares xml) (untold : tallyFromLibomtnetConstant xml = none)
    (document : Document xml element) :
    parseMetadata documentParse xml = flattenElement (fromNode (nodeOf element)) := by
  obtain ⟨root, parsed⟩ := (wellFormed.accepts xml bare).mpr ⟨element, document⟩
  have same := wellFormed.reads xml root element bare parsed document
  simp only [parseMetadata, untold, XmlElement.parse, unmarked xml bare, parsed, same]

theorem parseMetadata_malformed (wellFormed : ParsesWellFormed documentParse) (xml : List Char)
    (bare : ¬ Declares xml) (untold : tallyFromLibomtnetConstant xml = none)
    (malformed : ¬ ∃ element, Document xml element) : parseMetadata documentParse xml = [] := by
  cases parsed : documentParse xml with
  | ok root => exact absurd ((wellFormed.accepts xml bare).mp ⟨root, parsed⟩) malformed
  | error reason => simp only [parseMetadata, untold, XmlElement.parse, unmarked xml bare, parsed]

theorem parseMetadata_some (wellFormed : ParsesWellFormed documentParse) (xml : List Char)
    (bare : ¬ Declares xml) (accepted : parseMetadata documentParse xml ≠ []) :
    (∃ tally, xml = tallyXml tally) ∨ ∃ element, Document xml element := by
  by_cases told : ∀ tally, xml ≠ tallyXml tally
  · refine .inr (Classical.not_not.mp fun malformed => accepted ?_)
    exact parseMetadata_malformed documentParse wellFormed xml bare ((tallyConstant_iff xml).mpr told) malformed
  · obtain ⟨tally, same⟩ := not_forall.mp told
    exact .inl ⟨tally, Classical.not_not.mp same⟩

theorem documents_roots (wellFormed : ParsesWellFormed documentParse) (docs : List (List Char))
    (bare : ∀ doc ∈ docs, ¬ Declares doc) (accepted : ∀ doc ∈ docs, parseMetadata documentParse doc ≠ [])
    (untold : ∀ doc ∈ docs, ∀ tally, doc ≠ tallyXml tally) :
    ∃ roots, List.Forall₂ Document docs roots ∧
      docs.flatMap (parseMetadata documentParse) =
        roots.flatMap fun root => flattenElement (fromNode (nodeOf root)) := by
  induction docs with
  | nil => exact ⟨[], .nil, rfl⟩
  | cons doc rest ih =>
      obtain ⟨roots, documents, same⟩ := ih (fun xml member => bare xml (List.mem_cons_of_mem _ member))
        (fun xml member => accepted xml (List.mem_cons_of_mem _ member))
        (fun xml member => untold xml (List.mem_cons_of_mem _ member))
      have own := untold doc List.mem_cons_self
      have clear := bare doc List.mem_cons_self
      obtain ⟨tally, told⟩ | ⟨root, document⟩ :=
        parseMetadata_some documentParse wellFormed doc clear (accepted doc List.mem_cons_self)
      · exact absurd told (own tally)
      · refine ⟨root :: roots, .cons document documents, ?_⟩
        rw [List.flatMap_cons, List.flatMap_cons, same, parseMetadata_document documentParse wellFormed doc
          root clear ((tallyConstant_iff doc).mpr own) document]

/-- A group gives the metadata of its documents, in order, if and only if no document is one
of the tally texts. -/
theorem grouping_composes_iff (wellFormed : ParsesWellFormed documentParse) (docs : List (List Char))
    (bare : ∀ doc ∈ docs, ¬ Declares doc)
    (accepted : ∀ doc ∈ docs, parseMetadata documentParse doc ≠ []) :
    parseMetadata documentParse (groupXml docs) = docs.flatMap (parseMetadata documentParse) ↔
      ∀ doc ∈ docs, ∀ tally, doc ≠ tallyXml tally := by
  obtain ⟨rest, opens, unknown⟩ := groupXml_opens docs
  have groupBare : ¬ Declares (groupXml docs) := by
    rw [opens]
    exact tag_declares_nothing 'O' rest (by decide)
  constructor
  · -- A tally text leaves the group without a derivation, and nothing is read.
    rintro composes doc member tally told
    have each (xml : List Char) (inside : xml ∈ docs) :=
      parseMetadata_some documentParse wellFormed xml (bare xml inside) (accepted xml inside)
    have malformed := group_malformed docs each ⟨doc, member, tally, told⟩
    rw [parseMetadata_malformed documentParse wellFormed _ groupBare unknown malformed] at composes
    exact accepted doc member (List.flatMap_eq_nil_iff.mp composes.symm doc member)
  · -- Otherwise the roots of the documents are the children of the group.
    intro untold
    obtain ⟨roots, documents, same⟩ := documents_roots documentParse wellFormed docs bare accepted untold
    obtain ⟨nodes, group, children⟩ := group_document docs roots documents
    have element : fromNode (nodeOf (.element "OMTGroup".toList [] nodes)) =
        ⟨"OMTGroup".toList, [], roots.map fun root => fromNode (nodeOf root),
          trim (textOf (nodesOf nodes))⟩ := by
      rw [nodeOf, fromNode, children]
      rfl
    rw [same, parseMetadata_document documentParse wellFormed _ _ groupBare unknown group, element,
      flattenElement, if_pos (beq_self_eq_true _), flattenAll_flatMap, List.flatMap_map]
end Parser

open Classical in
/-- The parser that takes what the reader reads and the grammar derives. -/
noncomputable def parseWellFormed (text : List Char) : Except String XmlNode :=
  match XmlReader.read text with
  | some root => if Document text root then .ok (nodeOf root) else .error "not well formed"
  | none => .error "not well formed"

theorem parseWellFormed_document (text : List Char) (element : SyntaxNode)
    (document : Document text element) : parseWellFormed text = .ok (nodeOf element) := by
  simp only [parseWellFormed, XmlReader.read_document text element document, if_pos document]

theorem parseWellFormed_ok (text : List Char) (root : XmlNode) (parsed : parseWellFormed text = .ok root) :
    ∃ element, Document text element := by
  unfold parseWellFormed at parsed
  split at parsed
  · split at parsed
    · exact ⟨_, ‹_›⟩
    · cases parsed
  · cases parsed

theorem parseWellFormed_parses : ParsesWellFormed parseWellFormed where
  accepts := fun text _ => ⟨fun ⟨root, parsed⟩ => parseWellFormed_ok text root parsed,
    fun ⟨element, document⟩ => ⟨_, parseWellFormed_document text element document⟩⟩
  reads := by
    intro text root element _ parsed document
    rw [parseWellFormed_document text element document] at parsed
    cases parsed
    rfl

def webDocument : List Char := "<OMTWeb URL=\"http://10.0.0.5/\" />".toList

def webElement : SyntaxNode :=
  .element "OMTWeb".toList [("URL".toList, "http://10.0.0.5/".toList)] []

theorem webDocument_derived : Document webDocument webElement := by
  have value := AttValue.plain '"' "http://10.0.0.5/".toList rfl
  have url := Attributes.cons [' '] "URL".toList [] [] _ _ [] '"' [] (by decide) ⟨rfl, rfl, rfl⟩
    (by decide) (.inl rfl) value .nil
  have web := Part.empty "OMTWeb".toList _ [' '] _ (by decide) url (by decide) rfl
  exact ⟨[], _, [], by decide, .nil, web, .nil⟩

theorem webDocument_bare : ¬ Declares webDocument := tag_declares_nothing 'O' _ (by decide)

theorem webDocument_metadata :
    parseMetadata parseWellFormed webDocument = [.web "http://10.0.0.5/".toList] :=
  parseMetadata_document parseWellFormed parseWellFormed_parses webDocument webElement webDocument_bare
    (tallyFromLibomtnetConstant_other _ (by decide)) webDocument_derived

theorem grouping_composes_iff_web :
    parseMetadata parseWellFormed (groupXml [webDocument, webDocument]) =
      [webDocument, webDocument].flatMap (parseMetadata parseWellFormed) := by
  refine (grouping_composes_iff parseWellFormed parseWellFormed_parses _ ?_ ?_).mpr ?_
  · simpa using webDocument_bare
  · simp [webDocument_metadata]
  · have untold := (tallyConstant_iff webDocument).mp (tallyFromLibomtnetConstant_other _ (by decide))
    simpa using untold

/-- One tally text, and nothing of the group is seen. -/
theorem tally_spoils_group :
    ∃ documentParse, ParsesWellFormed documentParse ∧
      (∀ doc ∈ [webDocument, tallyXml ⟨1, 0⟩],
        ¬ Declares doc ∧ parseMetadata documentParse doc ≠ []) ∧
      parseMetadata documentParse (groupXml [webDocument, tallyXml ⟨1, 0⟩]) = [] ∧
      [webDocument, tallyXml ⟨1, 0⟩].flatMap (parseMetadata documentParse) =
        [.web "http://10.0.0.5/".toList, .tally ⟨1, 0⟩] := by
  have tallyBare : ¬ Declares (tallyXml ⟨1, 0⟩) := tag_declares_nothing 'O' _ (by decide)
  have tally : parseMetadata parseWellFormed (tallyXml ⟨1, 0⟩) = [.tally ⟨1, 0⟩] := rfl
  have each : ∀ doc ∈ [webDocument, tallyXml ⟨1, 0⟩],
      (∃ tally, doc = tallyXml tally) ∨ ∃ element, Document doc element := by
    simp only [List.mem_cons, List.not_mem_nil, or_false]
    rintro doc (rfl | rfl)
    · exact .inr ⟨webElement, webDocument_derived⟩
    · exact .inl ⟨⟨1, 0⟩, rfl⟩
  have malformed := group_malformed _ each ⟨tallyXml ⟨1, 0⟩, by simp, ⟨1, 0⟩, rfl⟩
  obtain ⟨rest, opens, unknown⟩ := groupXml_opens [webDocument, tallyXml ⟨1, 0⟩]
  have groupBare : ¬ Declares (groupXml [webDocument, tallyXml ⟨1, 0⟩]) := by
    rw [opens]
    exact tag_declares_nothing 'O' rest (by decide)
  refine ⟨parseWellFormed, parseWellFormed_parses, ?_, ?_, ?_⟩
  · simp [webDocument_bare, tallyBare, webDocument_metadata, tally]
  · exact parseMetadata_malformed _ parseWellFormed_parses _ groupBare unknown malformed
  · simp [webDocument_metadata, tally]

end OpenMediaTransport
