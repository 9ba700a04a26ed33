import Mathlib.Data.List.Lex
import OpenMediaTransport.MetadataXml

/-!
`flatten` of nested groups. An element has a path of child positions from the root;
document order is the order of the paths, compared place by place. Only groups are
opened, so that what comes out lies below groups alone.
-/

namespace OpenMediaTransport

mutual
def XmlElement.size : XmlElement → Nat
  | ⟨_, _, children, _⟩ => sizeAll children + 1

def sizeAll : List XmlElement → Nat
  | [] => 0
  | element :: rest => element.size + sizeAll rest
end

theorem size_le_sizeAll (elements : List XmlElement) (element : XmlElement)
    (inside : element ∈ elements) : element.size ≤ sizeAll elements := by
  induction elements with
  | nil => cases inside
  | cons first rest ih =>
      rw [sizeAll]
      rcases List.mem_cons.mp inside with rfl | later
      · exact Nat.le_add_right _ _
      · exact Nat.le_trans (ih later) (Nat.le_add_left _ _)

/-- What `flatten` goes down on: the element that it may open. -/
def Metadata.weight : Metadata → Nat
  | .unknown element => element.size
  | _ => 0

theorem elementToMetadata_weight (element child : XmlElement) (inside : child ∈ element.children) :
    (elementToMetadata child).weight < element.size := by
  have smaller : child.size < element.size := by
    cases element with
    | mk name attributes children text =>
        rw [XmlElement.size]
        exact Nat.lt_succ_of_le (size_le_sizeAll children child inside)
  have kept := elementToMetadata_keeps child
  cases item : elementToMetadata child with
  | unknown element =>
      rw [kept element item]
      exact smaller
  | _ => exact Nat.lt_of_le_of_lt (Nat.zero_le _) smaller

def flatten : Metadata → List Metadata
  | .unknown element =>
      if element.name == "OMTGroup".toList then
        element.children.attach.flatMap fun child => flatten (elementToMetadata child.val)
      else [.unknown element]
  | other => [other]
termination_by item => item.weight
decreasing_by exact elementToMetadata_weight element child.val child.property

theorem flatten_element (element : XmlElement) :
    flatten (elementToMetadata element) = flattenElement element := by
  have opened (item : Metadata) : flatten item = match item with
      | .unknown group =>
          if group.name == "OMTGroup".toList then group.children.flatMap flattenElement
          else [.unknown group]
      | item => [item] := by
    induction item using flatten.induct with
    | case1 group named ih =>
        rw [flatten, if_pos named]
        dsimp only
        rw [if_pos named]
        conv_rhs => rw [← List.attach_map_subtype_val group.children, List.flatMap_map]
        refine List.flatMap_congr fun child _ => ?_
        exact (ih child).trans (flattenElement_metadata child.val).symm
    | case2 group other =>
        rw [flatten, if_neg other]
        dsimp only
        rw [if_neg other]
    | case3 other known =>
        rw [flatten]
        · cases other with
          | unknown element => exact absurd rfl (known element)
          | _ => rfl
        · exact known
  exact (opened _).trans (flattenElement_metadata element).symm

/-! What lies below groups alone. -/

/-- The element at a path, if all above it are groups. -/
inductive GroupReaches : XmlElement → List Nat → XmlElement → Prop where
  | here (element : XmlElement) : GroupReaches element [] element
  | inside (group child element : XmlElement) (index : Nat) (path : List Nat)
      (named : group.name = "OMTGroup".toList) (found : group.children[index]? = some child)
      (rest : GroupReaches child path element) : GroupReaches group (index :: path) element

mutual
/-- The elements that come out, each with its path. -/
def ungrouped : XmlElement → List (List Nat × XmlElement)
  | ⟨name, attributes, children, text⟩ =>
      if name == "OMTGroup".toList then ungroupedFrom 0 children
      else [([], ⟨name, attributes, children, text⟩)]

def ungroupedFrom (index : Nat) : List XmlElement → List (List Nat × XmlElement)
  | [] => []
  | child :: rest =>
      (ungrouped child).map (fun found => (index :: found.1, found.2)) ++
        ungroupedFrom (index + 1) rest
end

mutual
theorem flattenElement_ungrouped : (element : XmlElement) →
    flattenElement element = (ungrouped element).map fun found => elementToMetadata found.2
  | ⟨name, attributes, children, text⟩ => by
      rw [flattenElement, ungrouped]
      split
      · exact flattenAll_ungrouped 0 children
      · rfl

theorem flattenAll_ungrouped (index : Nat) : (children : List XmlElement) →
    flattenAll children = (ungroupedFrom index children).map fun found => elementToMetadata found.2
  | [] => rfl
  | child :: rest => by
      rw [flattenAll, ungroupedFrom, List.map_append, List.map_map, flattenElement_ungrouped child,
        flattenAll_ungrouped (index + 1) rest]
      rfl
end

theorem ungroupedFrom_starts (index : Nat) (children : List XmlElement) :
    ∀ found ∈ ungroupedFrom index children, ∃ first path, found.1 = first :: path ∧ index ≤ first := by
  induction children generalizing index with
  | nil =>
      intro found member
      cases member
  | cons child rest ih =>
      intro found member
      rw [ungroupedFrom] at member
      rcases List.mem_append.mp member with front | back
      · obtain ⟨inner, _, rfl⟩ := List.mem_map.mp front
        exact ⟨index, inner.1, rfl, Nat.le_refl _⟩
      · obtain ⟨first, path, starts, later⟩ := ih (index + 1) found back
        exact ⟨first, path, starts, Nat.le_of_succ_le later⟩

mutual
theorem ungrouped_ordered : (element : XmlElement) →
    (ungrouped element).Pairwise fun left right => left.1 < right.1
  | ⟨name, attributes, children, text⟩ => by
      rw [ungrouped]
      split
      · exact ungroupedFrom_ordered 0 children
      · exact List.pairwise_singleton _ _

theorem ungroupedFrom_ordered (index : Nat) : (children : List XmlElement) →
    (ungroupedFrom index children).Pairwise fun left right => left.1 < right.1
  | [] => List.Pairwise.nil
  | child :: rest => by
      rw [ungroupedFrom, List.pairwise_append]
      refine ⟨?_, ungroupedFrom_ordered (index + 1) rest, ?_⟩
      · rw [List.pairwise_map]
        refine (ungrouped_ordered child).imp fun before => ?_
        exact List.cons_lt_cons_iff.mpr (.inr ⟨rfl, before⟩)
      · intro left front right back
        obtain ⟨inner, _, rfl⟩ := List.mem_map.mp front
        obtain ⟨first, path, starts, later⟩ := ungroupedFrom_starts (index + 1) rest right back
        rw [starts]
        exact List.cons_lt_cons_iff.mpr (.inl later)
end

mutual
theorem ungrouped_reaches : (root : XmlElement) → (path : List Nat) → (element : XmlElement) →
    ((path, element) ∈ ungrouped root ↔
      GroupReaches root path element ∧ element.name ≠ "OMTGroup".toList)
  | ⟨name, attributes, children, text⟩, path, element => by
      rw [ungrouped]
      split
      · rename_i named
        have group : name = "OMTGroup".toList := beq_iff_eq.mp named
        rw [ungroupedFrom_reaches 0 children path element]
        constructor
        · rintro ⟨index, child, inner, found, rfl, reached, other⟩
          rw [Nat.zero_add]
          exact ⟨.inside _ child element index inner group found reached, other⟩
        · rintro ⟨reached, other⟩
          cases reached with
          | here => exact absurd group other
          | inside _ child _ index inner _ found rest =>
              exact ⟨index, child, inner, found, by rw [Nat.zero_add], rest, other⟩
      · rename_i other
        rw [List.mem_singleton]
        constructor
        · intro same
          cases same
          exact ⟨.here _, fun group => other (beq_iff_eq.mpr group)⟩
        · rintro ⟨reached, _⟩
          cases reached with
          | here => rfl
          | inside _ _ _ _ _ named => exact absurd (beq_iff_eq.mpr named) other

theorem ungroupedFrom_reaches (start : Nat) : (children : List XmlElement) → (path : List Nat) →
    (element : XmlElement) →
    ((path, element) ∈ ungroupedFrom start children ↔
      ∃ index child inner, children[index]? = some child ∧ path = (start + index) :: inner ∧
        GroupReaches child inner element ∧ element.name ≠ "OMTGroup".toList)
  | [], path, element => by
      rw [ungroupedFrom]
      constructor
      · intro member
        cases member
      · rintro ⟨index, child, inner, found, _⟩
        cases found
  | child :: rest, path, element => by
      rw [ungroupedFrom, List.mem_append, ungroupedFrom_reaches (start + 1) rest path element]
      constructor
      · rintro (front | ⟨index, other, inner, found, rfl, reached⟩)
        · obtain ⟨⟨inner, target⟩, member, same⟩ := List.mem_map.mp front
          cases same
          exact ⟨0, child, inner, rfl, rfl, (ungrouped_reaches child inner target).mp member⟩
        · refine ⟨index + 1, other, inner, found, ?_, reached⟩
          rw [Nat.add_assoc, Nat.add_comm 1]
      · rintro ⟨index, other, inner, found, rfl, reached⟩
        -- The first child is reached through itself, a later one through the rest.
        cases index with
        | zero =>
            cases found
            exact .inl (List.mem_map.mpr
              ⟨(inner, element), (ungrouped_reaches child inner element).mpr reached, rfl⟩)
        | succ index =>
            refine .inr ⟨index, other, inner, found, ?_, reached⟩
            rw [Nat.add_assoc, Nat.add_comm 1]
end

/-- Flattening gives the metadata of exactly these elements, in document order and each
once, and no group. -/
theorem flatten_lossless (root : XmlElement) :
    ∃ found : List (List Nat × XmlElement),
      (found.Pairwise fun left right => left.1 < right.1) ∧
      (∀ path element, (path, element) ∈ found ↔
        GroupReaches root path element ∧ element.name ≠ "OMTGroup".toList) ∧
      flatten (elementToMetadata root) = found.map (fun entry => elementToMetadata entry.2) ∧
      ∀ kept, Metadata.unknown kept ∈ flatten (elementToMetadata root) →
        kept.name ≠ "OMTGroup".toList := by
  have flattened : flatten (elementToMetadata root) =
      (ungrouped root).map fun entry => elementToMetadata entry.2 := by
    rw [flatten_element, flattenElement_ungrouped]
  refine ⟨ungrouped root, ungrouped_ordered root, ungrouped_reaches root, flattened, ?_⟩
  intro kept member
  rw [flattened] at member
  obtain ⟨⟨path, element⟩, inside, same⟩ := List.mem_map.mp member
  rw [elementToMetadata_keeps element kept same]
  exact ((ungrouped_reaches root path element).mp inside).2

end OpenMediaTransport
