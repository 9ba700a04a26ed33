import Mathlib.Data.List.Lex
import Mathlib.Order.Basic
import Mathlib.Order.Lattice

/-!
A map that keeps its entries in the order of their keys, as a list that carries
its order. Writing the entries out and inserting them one after the other gives
the map back.
-/

namespace OpenMediaTransport

universe u v

@[ext]
structure OrderedMap (Key : Type u) (Value : Type v) [LinearOrder Key] where
  entries : List (Key × Value)
  ordered : entries.Pairwise fun first second => first.1 < second.1

namespace OrderedMap

variable {Key : Type u} {Value : Type v} [LinearOrder Key]

def empty : OrderedMap Key Value := ⟨[], List.Pairwise.nil⟩

def insertEntry (key : Key) (value : Value) : List (Key × Value) → List (Key × Value)
  | [] => [(key, value)]
  | first :: rest =>
      if key < first.1 then (key, value) :: first :: rest
      else if key = first.1 then (key, value) :: rest
      else first :: insertEntry key value rest

theorem insertEntry_mem (key : Key) (value : Value) (entries : List (Key × Value))
    (entry : Key × Value) (member : entry ∈ insertEntry key value entries) :
    entry = (key, value) ∨ entry ∈ entries := by
  induction entries with
  | nil => exact .inl (List.mem_singleton.mp member)
  | cons first rest ih =>
      rw [insertEntry] at member
      split at member
      · exact List.mem_cons.mp member
      split at member
      · exact (List.mem_cons.mp member).imp_right (List.mem_cons_of_mem first)
      · rcases List.mem_cons.mp member with same | later
        · exact .inr (same ▸ List.mem_cons_self)
        · exact (ih later).imp_right (List.mem_cons_of_mem first)

theorem insertEntry_ordered (key : Key) (value : Value) (entries : List (Key × Value))
    (ordered : entries.Pairwise fun first second => first.1 < second.1) :
    (insertEntry key value entries).Pairwise fun first second => first.1 < second.1 := by
  induction entries with
  | nil => exact List.pairwise_singleton _ _
  | cons first rest ih =>
      obtain ⟨least, tail⟩ := List.pairwise_cons.mp ordered
      rw [insertEntry]
      split
      · rename_i before
        refine List.pairwise_cons.mpr ⟨fun entry member => ?_, ordered⟩
        rcases List.mem_cons.mp member with rfl | later
        · exact before
        · exact lt_trans before (least entry later)
      split
      · rename_i same
        exact List.pairwise_cons.mpr ⟨fun entry member => same ▸ least entry member, tail⟩
      · rename_i notBefore apart
        refine List.pairwise_cons.mpr ⟨fun entry member => ?_, ih tail⟩
        rcases insertEntry_mem key value rest entry member with rfl | later
        · exact lt_of_le_of_ne (not_lt.mp notBefore) (Ne.symm apart)
        · exact least entry later

def insert (map : OrderedMap Key Value) (key : Key) (value : Value) : OrderedMap Key Value :=
  ⟨insertEntry key value map.entries, insertEntry_ordered key value map.entries map.ordered⟩

def remove (map : OrderedMap Key Value) (key : Key) : OrderedMap Key Value :=
  ⟨map.entries.filter fun entry => entry.1 ≠ key, map.ordered.filter _⟩

def keys (map : OrderedMap Key Value) : List Key := map.entries.map Prod.fst

def mapValues (map : OrderedMap Key Value) (change : Value → Value) : OrderedMap Key Value :=
  ⟨map.entries.map fun entry => (entry.1, change entry.2),
    List.pairwise_map.mpr map.ordered⟩

def insertAll (map : OrderedMap Key Value) (entries : List (Key × Value)) :
    OrderedMap Key Value :=
  entries.foldl (fun map entry => map.insert entry.1 entry.2) map

theorem insert_last (map : OrderedMap Key Value) (key : Key) (value : Value)
    (last : ∀ entry ∈ map.entries, entry.1 < key) :
    (map.insert key value).entries = map.entries ++ [(key, value)] := by
  change insertEntry key value map.entries = _
  revert last
  induction map.entries with
  | nil => intro _; rfl
  | cons first rest ih =>
      intro last
      have before := last first List.mem_cons_self
      rw [insertEntry, if_neg (not_lt_of_gt before), if_neg (ne_of_gt before),
        ih fun entry member => last entry (List.mem_cons_of_mem first member)]
      rfl

theorem insertAll_entries (map : OrderedMap Key Value) (entries : List (Key × Value))
    (ordered : (map.entries ++ entries).Pairwise fun first second => first.1 < second.1) :
    (map.insertAll entries).entries = map.entries ++ entries := by
  induction entries generalizing map with
  | nil => exact (List.append_nil _).symm
  | cons entry rest ih =>
      have last : ∀ earlier ∈ map.entries, earlier.1 < entry.1 := fun earlier member =>
        (List.pairwise_append.mp ordered).2.2 earlier member entry List.mem_cons_self
      have inserted := insert_last map entry.1 entry.2 last
      have regroup : map.entries ++ entry :: rest = (map.insert entry.1 entry.2).entries ++ rest := by
        rw [inserted, List.append_assoc]
        rfl
      rw [regroup] at ordered ⊢
      exact ih (map.insert entry.1 entry.2) ordered

/-- Inserting ordered entries one after the other into the empty map keeps them all. -/
theorem insertAll_empty (entries : List (Key × Value))
    (ordered : entries.Pairwise fun first second => first.1 < second.1) :
    ((empty : OrderedMap Key Value).insertAll entries).entries = entries :=
  insertAll_entries empty entries ordered

/-! Looking a key up. -/

def findEntry (entries : List (Key × Value)) (key : Key) : Option Value :=
  (entries.find? fun entry => entry.1 = key).map Prod.snd

def find (map : OrderedMap Key Value) (key : Key) : Option Value := findEntry map.entries key

theorem findEntry_cons (first : Key × Value) (rest : List (Key × Value)) (key : Key) :
    findEntry (first :: rest) key = if first.1 = key then some first.2 else findEntry rest key := by
  unfold findEntry
  rw [List.find?_cons]
  by_cases same : first.1 = key
  · rw [decide_eq_true same, if_pos same]
    rfl
  · rw [decide_eq_false same, if_neg same]

theorem findEntry_absent (entries : List (Key × Value)) (key : Key)
    (absent : ∀ entry ∈ entries, entry.1 ≠ key) : findEntry entries key = none := by
  unfold findEntry
  rw [List.find?_eq_none.mpr fun entry member => by simpa using absent entry member]
  rfl

theorem findEntry_append (front back : List (Key × Value)) (key : Key) :
    findEntry (front ++ back) key = (findEntry front key).or (findEntry back key) := by
  unfold findEntry
  rw [List.find?_append, Option.map_or]

theorem find_insert (map : OrderedMap Key Value) (key other : Key) (value : Value) :
    (map.insert key value).find other = if other = key then some value else map.find other := by
  change findEntry (insertEntry key value map.entries) other =
    if other = key then some value else findEntry map.entries other
  induction map.entries with
  | nil =>
      rw [insertEntry, findEntry_cons]
      exact if_congr eq_comm rfl rfl
  | cons first rest ih =>
      rw [insertEntry]
      split
      · rw [findEntry_cons]
        exact if_congr eq_comm rfl rfl
      split
      · rename_i same
        rw [findEntry_cons, findEntry_cons, ← same]
        by_cases this : key = other
        · rw [if_pos this, if_pos this.symm]
        · rw [if_neg this, if_neg fun other_eq => this other_eq.symm, if_neg this]
      · rename_i apart
        rw [findEntry_cons, findEntry_cons, ih]
        by_cases this : first.1 = other
        · rw [if_pos this, if_pos this, if_neg fun other_eq => apart (other_eq.symm.trans this.symm)]
        · rw [if_neg this, if_neg this]

theorem find_remove (map : OrderedMap Key Value) (key other : Key) :
    (map.remove key).find other = if other = key then none else map.find other := by
  change findEntry (map.entries.filter fun entry => entry.1 ≠ key) other =
    if other = key then none else findEntry map.entries other
  by_cases same : other = key
  · rw [if_pos same]
    refine findEntry_absent _ other fun entry member => ?_
    rw [same]
    exact of_decide_eq_true (List.mem_filter.mp member).2
  · rw [if_neg same]
    induction map.entries with
    | nil => rfl
    | cons first rest ih =>
        rw [List.filter_cons, findEntry_cons]
        by_cases gone : first.1 = key
        · rw [if_neg (by simpa using gone), ih, if_neg fun this => same (this.symm.trans gone)]
        · rw [if_pos (by simpa using gone), findEntry_cons, ih]

end OrderedMap

end OpenMediaTransport
