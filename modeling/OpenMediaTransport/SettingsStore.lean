import OpenMediaTransport.SettingsRoundTrip

/-!
The settings of a process and their file, over any calls, saves and reloads. What a reader sees
is that of two plain maps, one in memory and one in the file: the scanner and the escaping are
not to be seen, but that saving trims the values and stops at a key that is named like the root.
-/

namespace OpenMediaTransport.Settings

open Text

/-- The file is `none` where it is missing or unreadable. -/
structure Store where
  values : Values
  file : Option (List Char)

/-- A file may be written by others, or left in any state by a save that fails. -/
inductive StoreStep where
  | call (call : Call)
  | save
  | reload
  | rewritten (file : Option (List Char))

def Store.act (store : Store) : StoreStep → Store
  | .call call => { store with values := Settings.call store.values call }
  | .save => { store with file := some (toXml store.values) }
  | .reload => { store with values := fromPath store.file }
  | .rewritten file => { store with file }

def Store.run (store : Store) (steps : List StoreStep) : Store := steps.foldl Store.act store

/-! What is read of the settings. -/

def lookup (values : Values) (key : List Char) : Option (List Char) :=
  if named : isXmlName key = true then values.find ⟨key, named⟩ else none

def getString (values : Values) (key default : List Char) : List Char :=
  (lookup values key).getD default

/-! Two plain maps. -/

abbrev Reading := List Char → Option (List Char)

/-- What is left of a reading in a file. -/
def Reading.saved (reading : Reading) : Reading := fun key =>
  if (reading rootName.1).isSome ∧ ¬ key < rootName.1 then none else (reading key).map trim

def Reading.call (reading : Reading) : Call → Reading
  | .setString key value =>
      if isXmlName key then Function.update reading key (some value) else reading
  | .setInteger key value =>
      if isXmlName key then Function.update reading key (some (integerText value)) else reading
  | .remove key => Function.update reading key none

structure Plain where
  values : Reading
  file : Reading

def Plain.act (plain : Plain) : StoreStep → Plain
  | .call call => { plain with values := plain.values.call call }
  | .save => { plain with file := plain.values.saved }
  | .reload => { plain with values := plain.file }
  | .rewritten file => { plain with file := lookup (fromPath file) }

def Plain.run (plain : Plain) (steps : List StoreStep) : Plain := steps.foldl Plain.act plain

def Store.plain (store : Store) : Plain := ⟨lookup store.values, lookup (fromPath store.file)⟩

/-! One step. -/

theorem lookup_named (values : Values) (name : XmlName) :
    lookup values name.1 = values.find name := dif_pos name.2

theorem lookup_setString (values : Values) (key value : List Char) :
    lookup (setString values key value) =
      if isXmlName key then Function.update (lookup values) key (some value)
      else lookup values := by
  unfold setString
  by_cases named : isXmlName key = true
  · rw [dif_pos named, if_pos named]
    funext other
    unfold lookup
    by_cases same : other = key
    · subst same
      rw [dif_pos named, OrderedMap.find_insert, if_pos rfl, Function.update_self]
    · rw [Function.update_of_ne same]
      by_cases name : isXmlName other = true
      · rw [dif_pos name, dif_pos name, OrderedMap.find_insert,
          if_neg fun equal => same (congrArg Subtype.val equal)]
      · rw [dif_neg name, dif_neg name]
  · rw [dif_neg named, if_neg named]

theorem lookup_remove (values : Values) (key : List Char) :
    lookup (remove values key) = Function.update (lookup values) key none := by
  funext other
  unfold remove lookup
  by_cases same : other = key
  · subst same
    rw [Function.update_self]
    by_cases named : isXmlName other = true
    · rw [dif_pos named, dif_pos named, OrderedMap.find_remove, if_pos rfl]
    · rw [dif_neg named]
  · rw [Function.update_of_ne same]
    by_cases named : isXmlName key = true
    · rw [dif_pos named]
      by_cases name : isXmlName other = true
      · rw [dif_pos name, dif_pos name, OrderedMap.find_remove,
          if_neg fun equal => same (congrArg Subtype.val equal)]
      · rw [dif_neg name, dif_neg name]
    · rw [dif_neg named]

theorem findEntry_trimmed (entries : List (XmlName × List Char)) (name : XmlName) :
    OrderedMap.findEntry (entries.map trimmedEntry) name =
      (OrderedMap.findEntry entries name).map trim := by
  induction entries with
  | nil => rfl
  | cons first rest ih =>
      rw [List.map_cons, OrderedMap.findEntry_cons, OrderedMap.findEntry_cons, ih]
      by_cases same : first.1 = name
      · rw [if_pos (show (trimmedEntry first).1 = name from same), if_pos same]
        rfl
      · rw [if_neg (show (trimmedEntry first).1 ≠ name from same), if_neg same]

theorem lookup_key (values : Values) (name : XmlName) :
    (lookup values name.1).isSome = true ↔ name ∈ values.keys := by
  rw [lookup_named, OrderedMap.find, OrderedMap.findEntry, Option.isSome_map, List.find?_isSome,
    OrderedMap.keys, List.mem_map]
  exact exists_congr fun entry => and_congr_right fun _ => by simp

theorem find_saved (values : Values) (name : XmlName) :
    (parseSettingsXml (toXml values)).find name =
      if rootName ∈ values.keys ∧ ¬ name < rootName then none else (values.find name).map trim := by
  by_cases root : rootName ∈ values.keys
  · obtain ⟨entry, member, same⟩ := List.mem_map.mp root
    obtain ⟨front, back, split⟩ := List.append_of_mem member
    have loaded := parseSettingsXml_cut values front back entry.2 (by rw [split, ← same])
    have ordered := values.ordered
    rw [split] at ordered
    obtain ⟨-, later, before⟩ := List.pairwise_append.mp ordered
    have left : (parseSettingsXml (toXml values)).find name =
        (OrderedMap.findEntry front name).map trim := by
      rw [OrderedMap.find, loaded, findEntry_trimmed]
    rw [left]
    by_cases early : name < rootName
    · have behind : OrderedMap.findEntry (entry :: back) name = none := by
        refine OrderedMap.findEntry_absent _ name fun other listed equal => ?_
        rcases List.mem_cons.mp listed with rfl | among
        · exact lt_irrefl _ (equal ▸ same ▸ early)
        · have above := (List.pairwise_cons.mp later).1 other among
          rw [same, equal] at above
          exact lt_asymm early above
      rw [if_neg fun cut => cut.2 early, OrderedMap.find, split, OrderedMap.findEntry_append,
        behind, Option.or_none]
    · have absent : OrderedMap.findEntry front name = none := by
        refine OrderedMap.findEntry_absent _ name fun other listed equal => ?_
        have below := before other listed entry List.mem_cons_self
        rw [same, equal] at below
        exact early below
      rw [if_pos ⟨root, early⟩, absent]
      rfl
  · rw [parseSettingsXml_saved values root, if_neg fun cut => root cut.1]
    exact findEntry_trimmed values.entries name

/-- The keys before the root's name, or all of them, with their values trimmed. -/
theorem lookup_saved (values : Values) :
    lookup (parseSettingsXml (toXml values)) = Reading.saved (lookup values) := by
  funext key
  unfold Reading.saved
  by_cases named : isXmlName key = true
  · have found (other : Values) : lookup other key = other.find ⟨key, named⟩ := dif_pos named
    rw [found, found, find_saved]
    exact if_congr (and_congr (lookup_key values rootName).symm Iff.rfl) rfl rfl
  · have absent (other : Values) : lookup other key = none := dif_neg named
    rw [absent, absent]
    exact (ite_self none).symm

theorem call_reading (values : Values) (next : Call) :
    lookup (Settings.call values next) = Reading.call (lookup values) next := by
  cases next with
  | setString key value => exact lookup_setString values key value
  | setInteger key value => exact lookup_setString values key (integerText value)
  | remove key => exact lookup_remove values key

theorem act_plain (store : Store) (step : StoreStep) :
    (store.act step).plain = store.plain.act step := by
  cases step with
  | call next => exact congrArg (fun values => Plain.mk values _) (call_reading store.values next)
  | save => exact congrArg (Plain.mk _) (lookup_saved store.values)
  | reload => rfl
  | rewritten file => rfl

/-! Whole runs. -/

/-- Any store, over any calls, saves, reloads and changes of its file, is read as the two plain
maps are. -/
theorem store_refines (store : Store) (steps : List StoreStep) :
    (store.run steps).plain = store.plain.run steps := by
  induction steps generalizing store with
  | nil => rfl
  | cons step later ih =>
      change ((store.act step).run later).plain = (store.plain.act step).run later
      rw [ih, act_plain]

end OpenMediaTransport.Settings
