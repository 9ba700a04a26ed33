import Mathlib.Data.List.Nodup

/-!
Writes in the order they were made, each about one key, and the table they leave.
A table holds the last write about every key, or nothing about it when that write
took the key out. How the table is ordered does not matter.
-/

namespace OpenMediaTransport.LastWriter

variable {Write Key : Type} [DecidableEq Key] (key : Write → Key) (removes : Write → Bool)

def lastWrite (history : List Write) (about : Key) : Option Write :=
  (history.filter (key · = about)).getLast?

/-- What a table says about a key after its last write. -/
def entryOf (last : Option Write) : List Write := (last.filter (!removes ·)).toList

def Holds (history table : List Write) : Prop :=
  ∀ about, table.filter (key · = about) = entryOf removes (lastWrite key history about)

theorem lastWrite_concat (history : List Write) (write : Write) (about : Key) :
    lastWrite key (history ++ [write]) about =
      if key write = about then some write else lastWrite key history about := by
  unfold lastWrite
  by_cases here : key write = about <;> simp [List.filter_append, here]

theorem entryOf_some (write : Write) :
    entryOf removes (some write) = if removes write then [] else [write] := by
  cases gone : removes write <;> simp [entryOf, gone]

theorem entryOf_length (last : Option Write) : (entryOf removes last).length ≤ 1 := by
  unfold entryOf
  cases last.filter (!removes ·) with
  | none => exact Nat.zero_le 1
  | some _ => exact Nat.le_refl 1

theorem entryOf_small (last : Option Write) (entries : List Write)
    (perm : entries.Perm (entryOf removes last)) : entries = entryOf removes last := by
  unfold entryOf at perm ⊢
  cases kept : last.filter (!removes ·) with
  | none =>
      rw [kept] at perm
      exact List.perm_nil.mp perm
  | some write =>
      rw [kept] at perm
      exact List.perm_singleton.mp perm

theorem holds_nil : Holds key removes [] [] := fun _ => rfl

variable {key removes} {history table next : List Write}

/-- The key's entry is dropped, and the write is put in its place if it stays. -/
theorem Holds.write (held : Holds key removes history table) (write : Write)
    (stored : next.Perm
      (table.filter (key · ≠ key write) ++ if removes write then [] else [write])) :
    Holds key removes (history ++ [write]) next := by
  intro about
  apply entryOf_small
  have found := stored.filter (key · = about)
  rw [lastWrite_concat]
  rw [List.filter_append, List.filter_filter] at found
  -- Dropping the write's key leaves nothing under it, and all that is under another.
  by_cases here : key write = about
  · have others : table.filter (fun entry => decide (key entry = about) &&
        decide (key entry ≠ key write)) = [] := by
      apply List.filter_eq_nil_iff.mpr
      intro entry _
      simp [here]
    rw [others, List.nil_append] at found
    rw [if_pos here, entryOf_some]
    cases gone : removes write <;> simpa [gone, here] using found
  · have others : table.filter (fun entry => decide (key entry = about) &&
        decide (key entry ≠ key write)) = table.filter (key · = about) := by
      apply List.filter_congr
      intro entry _
      by_cases this : key entry = about
      · simp [this, Ne.symm here]
      · simp [this]
    rw [others, held about] at found
    rw [if_neg here]
    cases gone : removes write <;> simpa [gone, here] using found

theorem Holds.mem_iff (held : Holds key removes history table) (entry : Write) :
    entry ∈ table ↔ lastWrite key history (key entry) = some entry ∧ removes entry = false := by
  have same : entry ∈ table ↔ entry ∈ table.filter (key · = key entry) := by simp
  rw [same, held, entryOf, Option.mem_toList]
  simp [Option.filter_eq_some_iff]

theorem Holds.key_mem (held : Holds key removes history table) (about : Key) :
    about ∈ table.map key ↔ ∃ last, lastWrite key history about = some last ∧ removes last = false := by
  rw [List.mem_map]
  constructor
  · rintro ⟨entry, member, rfl⟩
    exact ⟨entry, (held.mem_iff entry).mp member⟩
  · rintro ⟨last, told, stays⟩
    have own : key last = about := by
      have among := List.mem_of_getLast? told
      simpa using (List.mem_filter.mp among).2
    exact ⟨last, (held.mem_iff last).mpr ⟨by rw [own, told], stays⟩, own⟩

theorem Holds.unique (held : Holds key removes history table) : (table.map key).Nodup := by
  apply List.nodup_iff_count_le_one.mpr
  intro about
  -- A key counts as often as it has entries.
  have size : (table.map key).count about = (entryOf removes (lastWrite key history about)).length := by
    rw [← held about, ← List.countP_eq_length_filter, List.count, List.countP_map]
    apply List.countP_congr
    intro entry _
    simp
  rw [size]
  exact entryOf_length removes _

end OpenMediaTransport.LastWriter
