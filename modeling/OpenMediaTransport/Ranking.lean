import Mathlib.Data.List.Sort

/-!
A list without the items that are the same as one before them. What counts as the same is
a parameter, and need not be an equivalence. Items that are all different can then be
ranked: the smaller key first, and otherwise who came first.
-/

namespace OpenMediaTransport

variable {α : Type} (same : α → α → Bool)

/-- `if !kept.iter().any(..) { kept.push(..) }`. -/
def pushNew (kept : List α) (item : α) : List α :=
  if kept.any fun other => same other item then kept else kept ++ [item]

def firstOccurrences (items : List α) : List α := items.foldl (pushNew same) []

theorem pushNew_pass (items kept : List α) :
    ∃ more, items.foldl (pushNew same) kept = kept ++ more ∧ more.Sublist items := by
  induction items generalizing kept with
  | nil => exact ⟨[], (List.append_nil kept).symm, List.Sublist.refl []⟩
  | cons item rest ih =>
      rw [List.foldl_cons, pushNew]
      split
      · obtain ⟨more, split, among⟩ := ih kept
        exact ⟨more, split, among.cons item⟩
      · obtain ⟨more, split, among⟩ := ih (kept ++ [item])
        exact ⟨item :: more, by rw [split, List.append_assoc]; rfl, among.cons_cons item⟩

theorem firstOccurrences_sublist (items : List α) :
    (firstOccurrences same items).Sublist items := by
  obtain ⟨more, split, among⟩ := pushNew_pass same items []
  rw [firstOccurrences, split]
  exact among

theorem pushNew_apart (items kept : List α)
    (apart : kept.Pairwise fun first second => same first second = false) :
    (items.foldl (pushNew same) kept).Pairwise fun first second => same first second = false := by
  induction items generalizing kept with
  | nil => exact apart
  | cons item rest ih =>
      rw [List.foldl_cons, pushNew]
      split
      · exact ih kept apart
      · rename_i fresh
        refine ih _ (List.pairwise_append.mpr ⟨apart, List.pairwise_singleton _ _, ?_⟩)
        intro other member last isLast
        rw [List.mem_singleton.mp isLast]
        by_contra hit
        exact fresh (List.any_eq_true.mpr ⟨other, member, by simpa using hit⟩)

theorem firstOccurrences_apart (items : List α) :
    (firstOccurrences same items).Pairwise fun first second => same first second = false :=
  pushNew_apart same items [] .nil

/-- Every item has one among them. -/
theorem firstOccurrences_covers (items : List α) (item : α) (member : item ∈ items) :
    ∃ kept ∈ firstOccurrences same items, kept = item ∨ same kept item = true := by
  obtain ⟨front, back, rfl⟩ := List.append_of_mem member
  rw [firstOccurrences, List.foldl_append, List.foldl_cons]
  obtain ⟨more, split, -⟩ := pushNew_pass same back
    (pushNew same (front.foldl (pushNew same) []) item)
  rw [split, pushNew]
  split
  · rename_i hit
    obtain ⟨kept, inside, found⟩ := List.any_eq_true.mp hit
    exact ⟨kept, List.mem_append_left _ inside, .inr found⟩
  · exact ⟨item, List.mem_append_left _ (List.mem_append_right _ (List.mem_singleton.mpr rfl)),
      .inl rfl⟩

section Equal
variable [DecidableEq α]

/-- Without those that are there already. -/
def distinct (items : List α) : List α :=
  firstOccurrences (fun left right => decide (left = right)) items

theorem mem_distinct (items : List α) (item : α) : item ∈ distinct items ↔ item ∈ items := by
  constructor
  · exact fun member => (firstOccurrences_sublist _ items).subset member
  · intro member
    obtain ⟨kept, inside, found⟩ := firstOccurrences_covers _ items item member
    rcases found with rfl | hit
    · exact inside
    · exact of_decide_eq_true hit ▸ inside

theorem nodup_distinct (items : List α) : (distinct items).Nodup :=
  (firstOccurrences_apart _ items).imp of_decide_eq_false

/-- Who comes first stays first. -/
theorem distinct_order (before behind : List α) (item other : α) (new : item ∉ before)
    (earlier : other ∈ before) : [other, item].Sublist (distinct (before ++ item :: behind)) := by
  obtain ⟨more, split, -⟩ := pushNew_pass (fun left right => decide (left = right))
    (item :: behind) (distinct before)
  have whole : distinct (before ++ item :: behind) = distinct before ++ more := by
    rw [← split, distinct, firstOccurrences, List.foldl_append]
    rfl
  have inside : item ∈ distinct (before ++ item :: behind) :=
    (mem_distinct _ item).mpr (List.mem_append_right before List.mem_cons_self)
  rw [whole] at inside ⊢
  have later : item ∈ more := (List.mem_append.mp inside).resolve_left fun member =>
    new ((mem_distinct before item).mp member)
  exact (List.singleton_sublist.mpr ((mem_distinct before other).mpr earlier)).append
    (List.singleton_sublist.mpr later)

section Ranked
variable (key : α → Nat)

def Ahead (left right : α) : Prop := key left ≤ key right

instance : DecidableRel (Ahead key) := fun left right =>
  inferInstanceAs (Decidable (key left ≤ key right))

instance : Std.Total (Ahead key) := ⟨fun left right => Nat.le_total (key left) (key right)⟩

instance : IsTrans α (Ahead key) := ⟨fun _ _ _ first second => Nat.le_trans first second⟩

/-- A stable sort of the different items. -/
def ranked (items : List α) : List α := (distinct items).insertionSort (Ahead key)

theorem mem_ranked (items : List α) (item : α) : item ∈ ranked key items ↔ item ∈ items :=
  (List.mem_insertionSort _).trans (mem_distinct items item)

theorem nodup_ranked (items : List α) : (ranked key items).Nodup :=
  (List.perm_insertionSort _ _).nodup_iff.mpr (nodup_distinct items)

/-- An item that does not stand in front of another has no smaller key, and a larger one if
it came before it. -/
theorem ranked_behind (items front back : List α) (item other : α)
    (split : ranked key items = front ++ item :: back) (member : other ∈ items)
    (apart : other ≠ item) (behind : other ∉ front) :
    key item ≤ key other ∧ ∀ before rest, items = before ++ item :: rest → item ∉ before →
      other ∈ before → key item < key other := by
  have inside := (mem_ranked key items other).mpr member
  rw [split] at inside
  have later : other ∈ back := by
    rcases List.mem_append.mp inside with early | late
    · exact absurd early behind
    · exact (List.mem_cons.mp late).resolve_left apart
  have sorted := List.pairwise_insertionSort (Ahead key) (distinct items)
  have unique := nodup_ranked key items
  rw [← ranked, split] at sorted
  rw [split] at unique
  have least := (List.pairwise_cons.mp (List.pairwise_append.mp sorted).2.1).1 other later
  refine ⟨least, fun before rest parts new earlier => Nat.lt_of_not_le fun small => ?_⟩
  -- Otherwise the sort would have left the other one in front.
  have order := distinct_order before rest item other new earlier
  rw [← parts] at order
  have kept : [other, item].Sublist (ranked key items) :=
    List.pair_sublist_insertionSort small order
  rw [split] at kept
  obtain ⟨head, tail, both, inFront, inBack⟩ := List.sublist_append_iff.mp kept
  cases head with
  | nil =>
      rw [List.nil_append] at both
      rw [← both] at inBack
      have twice : item ∈ back := by
        rcases List.sublist_cons_iff.mp inBack with all | ⟨rest, equal, -⟩
        · exact all.subset (List.mem_cons_of_mem other List.mem_cons_self)
        · exact absurd (List.cons.inj equal).1 apart
      exact (List.nodup_cons.mp (List.nodup_append.mp unique).2.1).1 twice
  | cons first others =>
      have same : other = first := (List.cons.inj both).1
      exact behind (same ▸ inFront.subset List.mem_cons_self)

/-- The last item has the largest key. -/
theorem ranked_last (items front : List α) (last other : α)
    (split : ranked key items = front ++ [last]) (member : other ∈ items) :
    key other ≤ key last := by
  have inside := (mem_ranked key items other).mpr member
  have sorted := List.pairwise_insertionSort (Ahead key) (distinct items)
  rw [← ranked, split] at sorted
  rw [split] at inside
  rcases List.mem_append.mp inside with early | same
  · exact (List.pairwise_append.mp sorted).2.2 other early last List.mem_cons_self
  · exact Nat.le_of_eq (congrArg key (List.mem_singleton.mp same))

end Ranked
end Equal

end OpenMediaTransport
