import Mathlib.Data.List.Forall2

/-!
Where the items of a list come from: each stands for an item of another list, in the same
order, no two for the same one. What a pipeline gives out is derived in this way from what
it has taken in, stage by stage.
-/

namespace OpenMediaTransport

variable {α β γ : Type}

def Derived (relation : α → β → Prop) (sources : List α) (results : List β) : Prop :=
  ∃ chosen, chosen.Sublist sources ∧ List.Forall₂ relation chosen results

namespace Derived
variable {relation : α → β → Prop}

theorem nil (sources : List α) : Derived relation sources [] :=
  ⟨[], List.nil_sublist sources, .nil⟩

/-- A source that nothing comes of. -/
theorem skip {sources : List α} {results : List β} (derived : Derived relation sources results)
    (more : List α) : Derived relation (sources ++ more) results := by
  obtain ⟨chosen, among, related⟩ := derived
  exact ⟨chosen, among.trans (List.sublist_append_left sources more), related⟩

theorem keep {sources : List α} {results : List β} (derived : Derived relation sources results)
    (source : α) (result : β) (comes : relation source result) :
    Derived relation (sources ++ [source]) (results ++ [result]) := by
  obtain ⟨chosen, among, related⟩ := derived
  exact ⟨chosen ++ [source], among.append (List.Sublist.refl _),
    List.rel_append related (.cons comes .nil)⟩

theorem among {sources all : List α} {results : List β} (derived : Derived relation sources results)
    (within : sources.Sublist all) : Derived relation all results := by
  obtain ⟨chosen, among, related⟩ := derived
  exact ⟨chosen, among.trans within, related⟩

theorem imp {stronger : α → β → Prop} {sources : List α} {results : List β}
    (derived : Derived stronger sources results)
    (follows : ∀ source result, stronger source result → relation source result) :
    Derived relation sources results := by
  obtain ⟨chosen, among, related⟩ := derived
  exact ⟨chosen, among, related.imp follows⟩

/-- Fewer results come of fewer sources. -/
theorem fewer {sources : List α} {results picked : List β}
    (derived : Derived relation sources results) (within : picked.Sublist results) :
    Derived relation sources picked := by
  obtain ⟨chosen, among, related⟩ := derived
  induction within generalizing sources chosen with
  | slnil => exact .nil sources
  | cons item within ih =>
      cases related with
      | cons head tail => exact ih _ ((List.sublist_cons_self _ _).trans among) tail
  | cons_cons item within ih =>
      cases related with
      | @cons source _ origins _ head tail =>
          obtain ⟨fewer, kept, paired⟩ := ih origins (List.Sublist.refl _) tail
          exact ⟨source :: fewer, (kept.cons_cons source).trans among, .cons head paired⟩

/-- One stage after another. -/
theorem trans {further : β → γ → Prop} {sources : List α} {middle : List β} {results : List γ}
    (first : Derived relation sources middle) (second : Derived further middle results) :
    Derived (fun source result => ∃ item, relation source item ∧ further item result)
      sources results := by
  obtain ⟨picked, within, made⟩ := second
  obtain ⟨chosen, among, related⟩ := first.fewer within
  refine ⟨chosen, among, ?_⟩
  clear among within first
  induction made generalizing chosen with
  | nil =>
      cases related
      exact .nil
  | cons head tail ih =>
      cases related with
      | cons before rest => exact .cons ⟨_, before, head⟩ (ih _ rest)

/-- Of a result and its source one may use that they are there. -/
theorem member {sources : List α} {results : List β} (derived : Derived relation sources results) :
    Derived (fun source result => (source ∈ sources ∧ result ∈ results) ∧ relation source result)
      sources results := by
  obtain ⟨chosen, among, related⟩ := derived
  refine ⟨chosen, among, ?_⟩
  have inside := among.subset
  clear among
  induction related with
  | nil => exact .nil
  | cons head tail ih =>
      refine .cons ⟨⟨inside List.mem_cons_self, List.mem_cons_self⟩, head⟩ ?_
      exact (ih fun item member => inside (List.mem_cons_of_mem _ member)).imp
        fun source result found =>
          ⟨⟨found.1.1, List.mem_cons_of_mem _ found.1.2⟩, found.2⟩

theorem source {sources : List α} {results : List β} (derived : Derived relation sources results)
    (result : β) (inside : result ∈ results) : ∃ source ∈ sources, relation source result := by
  obtain ⟨chosen, among, related⟩ := derived
  obtain ⟨index, bound, rfl⟩ := List.getElem_of_mem inside
  have early : index < chosen.length := related.length_eq ▸ bound
  exact ⟨chosen[index], among.subset (List.getElem_mem early), related.get early bound⟩

theorem length_le {sources : List α} {results : List β} (derived : Derived relation sources results) :
    results.length ≤ sources.length := by
  obtain ⟨chosen, among, related⟩ := derived
  exact related.length_eq ▸ among.length_le

theorem parts {front back : List α} {results : List β}
    (derived : Derived relation (front ++ back) results) :
    ∃ head tail, results = head ++ tail ∧ Derived relation front head ∧
      Derived relation back tail := by
  obtain ⟨chosen, among, related⟩ := derived
  obtain ⟨ahead, behind, rfl, inFront, inBack⟩ := List.sublist_append_iff.mp among
  have first := List.forall₂_take_append results ahead behind related.flip
  have second := List.forall₂_drop_append results ahead behind related.flip
  exact ⟨_, _, (List.take_append_drop ahead.length results).symm, ⟨ahead, inFront, first.flip⟩,
    ⟨behind, inBack, second.flip⟩⟩

/-- Sources that nothing can come of do not matter. -/
theorem within {sources : List α} {results : List β} (derived : Derived relation sources results)
    (keep : α → Bool) (only : ∀ source result, relation source result → keep source = true) :
    Derived relation (sources.filter keep) results := by
  obtain ⟨chosen, among, related⟩ := derived
  have kept : chosen.filter keep = chosen := by
    clear among
    induction related with
    | nil => rfl
    | cons head tail ih => rw [List.filter_cons_of_pos (only _ _ head), ih]
  exact ⟨chosen, kept ▸ among.filter keep, related⟩

theorem map_iff (change : γ → α) (sources : List γ) (results : List β) :
    Derived relation (sources.map change) results ↔
      Derived (fun source result => relation (change source) result) sources results := by
  constructor
  · rintro ⟨chosen, among, related⟩
    obtain ⟨picked, inside, rfl⟩ := List.sublist_map_iff.mp among
    exact ⟨picked, inside, List.forall₂_map_left_iff.mp related⟩
  · rintro ⟨chosen, among, related⟩
    exact ⟨chosen.map change, among.map change, List.forall₂_map_left_iff.mpr related⟩

/-- The results read in another way, item by item. -/
theorem read {sources : List α} {results : List β} (derived : Derived relation sources results)
    (further : α → γ → Prop) (spells : β → γ → Prop)
    (each : ∀ source result, relation source result → ∃ item, further source item ∧
      spells result item) :
    ∃ items, Derived further sources items ∧ List.Forall₂ spells results items := by
  obtain ⟨chosen, among, related⟩ := derived
  suffices ∃ items, List.Forall₂ further chosen items ∧ List.Forall₂ spells results items by
    obtain ⟨items, made, spelled⟩ := this
    exact ⟨items, ⟨chosen, among, made⟩, spelled⟩
  clear among
  induction related with
  | nil => exact ⟨[], .nil, .nil⟩
  | cons head tail ih =>
      obtain ⟨item, made, spelled⟩ := each _ _ head
      obtain ⟨items, rest, others⟩ := ih
      exact ⟨item :: items, .cons made rest, .cons spelled others⟩

end Derived

end OpenMediaTransport
