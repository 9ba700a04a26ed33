import Mathlib.Algebra.BigOperators.Group.List.Basic
import Mathlib.Algebra.Ring.Nat
import Mathlib.Data.List.Nodup

/-!
The books of a store that gives its items out in the order in which they came. An item
that leaves it meets a fate: it is delivered, or lost in one way or another.
-/

namespace OpenMediaTransport

/-- What has entered, what has left and how, and what is held, the oldest first. -/
structure Ledger (α φ : Type) where
  entered : List α
  left : List (α × φ)
  held : List α
  balanced : entered = left.map Prod.fst ++ held

namespace Ledger
variable {α φ : Type}

def start : Ledger α φ := { entered := [], left := [], held := [], balanced := rfl }

def enter (ledger : Ledger α φ) (item : α) : Ledger α φ where
  entered := ledger.entered ++ [item]
  left := ledger.left
  held := ledger.held ++ [item]
  balanced := by rw [ledger.balanced, List.append_assoc]

def leave (ledger : Ledger α φ) (fate : φ) : Ledger α φ where
  entered := ledger.entered
  left := ledger.left ++ (ledger.held.head?.map fun item => (item, fate)).toList
  held := ledger.held.tail
  balanced := by
    rw [ledger.balanced]
    cases ledger.held with
    | nil => simp
    | cons item rest => simp

section Fates
variable [DecidableEq φ]

def gone (ledger : Ledger α φ) (fate : φ) : List α :=
  (ledger.left.filter fun entry => entry.2 = fate).map Prod.fst

theorem gone_sublist (ledger : Ledger α φ) (fate : φ) :
    (ledger.gone fate).Sublist ledger.entered := by
  rw [ledger.balanced]
  exact (List.filter_sublist.map Prod.fst).trans (List.sublist_append_left _ ledger.held)

theorem gone_enter (ledger : Ledger α φ) (item : α) (fate : φ) :
    (ledger.enter item).gone fate = ledger.gone fate := rfl

theorem gone_leave (ledger : Ledger α φ) (fate other : φ) :
    (ledger.leave fate).gone other =
      ledger.gone other ++ if fate = other then ledger.held.head?.toList else [] := by
  cases top : ledger.held with
  | nil => simp [gone, leave, top]
  | cons item rest =>
      by_cases same : fate = other
      · simp [gone, leave, top, same]
      · simp [gone, leave, top, same]

theorem indicator_sum (fates : List φ) (fate : φ) :
    (fates.map fun other => if fate = other then 1 else 0).sum = fates.count fate := by
  induction fates with
  | nil => rfl
  | cons other rest ih =>
      by_cases same : fate = other
      · subst same
        simp [ih, Nat.add_comm]
      · simp [ih, same, Ne.symm same]

theorem entered_length (ledger : Ledger α φ) (fates : List φ) (once : fates.Nodup)
    (all : ∀ fate, fate ∈ fates) :
    ledger.entered.length =
      (fates.map fun fate => (ledger.gone fate).length).sum + ledger.held.length := by
  have counted : ∀ left : List (α × φ),
      (fates.map fun fate => (left.filter fun entry => entry.2 = fate).length).sum =
        left.length := by
    intro left
    induction left with
    | nil => simp
    | cons entry rest ih =>
        have one : fates.count entry.2 = 1 := List.count_eq_one_of_mem once (all entry.2)
        have split : ∀ fate : φ, ((entry :: rest).filter fun entry => entry.2 = fate).length =
            (rest.filter fun entry => entry.2 = fate).length +
              if entry.2 = fate then 1 else 0 := by
          intro fate
          by_cases same : entry.2 = fate
          · simp [same]
          · simp [same]
        simp only [split, List.sum_map_add, ih, indicator_sum, one, List.length_cons]
  simp only [gone, List.length_map, counted]
  rw [ledger.balanced, List.length_append, List.length_map]
end Fates

end Ledger

end OpenMediaTransport
