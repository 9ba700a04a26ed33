import Mathlib.Data.List.Basic

/-!
Runs of a machine whose steps may be refused. A history is a list of steps, the newest
first, as the proofs take it apart: what the last step does, after what came before.
Assumptions on a run are made step by step, each on the state in which the step is taken.
-/

namespace OpenMediaTransport.Runs

variable {σ ι : Type} (act : σ → ι → Option σ) (start : σ)

/-- The state after a history, if none of its steps is refused. -/
def replay : List ι → Option σ
  | [] => some start
  | step :: past => (replay past).bind fun state => act state step

theorem replay_cons (step : ι) (past : List ι) (after : σ) :
    replay act start (step :: past) = some after ↔
      ∃ before, replay act start past = some before ∧ act before step = some after :=
  Option.bind_eq_some_iff

/-- A run goes on where another one ended. -/
theorem replay_append (earlier later : List ι) (between after : σ)
    (first : replay act start earlier = some between)
    (second : replay act between later = some after) :
    replay act start (later ++ earlier) = some after := by
  induction later generalizing after with
  | nil =>
      cases second
      exact first
  | cons step past ih =>
      obtain ⟨before, went, acted⟩ := (replay_cons act between step past after).mp second
      exact (replay_cons act start step (past ++ earlier) after).mpr ⟨before, ih before went, acted⟩

/-- Every step of the history is as it should be where it is taken. -/
def Throughout (fits : σ → ι → Prop) : List ι → Prop
  | [] => True
  | step :: past =>
      Throughout fits past ∧ ∀ state, replay act start past = some state → fits state step

theorem throughout_true (history : List ι) : Throughout act start (fun _ _ => True) history := by
  induction history with
  | nil => trivial
  | cons step past ih => exact ⟨ih, fun _ _ => trivial⟩

/-- Steps that are as they should be in any state. -/
theorem throughout_each (fits : σ → ι → Prop) (history : List ι)
    (each : ∀ step ∈ history, ∀ state, fits state step) : Throughout act start fits history := by
  induction history with
  | nil => trivial
  | cons step past ih =>
      exact ⟨ih fun other member => each other (List.mem_cons_of_mem step member),
        fun state _ => each step List.mem_cons_self state⟩

/-- Step by step, the oldest first. -/
def decideThroughout (fits : σ → ι → Prop) [∀ state step, Decidable (fits state step)] :
    (history : List ι) → Decidable (Throughout act start fits history)
  | [] => .isTrue trivial
  | step :: past =>
      have := decideThroughout fits past
      inferInstanceAs (Decidable
        (Throughout act start fits past ∧ ∀ state, replay act start past = some state → fits state step))

instance (fits : σ → ι → Prop) [∀ state step, Decidable (fits state step)] (history : List ι) :
    Decidable (Throughout act start fits history) :=
  decideThroughout act start fits history

/-- What holds at the start and survives each step that is as it should be. -/
structure Invariant (fits : σ → ι → Prop) (holds : σ → Prop) : Prop where
  start : holds start
  step : ∀ before after step, holds before → fits before step → act before step = some after →
    holds after

theorem Invariant.run {fits : σ → ι → Prop} {holds : σ → Prop}
    (invariant : Invariant act start fits holds) (history : List ι) (state : σ)
    (fitting : Throughout act start fits history) (ran : replay act start history = some state) :
    holds state := by
  induction history generalizing state with
  | nil =>
      cases ran
      exact invariant.start
  | cons step past ih =>
      obtain ⟨before, earlier, taken⟩ := (replay_cons act start step past state).mp ran
      exact invariant.step before state step (ih before fitting.1 earlier)
        (fitting.2 before earlier) taken

/-- No run is longer than what a measure allows that each step makes smaller. -/
theorem length_le_measure (measure : σ → Nat) (stays : σ → Prop)
    (falls : ∀ before after step, stays before → act before step = some after →
      stays after ∧ measure after < measure before)
    (history : List ι) (state : σ) (holds : stays start)
    (ran : replay act start history = some state) :
    stays state ∧ history.length + measure state ≤ measure start := by
  induction history generalizing state with
  | nil =>
      cases ran
      exact ⟨holds, Nat.le_of_eq (Nat.zero_add _)⟩
  | cons step past ih =>
      obtain ⟨before, earlier, taken⟩ := (replay_cons act start step past state).mp ran
      obtain ⟨stayed, bounded⟩ := ih before earlier
      obtain ⟨still, fell⟩ := falls before state step stayed taken
      refine ⟨still, ?_⟩
      rw [List.length_cons]
      omega

/-! One member of a list of parties takes the step. -/
section Parties
variable {α : Type}

/-- The others, before and behind it, stay where they are. -/
theorem set_found (parties : List α) (index : Nat) (old : α) (found : parties[index]? = some old) :
    ∃ front back, parties = front ++ old :: back ∧ parties.eraseIdx index = front ++ back ∧
      ∀ new, parties.set index new = front ++ new :: back := by
  induction parties generalizing index with
  | nil => cases found
  | cons party rest ih =>
      cases index with
      | zero =>
          cases found
          exact ⟨[], rest, rfl, rfl, fun _ => rfl⟩
      | succ index =>
          obtain ⟨front, back, rfl, others, replaced⟩ := ih index found
          exact ⟨party :: front, back, rfl, congrArg (party :: ·) others,
            fun new => congrArg (party :: ·) (replaced new)⟩
end Parties

end OpenMediaTransport.Runs
