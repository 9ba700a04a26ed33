import OpenMediaTransport.Runs

/-!
The pool of byte buffers. A kept buffer that is too small is grown by what it lacks,
counted from its capacity; `reserve` counts from the length, which is zero by then. So
a buffer with more than half of the requested capacity is handed out as it is.
-/

namespace OpenMediaTransport

/-- A `Vec<u8>`, by what it holds and what it has room for. -/
structure Buffer where
  contents : List UInt8
  capacity : Nat
  fits : contents.length ≤ capacity

namespace Buffer

/-- An allocation gives at least what is asked for; `extra` is what it gives beyond that. -/
def withCapacity (request extra : Nat) : Buffer := ⟨[], request + extra, Nat.zero_le _⟩

def clear (buffer : Buffer) : Buffer := ⟨[], buffer.capacity, Nat.zero_le _⟩

def reserve (buffer : Buffer) (additional extra : Nat) : Buffer :=
  if buffer.contents.length + additional ≤ buffer.capacity then buffer
  else
    { buffer with
      capacity := buffer.contents.length + additional + extra
      fits := by omega }

@[simp] theorem clear_contents (buffer : Buffer) : buffer.clear.contents = [] := rfl

@[simp] theorem clear_capacity (buffer : Buffer) : buffer.clear.capacity = buffer.capacity := rfl

@[simp] theorem reserve_contents (buffer : Buffer) (additional extra : Nat) :
    (buffer.reserve additional extra).contents = buffer.contents := by
  unfold reserve
  split <;> rfl

theorem reserve_capacity (buffer : Buffer) (additional extra : Nat) :
    (buffer.reserve additional extra).capacity =
      if buffer.contents.length + additional ≤ buffer.capacity then buffer.capacity
      else buffer.contents.length + additional + extra := by
  unfold reserve
  split <;> rfl

end Buffer

/-- The buffer given last is at the end. -/
structure BufferPool where
  free : List Buffer
  maxRetained : Nat

namespace BufferPool

def retaining (maxRetained : Nat) : BufferPool := ⟨[], maxRetained⟩

def take (pool : BufferPool) (minCapacity extra : Nat) : Buffer × BufferPool :=
  match pool.free.getLast? with
  | some kept =>
      let buffer := kept.clear
      (if buffer.capacity < minCapacity then
        buffer.reserve (minCapacity - buffer.capacity) extra
      else buffer, { pool with free := pool.free.dropLast })
  | none => (Buffer.withCapacity minCapacity extra, pool)

def give (pool : BufferPool) (buffer : Buffer) : BufferPool :=
  if pool.free.length < pool.maxRetained then
    { pool with free := pool.free ++ [buffer.clear] }
  else pool

/-- The pool keeps no more than it may, and nothing of what was in a buffer. -/
structure Tidy (pool : BufferPool) : Prop where
  few : pool.free.length ≤ pool.maxRetained
  empty : ∀ buffer ∈ pool.free, buffer.contents = []

theorem give_tidy (pool : BufferPool) (buffer : Buffer) (tidy : pool.Tidy) :
    (pool.give buffer).Tidy := by
  unfold give
  split
  · rename_i room
    constructor
    · rw [List.length_append, List.length_singleton]
      exact room
    · intro kept member
      rcases List.mem_append.mp member with old | new
      · exact tidy.empty kept old
      · rw [List.mem_singleton.mp new, Buffer.clear_contents]
  · exact tidy

theorem take_tidy (pool : BufferPool) (minCapacity extra : Nat) (tidy : pool.Tidy) :
    (pool.take minCapacity extra).2.Tidy := by
  unfold take
  split
  · constructor
    · exact Nat.le_trans (List.dropLast_sublist _).length_le tidy.few
    · intro kept member
      exact tidy.empty kept ((List.dropLast_sublist _).subset member)
  · exact tidy

theorem take_empty (pool : BufferPool) (minCapacity extra : Nat) :
    (pool.take minCapacity extra).1.contents = [] := by
  unfold take
  split
  · dsimp only
    split <;> simp
  · rfl

/-- No buffer is kept, or the last one is large enough, or so small that the growth is made and
what it lacks is made up for by what the allocation gives beyond it. -/
def Suits (pool : BufferPool) (minCapacity extra : Nat) : Prop :=
  ∀ kept ∈ pool.free.getLast?,
    minCapacity ≤ kept.capacity ∨ 2 * kept.capacity < minCapacity ∧ kept.capacity ≤ extra

theorem take_enough (pool : BufferPool) (minCapacity extra : Nat) :
    minCapacity ≤ (pool.take minCapacity extra).1.capacity ↔ pool.Suits minCapacity extra := by
  unfold take Suits
  cases pool.free.getLast? with
  | none => simp [Buffer.withCapacity]
  | some kept =>
      simp only [Option.mem_some_iff, forall_eq']
      by_cases small : kept.clear.capacity < minCapacity
        -- The length that `reserve` counts from is zero, whatever the capacity.
      · rw [if_pos small, Buffer.reserve_capacity, Buffer.clear_contents, Buffer.clear_capacity]
        rw [Buffer.clear_capacity] at small
        simp only [List.length_nil]
        split <;> omega
      · rw [if_neg small]
        rw [Buffer.clear_capacity] at small ⊢
        omega

end BufferPool

/-! Any calls on a pool. -/

structure Taken where
  minCapacity : Nat
  buffer : Buffer

structure Pooling where
  pool : BufferPool
  taken : List Taken

inductive PoolCall where
  | give (buffer : Buffer)
  | take (minCapacity extra : Nat)

namespace Pooling

def begin (maxRetained : Nat) : Pooling := ⟨.retaining maxRetained, []⟩

def act (pooling : Pooling) : PoolCall → Option Pooling
  | .give buffer => some { pooling with pool := pooling.pool.give buffer }
  | .take minCapacity extra =>
      let (buffer, pool) := pooling.pool.take minCapacity extra
      some ⟨pool, ⟨minCapacity, buffer⟩ :: pooling.taken⟩

def Suits (pooling : Pooling) : PoolCall → Prop
  | .give _ => True
  | .take minCapacity extra => pooling.pool.Suits minCapacity extra

/-- What a run keeps, whatever is asked for. -/
structure Orderly (maxRetained : Nat) (pooling : Pooling) : Prop where
  limit : pooling.pool.maxRetained = maxRetained
  tidy : pooling.pool.Tidy
  empty : ∀ taken ∈ pooling.taken, taken.buffer.contents = []

def Enough (pooling : Pooling) : Prop :=
  ∀ taken ∈ pooling.taken, taken.minCapacity ≤ taken.buffer.capacity

theorem act_limit (before after : Pooling) (call : PoolCall) (acted : before.act call = some after) :
    after.pool.maxRetained = before.pool.maxRetained := by
  cases call with
  | give buffer =>
      cases acted
      dsimp only [BufferPool.give]
      split <;> rfl
  | take minCapacity extra =>
      cases acted
      dsimp only [BufferPool.take]
      split <;> rfl

theorem orderly_kept (maxRetained : Nat) :
    Runs.Invariant act (begin maxRetained) (fun _ _ => True) (Orderly maxRetained) where
  start := by
    refine ⟨rfl, ⟨Nat.zero_le _, ?_⟩, ?_⟩ <;> rintro _ ⟨⟩
  step := by
    intro before after call orderly _ acted
    have limit := (act_limit before after call acted).trans orderly.limit
    cases call with
    | give buffer =>
        cases acted
        exact ⟨limit, before.pool.give_tidy buffer orderly.tidy, orderly.empty⟩
    | take minCapacity extra =>
        cases acted
        refine ⟨limit, before.pool.take_tidy minCapacity extra orderly.tidy, ?_⟩
        intro taken member
        rcases List.mem_cons.mp member with rfl | earlier
        · exact before.pool.take_empty minCapacity extra
        · exact orderly.empty taken earlier

theorem act_enough (before after : Pooling) (call : PoolCall) (acted : before.act call = some after) :
    after.Enough ↔ before.Enough ∧ before.Suits call := by
  cases call with
  | give buffer =>
      cases acted
      exact (and_iff_left trivial).symm
  | take minCapacity extra =>
      cases acted
      unfold Enough
      rw [List.forall_mem_cons]
      exact (and_congr_left' (before.pool.take_enough minCapacity extra)).trans and_comm

theorem run_enough (maxRetained : Nat) (history : List PoolCall) (pooling : Pooling)
    (ran : Runs.replay act (begin maxRetained) history = some pooling) :
    pooling.Enough ↔ Runs.Throughout act (begin maxRetained) Suits history := by
  induction history generalizing pooling with
  | nil =>
      cases ran
      exact ⟨fun _ => trivial, fun _ taken member => nomatch member⟩
  | cons call past ih =>
      obtain ⟨before, earlier, acted⟩ := (Runs.replay_cons act _ call past pooling).mp ran
      rw [act_enough before pooling call acted, ih before earlier]
      -- Only one state can have been reached before the last call.
      constructor
      · rintro ⟨enough, suits⟩
        refine ⟨enough, fun state ran => ?_⟩
        cases earlier.symm.trans ran
        exact suits
      · rintro ⟨enough, suits⟩
        exact ⟨enough, suits before earlier⟩

/-- The pool keeps to its limit, and buffers come back empty. They are as large as asked for
exactly if every call of the run suits the buffer that it finds. -/
theorem pool_contract (maxRetained : Nat) (history : List PoolCall) (pooling : Pooling)
    (ran : Runs.replay act (begin maxRetained) history = some pooling) :
    pooling.pool.free.length ≤ maxRetained ∧
      (∀ kept ∈ pooling.pool.free, kept.contents = []) ∧
      (∀ taken ∈ pooling.taken, taken.buffer.contents = []) ∧
      ((∀ taken ∈ pooling.taken, taken.minCapacity ≤ taken.buffer.capacity) ↔
        Runs.Throughout act (begin maxRetained) Suits history) := by
  have orderly := (orderly_kept maxRetained).run act _ history pooling
    (Runs.throughout_true _ _ history) ran
  have few := orderly.tidy.few
  rw [orderly.limit] at few
  exact ⟨few, orderly.tidy.empty, orderly.empty, run_enough maxRetained history pooling ran⟩

theorem pool_contract_reused :
    ∃ pooling, Runs.replay act (begin 8) [.take 150 0, .give ⟨[7, 8], 100, by decide⟩, .take 64 0] =
        some pooling ∧
      pooling.pool.free.length ≤ 8 ∧
      (∀ kept ∈ pooling.pool.free, kept.contents = []) ∧
      (∀ taken ∈ pooling.taken, taken.buffer.contents = []) ∧
      ((∀ taken ∈ pooling.taken, taken.minCapacity ≤ taken.buffer.capacity) ↔
        Runs.Throughout act (begin 8) Suits
          [.take 150 0, .give ⟨[7, 8], 100, by decide⟩, .take 64 0]) :=
  ⟨_, rfl, pool_contract 8 _ _ rfl⟩

/-- A kept buffer of a hundred bytes is handed out for a hundred and fifty. -/
theorem pool_undersized :
    ¬ ∀ (maxRetained : Nat) (history : List PoolCall) (pooling : Pooling),
      Runs.replay act (begin maxRetained) history = some pooling →
        ∀ taken ∈ pooling.taken, taken.minCapacity ≤ taken.buffer.capacity := by
  intro contract
  have taken := contract 8 [.take 150 1000, .give ⟨[7, 8], 100, by decide⟩] _ rfl _ List.mem_cons_self
  exact absurd taken (by decide)

end Pooling

end OpenMediaTransport
