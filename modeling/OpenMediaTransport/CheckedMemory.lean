import OpenMediaTransport.LittleEndian

/-!
Sizes and buffers of a 64-bit machine, with what can go wrong in the middle of a
computation as an error of its own: a size that does not fit in a word, a shift by a
word's width, a range that is not inside its buffer, an allocation of more bytes than
a pointer offset can count. Memory is not limited otherwise.
-/

namespace OpenMediaTransport.CheckedMemory

open LittleEndian

/-- What ends the thread. -/
inductive Fault where
  | mulOverflow
  | addOverflow
  | shiftOverflow
  | outOfRange
  | lengthMismatch
  | capacityOverflow
  deriving DecidableEq, Repr

def isizeMax : Nat := 2 ^ 63 - 1

def mul (left right : Nat) : Except Fault Nat :=
  if left * right < 2 ^ 64 then .ok (left * right) else .error .mulOverflow

def add (left right : Nat) : Except Fault Nat :=
  if left + right < 2 ^ 64 then .ok (left + right) else .error .addOverflow

/-- `1u32 << place`. -/
def bitAt (place : Nat) : Except Fault UInt32 :=
  if place < 32 then .ok (1 <<< UInt32.ofNat place) else .error .shiftOverflow

variable {α : Type}

/-- `resize` of an emptied vector of bytes. -/
def filled (length : Nat) (value : α) : Except Fault (List α) :=
  if length ≤ isizeMax then .ok (List.replicate length value) else .error .capacityOverflow

/-- `&buffer[start..stop]`. -/
def readRange (buffer : List α) (start stop : Nat) : Except Fault (List α) :=
  if start ≤ stop ∧ stop ≤ buffer.length then .ok (slice buffer start stop)
  else .error .outOfRange

/-- `buffer[start..stop].copy_from_slice(source)`. -/
def copyRange (buffer : List α) (start stop : Nat) (source : List α) : Except Fault (List α) :=
  if start ≤ stop ∧ stop ≤ buffer.length then
    if source.length = stop - start then
      .ok (buffer.take start ++ (source ++ buffer.drop stop))
    else .error .lengthMismatch
  else .error .outOfRange

def readAt (buffer : List α) (index : Nat) : Except Fault α :=
  match buffer[index]? with
  | some value => .ok value
  | none => .error .outOfRange

def writeAt (buffer : List α) (index : Nat) (value : α) : Except Fault (List α) :=
  if index < buffer.length then .ok (buffer.set index value) else .error .outOfRange

theorem mul_fits (left right : Nat) (fits : left * right < 2 ^ 64) :
    mul left right = .ok (left * right) := if_pos fits

theorem add_fits (left right : Nat) (fits : left + right < 2 ^ 64) :
    add left right = .ok (left + right) := if_pos fits

theorem bitAt_fits (place : Nat) (small : place < 32) :
    bitAt place = .ok (1 <<< UInt32.ofNat place) := if_pos small

theorem filled_fits (length : Nat) (value : α) (fits : length ≤ isizeMax) :
    filled length value = .ok (List.replicate length value) := if_pos fits

theorem readRange_inside (buffer : List α) (start stop : Nat) (ordered : start ≤ stop)
    (inside : stop ≤ buffer.length) : readRange buffer start stop = .ok (slice buffer start stop) :=
  if_pos ⟨ordered, inside⟩

theorem readAt_inside (buffer : List α) (index : Nat) (inside : index < buffer.length) :
    ∃ value, readAt buffer index = .ok value := by
  rw [readAt, List.getElem?_eq_getElem inside]
  exact ⟨_, rfl⟩

theorem writeAt_inside (buffer : List α) (index : Nat) (value : α)
    (inside : index < buffer.length) : writeAt buffer index value = .ok (buffer.set index value) :=
  if_pos inside

theorem readRange_tail (buffer : List α) (start : Nat) (inside : start ≤ buffer.length) :
    readRange buffer start buffer.length = .ok (buffer.drop start) := by
  rw [readRange_inside buffer start buffer.length inside (Nat.le_refl _), slice]
  exact congrArg Except.ok (List.take_of_length_le (Nat.le_of_eq List.length_drop))

theorem mapM_each {β : Type} (items : List α) (step : α → Except Fault β) (value : α → β)
    (each : ∀ item ∈ items, step item = .ok (value item)) :
    items.mapM step = .ok (items.map value) := by
  induction items with
  | nil => rfl
  | cons item rest ih =>
      rw [List.mapM_cons, each item List.mem_cons_self,
        ih fun other member => each other (List.mem_cons_of_mem _ member)]
      rfl

theorem copyRange_between (front middle back source : List α) (start stop : Nat)
    (starts : start = front.length) (stops : stop = front.length + middle.length)
    (same : source.length = middle.length) :
    copyRange (front ++ (middle ++ back)) start stop source = .ok (front ++ (source ++ back)) := by
  subst starts stops
  have inside : front.length ≤ front.length + middle.length ∧
      front.length + middle.length ≤ (front ++ (middle ++ back)).length := by
    rw [List.length_append, List.length_append]
    omega
  have width : source.length = front.length + middle.length - front.length := by omega
  have behind : (front ++ (middle ++ back)).drop (front.length + middle.length) = back := by
    rw [← List.append_assoc, ← List.length_append, List.drop_left]
  rw [copyRange, if_pos inside, if_pos width, List.take_left, behind]

end OpenMediaTransport.CheckedMemory
