import Mathlib.Data.List.Basic

/-!
A bounded channel from one thread to another, with what has passed through it. That it
loses, doubles and reorders nothing it has taken is part of the channel: no operation can
build one that does.
-/

namespace OpenMediaTransport

/-- `items` has the oldest first. -/
structure SyncChannel (α : Type) where
  cap : Nat
  accepted : List α
  received : List α
  items : List α
  balanced : accepted = received ++ items
  bounded : items.length ≤ cap

namespace SyncChannel
variable {α : Type}

theorem balanced_new : ([] : List α) = [] ++ [] := rfl

def new (cap : Nat) : SyncChannel α where
  cap := cap
  accepted := []
  received := []
  items := []
  balanced := balanced_new
  bounded := Nat.zero_le cap

def hasRoom (channel : SyncChannel α) : Bool := channel.items.length < channel.cap

theorem room_behind (channel : SyncChannel α) (item : α) (room : channel.hasRoom = true) :
    (channel.items ++ [item]).length ≤ channel.cap := by
  rw [List.length_append, List.length_singleton]
  exact of_decide_eq_true room

theorem balanced_behind (channel : SyncChannel α) (item : α) :
    channel.accepted ++ [item] = channel.received ++ (channel.items ++ [item]) := by
  rw [channel.balanced, List.append_assoc]

/-- A full channel stays as it is; whether it has room is known beforehand. -/
def trySend (channel : SyncChannel α) (item : α) : SyncChannel α :=
  if room : channel.hasRoom = true then
    { channel with
      accepted := channel.accepted ++ [item]
      items := channel.items ++ [item]
      balanced := channel.balanced_behind item
      bounded := channel.room_behind item room }
  else channel

theorem balanced_ahead (channel : SyncChannel α) :
    channel.accepted = (channel.received ++ channel.items.head?.toList) ++ channel.items.tail := by
  rw [channel.balanced, List.append_assoc]
  cases channel.items with
  | nil => rfl
  | cons item rest => rfl

theorem bounded_ahead (channel : SyncChannel α) : channel.items.tail.length ≤ channel.cap :=
  Nat.le_trans (by rw [List.length_tail]; exact Nat.sub_le _ _) channel.bounded

def tryRecv (channel : SyncChannel α) : Option α × SyncChannel α :=
  (channel.items.head?,
    { channel with
      received := channel.received ++ channel.items.head?.toList
      items := channel.items.tail
      balanced := channel.balanced_ahead
      bounded := channel.bounded_ahead })

theorem received_prefix (channel : SyncChannel α) : channel.received <+: channel.accepted := by
  rw [channel.balanced]
  exact List.prefix_append _ _

theorem accepted_length (channel : SyncChannel α) :
    channel.accepted.length = channel.received.length + channel.items.length := by
  rw [channel.balanced, List.length_append]

@[simp] theorem trySend_cap (channel : SyncChannel α) (item : α) :
    (channel.trySend item).cap = channel.cap := by
  unfold trySend
  split <;> rfl

@[simp] theorem trySend_received (channel : SyncChannel α) (item : α) :
    (channel.trySend item).received = channel.received := by
  unfold trySend
  split <;> rfl

@[simp] theorem trySend_accepted (channel : SyncChannel α) (item : α) :
    (channel.trySend item).accepted =
      if channel.hasRoom then channel.accepted ++ [item] else channel.accepted := by
  unfold trySend
  split <;> rfl

/-- Without room the channel holds as much as it may. -/
theorem full_length (channel : SyncChannel α) (full : channel.hasRoom = false) :
    channel.items.length = channel.cap :=
  Nat.le_antisymm channel.bounded (Nat.le_of_not_lt (of_decide_eq_false full))

end SyncChannel

end OpenMediaTransport
