import Mathlib.Algebra.BigOperators.Group.List.Basic
import Mathlib.Data.UInt

/-!
Counters of 64 bits, unsigned or signed, that stop at their end. Such a counter tells how
much there has been, as far as it can count.
-/

namespace OpenMediaTransport

/-- `u64::saturating_add`. -/
def saturatingAdd (count : UInt64) (more : Nat) : UInt64 :=
  UInt64.ofNat (min (count.toNat + more) (2 ^ 64 - 1))

def Counts (count : UInt64) (total : Nat) : Prop := count.toNat = min total (2 ^ 64 - 1)

namespace Counts

theorem zero : Counts 0 0 := rfl

theorem add {count : UInt64} {total : Nat} (counted : Counts count total) (more : Nat) :
    Counts (saturatingAdd count more) (total + more) := by
  have below : min (count.toNat + more) (2 ^ 64 - 1) < 2 ^ 64 :=
    Nat.lt_of_le_of_lt (Nat.min_le_right _ _) (by decide)
  unfold Counts at *
  rw [saturatingAdd, UInt64.toNat_ofNat_of_lt' below, counted]
  omega

/-- Below the end it is exact. -/
theorem exact {count : UInt64} {total : Nat} (counted : Counts count total)
    (small : total < 2 ^ 64) : count.toNat = total := by
  rw [counted]
  omega

end Counts

/-- `i64::saturating_add` of what is not negative. -/
def saturatingAddI64 (count : Int64) (more : Nat) : Int64 :=
  Int64.ofInt (min (count.toInt + more) (2 ^ 63 - 1))

def CountsI64 (count : Int64) (total : Nat) : Prop := count.toInt = min (total : Int) (2 ^ 63 - 1)

namespace CountsI64

theorem zero : CountsI64 0 0 := rfl

theorem add {count : Int64} {total : Nat} (counted : CountsI64 count total) (more : Nat) :
    CountsI64 (saturatingAddI64 count more) (total + more) := by
  unfold CountsI64 at *
  rw [saturatingAddI64, Int64.toInt_ofInt_of_le (by omega) (by omega), counted]
  omega

end CountsI64

end OpenMediaTransport
