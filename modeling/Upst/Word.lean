import Mathlib.Data.Nat.Basic
import Mathlib.Data.Int.Init
import Mathlib.Algebra.Order.Ring.Int

/-!
Unsigned 32- and 64-bit arithmetic on natural numbers, and conversion to a signed word.
-/

namespace Upst.Word

set_option autoImplicit false

def u32 (value : Nat) : Nat := value % 2 ^ 32

/-- The word after `--`. -/
def u32Pred : Nat → Nat
  | 0 => 2 ^ 32 - 1
  | value + 1 => value

theorem u32_small {value : Nat} (small : value < 2 ^ 32) : u32 value = value :=
  Nat.mod_eq_of_lt small

theorem u32_pred_pos {value : Nat} (positive : 0 < value) : u32Pred value = value - 1 := by
  obtain ⟨before, rfl⟩ := Nat.exists_eq_succ_of_ne_zero (Nat.ne_of_gt positive)
  rfl

def u64 (value : Nat) : Nat := value % 2 ^ 64

def u64Pred : Nat → Nat
  | 0 => 2 ^ 64 - 1
  | value + 1 => value

theorem u64_small {value : Nat} (small : value < 2 ^ 64) : u64 value = value :=
  Nat.mod_eq_of_lt small

theorem u64_pred_pos {value : Nat} (positive : 0 < value) : u64Pred value = value - 1 := by
  obtain ⟨before, rfl⟩ := Nat.exists_eq_succ_of_ne_zero (Nat.ne_of_gt positive)
  rfl

def s32 (value : Int) : Int := value.bmod (2 ^ 32)

theorem s32_small {value : Int} (low : 0 ≤ value) (high : value < 2 ^ 31) : s32 value = value := by
  apply Int.bmod_eq_of_le
  · omega
  · omega

end Upst.Word
