import Mathlib.Data.Nat.ModEq

/-!
Sums in one's complement: the carries above a digit are added to it again until there are none. The
digit that is left stands for the sum modulo `base - 1`, and it is zero for the sum zero only.
-/

namespace Upst.OnesComplement

set_option autoImplicit false

def carried (base sum : Nat) : Nat := sum % base + sum / base

structure Folded (base sum digit : Nat) : Prop where
  below : digit < base
  same : digit ≡ sum [MOD base - 1]
  zero : digit = 0 ↔ sum = 0

variable {base sum digit : Nat}

theorem carried_lt (two : 2 ≤ base) (large : base ≤ sum) : carried base sum < sum := by
  have split := Nat.mod_add_div sum base
  have carry : 0 < sum / base := Nat.div_pos large (by omega)
  have more : 2 * (sum / base) ≤ base * (sum / base) := Nat.mul_le_mul_right _ two
  rw [carried]
  omega

theorem carried_same (two : 2 ≤ base) : carried base sum ≡ sum [MOD base - 1] := by
  have split := Nat.mod_add_div sum base
  have parts : sum = carried base sum + (base - 1) * (sum / base) := by
    rw [carried, Nat.sub_mul, Nat.one_mul]
    have more : 1 * (sum / base) ≤ base * (sum / base) := Nat.mul_le_mul_right _ (by omega)
    omega
  calc
    carried base sum ≡ carried base sum + (base - 1) * (sum / base) [MOD base - 1] :=
      (Nat.add_mul_mod_self_left _ _ _).symm
    _ = sum := parts.symm

theorem carried_zero : carried base sum = 0 ↔ sum = 0 := by
  constructor
  · intro none
    have split := Nat.mod_add_div sum base
    have quotient : sum / base = 0 := Nat.eq_zero_of_add_eq_zero_left none
    have rest : sum % base = 0 := Nat.eq_zero_of_add_eq_zero_right none
    rw [quotient, rest, Nat.mul_zero] at split
    exact split.symm
  · rintro rfl
    rw [carried, Nat.zero_mod, Nat.zero_div]

theorem folded_below (below : sum < base) : Folded base sum sum := ⟨below, rfl, Iff.rfl⟩

theorem folded_carried (two : 2 ≤ base) (folded : Folded base (carried base sum) digit) :
    Folded base sum digit :=
  ⟨folded.below, folded.same.trans (carried_same two), folded.zero.trans carried_zero⟩

/-- A sum to which the complement of its digit is added leaves the largest digit. -/
theorem folded_complement (two : 2 ≤ base) (folded : Folded base sum digit) {result : Nat}
    (completed : Folded base (sum + (base - 1 - digit)) result) : result = base - 1 := by
  have below := folded.below
  have multiple : result ≡ 0 [MOD base - 1] :=
    calc
      result ≡ sum + (base - 1 - digit) [MOD base - 1] := completed.same
      _ ≡ digit + (base - 1 - digit) [MOD base - 1] := folded.same.symm.add_right _
      _ = base - 1 := by omega
      _ ≡ 0 [MOD base - 1] := Nat.modEq_zero_iff_dvd.mpr (Nat.dvd_refl _)
  have positive : 0 < result := by
    apply Nat.pos_of_ne_zero
    intro none
    have both := completed.zero.mp none
    have digit_zero := folded.zero.mpr (by omega)
    omega
  have large := Nat.le_of_dvd positive (Nat.modEq_zero_iff_dvd.mp multiple)
  have small := completed.below
  omega

end Upst.OnesComplement
