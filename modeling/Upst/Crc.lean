import Mathlib.Data.BitVec
import Mathlib.Tactic.SplitIfs

/-!
Reflected cyclic redundancy checks. A register of any width is divided bit by bit, low bits
first. A division is linear in the register and, where the polynomial has its top bit, loses
nothing of it; a table of the remainders of the bytes takes eight bits at once.
-/

namespace Upst.Crc

set_option autoImplicit false

section Register

variable {w : Nat}

def shift (poly reg : BitVec w) : BitVec w :=
  if reg.getLsbD 0 then (reg >>> 1) ^^^ poly else reg >>> 1

def shifts (poly : BitVec w) : Nat → BitVec w → BitVec w
  | 0, reg => reg
  | count + 1, reg => shifts poly count (shift poly reg)

/-- A bit of the message enters at the low end of the register. -/
def feed (poly reg : BitVec w) (bit : Bool) : BitVec w :=
  shift poly (reg ^^^ (BitVec.ofBool bit).setWidth w)

def run (poly reg : BitVec w) (bits : List Bool) : BitVec w := bits.foldl (feed poly) reg

theorem xor_swap (a b c d : BitVec w) : (a ^^^ b) ^^^ (c ^^^ d) = (a ^^^ c) ^^^ (b ^^^ d) := by
  rw [BitVec.xor_assoc, BitVec.xor_assoc, ← BitVec.xor_assoc b c d, BitVec.xor_comm b c,
    BitVec.xor_assoc c b d]

theorem shift_xor (poly a b : BitVec w) :
    shift poly (a ^^^ b) = shift poly a ^^^ shift poly b := by
  unfold shift
  rw [BitVec.getLsbD_xor, BitVec.ushiftRight_xor_distrib]
  cases a.getLsbD 0 <;> cases b.getLsbD 0
  · rfl
  · simp [BitVec.xor_assoc]
  · simp [BitVec.xor_assoc, BitVec.xor_comm poly]
  · have twice := xor_swap (a >>> 1) poly (b >>> 1) poly
    simp [twice]

theorem shifts_xor (poly : BitVec w) (count : Nat) (a b : BitVec w) :
    shifts poly count (a ^^^ b) = shifts poly count a ^^^ shifts poly count b := by
  induction count generalizing a b with
  | zero => rfl
  | succ count ih => rw [shifts, shift_xor, ih, shifts, shifts]

/-- Low bits that are clear only move out. -/
theorem shifts_clear (poly : BitVec w) (count : Nat) (reg : BitVec w)
    (clear : ∀ place < count, reg.getLsbD place = false) : shifts poly count reg = reg >>> count := by
  induction count generalizing reg with
  | zero => rw [shifts, BitVec.ushiftRight_zero]
  | succ count ih =>
      have low := clear 0 (Nat.succ_pos count)
      have moved : ∀ place < count, (reg >>> 1).getLsbD place = false := by
        intro place before
        rw [BitVec.getLsbD_ushiftRight]
        exact clear (1 + place) (by omega)
      rw [shifts, shift, low, if_neg Bool.false_ne_true, ih (reg >>> 1) moved, ← BitVec.shiftRight_add,
        Nat.add_comm]

theorem shift_eq_zero {poly reg : BitVec w} (top : poly.getLsbD (w - 1) = true)
    (zero : shift poly reg = 0#w) : reg = 0#w := by
  unfold shift at zero
  cases low : reg.getLsbD 0
  · rw [low, if_neg Bool.false_ne_true] at zero
    apply BitVec.eq_of_getLsbD_eq
    intro place bound
    cases place with
    | zero => simpa using low
    | succ place =>
        have moved := congrArg (fun bits => bits.getLsbD place) zero
        simpa [BitVec.getLsbD_ushiftRight, Nat.add_comm] using moved
  · rw [low, if_pos rfl] at zero
    have last := congrArg (fun bits => bits.getLsbD (w - 1)) zero
    have width : 0 < w := by
      by_contra empty
      have none_left := BitVec.getLsbD_of_ge reg 0 (by omega)
      rw [low] at none_left
      exact Bool.false_ne_true none_left.symm
    have outside := BitVec.getLsbD_of_ge reg (1 + (w - 1)) (by omega)
    simp [BitVec.getLsbD_ushiftRight, outside, top] at last

theorem shift_injective {poly : BitVec w} (top : poly.getLsbD (w - 1) = true) :
    Function.Injective (shift poly) := by
  intro a b same
  apply BitVec.xor_eq_zero_iff.mp
  apply shift_eq_zero top
  rw [shift_xor, same, BitVec.xor_self]

theorem shifts_injective {poly : BitVec w} (top : poly.getLsbD (w - 1) = true) (count : Nat) :
    Function.Injective (shifts poly count) := by
  induction count with
  | zero => exact fun _ _ same => same
  | succ count ih => exact fun _ _ same => shift_injective top (ih same)

theorem feed_injective {poly : BitVec w} (top : poly.getLsbD (w - 1) = true) (bit : Bool) :
    Function.Injective fun reg => feed poly reg bit := by
  intro a b same
  exact (BitVec.xor_left_inj _).mp (shift_injective top same)

theorem run_append (poly reg : BitVec w) (front back : List Bool) :
    run poly reg (front ++ back) = run poly (run poly reg front) back := List.foldl_append

theorem run_injective {poly : BitVec w} (top : poly.getLsbD (w - 1) = true) (bits : List Bool) :
    Function.Injective fun reg => run poly reg bits := by
  induction bits with
  | nil => exact fun _ _ same => same
  | cons bit bits ih => exact fun _ _ same => feed_injective top bit (ih same)

/-- The register moves through the message on its own. -/
theorem run_linear (poly reg : BitVec w) (bits : List Bool) :
    run poly reg bits = shifts poly bits.length reg ^^^ run poly 0#w bits := by
  induction bits generalizing reg with
  | nil => simp [run, shifts]
  | cons bit bits ih =>
      have step : run poly reg (bit :: bits) = run poly (feed poly reg bit) bits := rfl
      have fresh : run poly 0#w (bit :: bits) = run poly (feed poly 0#w bit) bits := rfl
      have split : feed poly reg bit = shift poly reg ^^^ feed poly 0#w bit := by
        rw [feed, feed, shift_xor, BitVec.zero_xor]
      rw [step, fresh, ih, ih (feed poly 0#w bit), split, shifts_xor, List.length_cons, shifts,
        BitVec.xor_assoc]

end Register

section Bytes

variable {w : Nat}

/-- The bits of a byte in the order they are sent. -/
def byteBits (byte : UInt8) : List Bool := (List.range 8).map byte.toBitVec.getLsbD

def divide (poly reg : BitVec w) (bytes : List UInt8) : BitVec w :=
  run poly reg (bytes.flatMap byteBits)

theorem divide_append (poly reg : BitVec w) (front back : List UInt8) :
    divide poly reg (front ++ back) = divide poly (divide poly reg front) back := by
  rw [divide, List.flatMap_append, run_append]
  rfl

theorem divide_cons (poly reg : BitVec w) (byte : UInt8) (rest : List UInt8) :
    divide poly reg (byte :: rest) = divide poly (run poly reg (byteBits byte)) rest := by
  rw [divide, List.flatMap_cons, run_append]
  rfl

theorem divide_injective {poly : BitVec w} (top : poly.getLsbD (w - 1) = true) (bytes : List UInt8) :
    Function.Injective fun reg => divide poly reg bytes := run_injective top (bytes.flatMap byteBits)

/-- Every entry is the remainder of its index. -/
def IsTable (poly : BitVec w) (table : Nat → BitVec w) : Prop :=
  ∀ byte : UInt8, table byte.toNat = run poly 0#w (byteBits byte) ∧
    table byte.toNat = shifts poly 8 (byte.toBitVec.setWidth w)

def tableStep (table : Nat → BitVec w) (reg : BitVec w) (byte : UInt8) : BitVec w :=
  (reg >>> 8) ^^^ table ((reg ^^^ byte.toBitVec.setWidth w) &&& 0xff#w).toNat

theorem low_mask (wide : 8 ≤ w) (place : Nat) : (0xff#w).getLsbD place = decide (place < 8) := by
  have ones : (255 : Nat) = 2 ^ 8 - 1 := rfl
  rw [BitVec.getLsbD_ofNat, ones, Nat.testBit_two_pow_sub_one]
  by_cases low : place < 8
  · simp [low, Nat.lt_of_lt_of_le low wide]
  · simp [low]

/-- A register is its low byte and what lies above it. -/
theorem low_byte_split (reg : BitVec w) : (reg &&& ~~~0xff#w) ^^^ (reg &&& 0xff#w) = reg := by
  apply BitVec.eq_of_getLsbD_eq
  intro place bound
  rw [BitVec.getLsbD_xor, BitVec.getLsbD_and, BitVec.getLsbD_and, BitVec.getLsbD_not]
  cases reg.getLsbD place <;> cases (0xff#w).getLsbD place <;> simp [bound]

theorem low_byte_width (wide : 8 ≤ w) (reg : BitVec w) :
    (reg.setWidth 8).setWidth w = reg &&& 0xff#w := by
  apply BitVec.eq_of_getLsbD_eq
  intro place bound
  rw [BitVec.getLsbD_setWidth, BitVec.getLsbD_setWidth, BitVec.getLsbD_and, low_mask wide]
  by_cases low : place < 8
  · simp [low, bound]
  · simp [low]

theorem shifts_eight (poly : BitVec w) (wide : 8 ≤ w) (reg : BitVec w) :
    shifts poly 8 reg = (reg >>> 8) ^^^ shifts poly 8 (reg &&& 0xff#w) := by
  have clear : ∀ place < 8, (reg &&& ~~~0xff#w).getLsbD place = false := by
    intro place low
    rw [BitVec.getLsbD_and, BitVec.getLsbD_not, low_mask wide]
    simp [low]
  have moved : (reg &&& ~~~0xff#w) >>> 8 = reg >>> 8 := by
    apply BitVec.eq_of_getLsbD_eq
    intro place _
    rw [BitVec.getLsbD_ushiftRight, BitVec.getLsbD_ushiftRight, BitVec.getLsbD_and, BitVec.getLsbD_not,
      low_mask wide]
    by_cases inside : 8 + place < w
    · simp [inside]
    · simp [BitVec.getLsbD_of_ge reg (8 + place) (by omega)]
  conv_lhs => rw [← low_byte_split reg]
  rw [shifts_xor, shifts_clear poly 8 _ clear, moved]

/-- The table takes a whole byte in one step. -/
theorem table_step {poly : BitVec w} {table : Nat → BitVec w} (wide : 8 ≤ w)
    (entries : IsTable poly table) (reg : BitVec w) (byte : UInt8) :
    tableStep table reg byte = run poly reg (byteBits byte) := by
  let mixed := reg ^^^ byte.toBitVec.setWidth w
  have index : (mixed &&& 0xff#w).toNat = (UInt8.ofBitVec (mixed.setWidth 8)).toNat := by
    have narrow := congrArg BitVec.toNat (low_byte_width wide mixed)
    have small : (mixed.setWidth 8).toNat < 2 ^ w :=
      Nat.lt_of_lt_of_le (mixed.setWidth 8).isLt (Nat.pow_le_pow_right (by decide) wide)
    rw [BitVec.toNat_setWidth, Nat.mod_eq_of_lt small] at narrow
    exact narrow.symm
  have entry : table (mixed &&& 0xff#w).toNat = shifts poly 8 (mixed &&& 0xff#w) := by
    rw [index, (entries _).2]
    exact congrArg (shifts poly 8) (low_byte_width wide mixed)
  have apart : mixed >>> 8 = reg >>> 8 := by
    have gone : (byte.toBitVec.setWidth w) >>> 8 = 0#w := by
      apply BitVec.eq_of_getLsbD_eq
      intro place _
      rw [BitVec.getLsbD_ushiftRight, BitVec.getLsbD_setWidth,
        BitVec.getLsbD_of_ge byte.toBitVec (8 + place) (by omega)]
      simp
    rw [BitVec.ushiftRight_xor_distrib, gone, BitVec.xor_zero]
  calc tableStep table reg byte
      = (mixed >>> 8) ^^^ shifts poly 8 (mixed &&& 0xff#w) := by rw [apart, ← entry]; rfl
    _ = shifts poly 8 mixed := (shifts_eight poly wide mixed).symm
    _ = shifts poly 8 reg ^^^ run poly 0#w (byteBits byte) := by
        rw [shifts_xor, ← (entries byte).2, (entries byte).1]
    _ = run poly reg (byteBits byte) := (run_linear poly reg (byteBits byte)).symm

theorem table_divide {poly : BitVec w} {table : Nat → BitVec w} (wide : 8 ≤ w)
    (entries : IsTable poly table) (reg : BitVec w) (bytes : List UInt8) :
    bytes.foldl (tableStep table) reg = divide poly reg bytes := by
  induction bytes generalizing reg with
  | nil => rfl
  | cons byte rest ih => rw [List.foldl_cons, ih, table_step wide entries, divide_cons]

/-- A byte that is changed changes the remainder, whatever follows it. -/
theorem divide_changed {poly : BitVec w} {table : Nat → BitVec w} (wide : 8 ≤ w)
    (top : poly.getLsbD (w - 1) = true) (entries : IsTable poly table) (reg : BitVec w)
    {byte byte' : UInt8} (front back : List UInt8) (changed : byte ≠ byte') :
    divide poly reg (front ++ byte :: back) ≠ divide poly reg (front ++ byte' :: back) := by
  intro same
  rw [divide_append, divide_append, divide_cons, divide_cons] at same
  have after := divide_injective top back same
  have lengths : (byteBits byte).length = (byteBits byte').length := by simp [byteBits]
  rw [run_linear, run_linear _ _ (byteBits byte'), lengths] at after
  have remainders := (BitVec.xor_right_inj _).mp after
  rw [← (entries byte).1, ← (entries byte').1, (entries byte).2, (entries byte').2] at remainders
  have widened := shifts_injective top 8 remainders
  have narrow := congrArg (fun reg => reg.setWidth 8) widened
  beta_reduce at narrow
  rw [BitVec.setWidth_setWidth_of_le _ wide, BitVec.setWidth_setWidth_of_le _ wide, BitVec.setWidth_eq,
    BitVec.setWidth_eq] at narrow
  exact changed (UInt8.toBitVec_inj.mp narrow)

end Bytes

end Upst.Crc
