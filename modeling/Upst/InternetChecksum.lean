import Upst.OnesComplement
import Mathlib.Data.List.TakeDrop

/-!
The Internet checksum, for machines of either byte order. An accumulator above `LONG_MAX` has no
result; the bound is that of a `long` of 32 bits.
-/

namespace Upst.InternetChecksum

open OnesComplement

set_option autoImplicit false

section Source

inductive ByteOrder where
  | little | big
  deriving DecidableEq, Repr

/-- `*(unsigned short *) addr`. -/
def ByteOrder.word (first second : UInt8) : ByteOrder → Nat
  | little => first.toNat + 256 * second.toNat
  | big => 256 * first.toNat + second.toNat

def LONG_MAX : Nat := 2 ^ 31 - 1

def addLong (sum term : Nat) : Option Nat :=
  if sum + term ≤ LONG_MAX then some (sum + term) else none

/-- The first loop, and the byte that it leaves over. -/
def sumLoop (order : ByteOrder) : List UInt8 → Nat → Option Nat
  | first :: second :: rest, sum => (addLong sum (order.word first second)).bind (sumLoop order rest)
  | [last], sum => addLong sum last.toNat
  | [], sum => some sum

def foldTurn (sum : Nat) : Nat := (sum &&& 0xffff) + (sum >>> 16)

theorem fold_turn_eq (sum : Nat) : foldTurn sum = carried (2 ^ 16) sum := by
  rw [foldTurn, carried, Nat.shiftRight_eq_div_pow]
  exact congrArg (fun low => low + sum / 2 ^ 16) (Nat.and_two_pow_sub_one_eq_mod sum 16)

theorem shifted_large {sum : Nat} (carry : sum >>> 16 ≠ 0) : 2 ^ 16 ≤ sum := by
  rw [Nat.shiftRight_eq_div_pow] at carry
  omega

def foldLoop (sum : Nat) : Nat :=
  if sum >>> 16 ≠ 0 then foldLoop (foldTurn sum) else sum
termination_by sum
decreasing_by
  next carry =>
    rw [fold_turn_eq]
    exact carried_lt (by decide) (shifted_large carry)

/-- `(unsigned short)~sum`. -/
def complement (sum : Nat) : Nat := 0xffff - sum % 2 ^ 16

def Checksum (order : ByteOrder) (bytes : List UInt8) : Option Nat :=
  (sumLoop order bytes 0).map fun sum => complement (foldLoop sum)

/-- The bytes of `*(unsigned short *) addr = value`. -/
def ByteOrder.bytes (value : Nat) : ByteOrder → List UInt8
  | little => [UInt8.ofNat value, UInt8.ofNat (value / 256)]
  | big => [UInt8.ofNat (value / 256), UInt8.ofNat value]

def storeWord (order : ByteOrder) (position value : Nat) (bytes : List UInt8) : List UInt8 :=
  bytes.take position ++ (order.bytes value ++ bytes.drop (position + 2))

end Source

section Sum

def total (order : ByteOrder) : List UInt8 → Nat
  | first :: second :: rest => order.word first second + total order rest
  | [last] => last.toNat
  | [] => 0

theorem word_le (order : ByteOrder) (first second : UInt8) : order.word first second ≤ 65535 := by
  have first_lt := first.toNat_lt
  have second_lt := second.toNat_lt
  cases order with
  | little =>
      rw [ByteOrder.word]
      omega
  | big =>
      rw [ByteOrder.word]
      omega

/-- The accumulator stays below the bound: each word adds at most `65535` to it. -/
theorem sum_loop_eq (order : ByteOrder) (bytes : List UInt8) : ∀ sum,
    sum + 65535 * ((bytes.length + 1) / 2) ≤ LONG_MAX →
      sumLoop order bytes sum = some (sum + total order bytes) := by
  induction bytes using total.induct with
  | case1 first second rest ih =>
      intro sum bound
      have word := word_le order first second
      rw [List.length_cons, List.length_cons] at bound
      rw [sumLoop, addLong, if_pos (by omega), Option.bind_some, ih _ (by omega), total, Nat.add_assoc]
  | case2 last =>
      intro sum bound
      have byte := last.toNat_lt
      rw [List.length_singleton] at bound
      rw [sumLoop, addLong, if_pos (by omega), total]
  | case3 =>
      intro sum bound
      rfl

theorem sum_fits {bytes : List UInt8} (fits : bytes.length ≤ 65535) (order : ByteOrder) :
    sumLoop order bytes 0 = some (total order bytes) := by
  have loop := sum_loop_eq order bytes 0
  rw [Nat.zero_add, Nat.zero_add] at loop
  apply loop
  rw [LONG_MAX]
  omega

theorem total_le (order : ByteOrder) (bytes : List UInt8) :
    total order bytes ≤ 65535 * ((bytes.length + 1) / 2) := by
  induction bytes using total.induct with
  | case1 first second rest ih =>
      have word := word_le order first second
      rw [total, List.length_cons, List.length_cons]
      omega
  | case2 last =>
      have byte := last.toNat_lt
      rw [total, List.length_singleton]
      omega
  | case3 => exact Nat.zero_le _

theorem total_append (order : ByteOrder) (front back : List UInt8) (even : front.length % 2 = 0) :
    total order (front ++ back) = total order front + total order back := by
  induction front using total.induct with
  | case1 first second rest ih =>
      rw [List.length_cons, List.length_cons] at even
      rw [List.cons_append, List.cons_append, total, total, ih (by omega), Nat.add_assoc]
  | case2 last => cases even
  | case3 => exact (Nat.zero_add _).symm

end Sum

section Fold

theorem fold_loop_folded (sum : Nat) : Folded (2 ^ 16) sum (foldLoop sum) := by
  induction sum using foldLoop.induct with
  | case1 sum carry ih =>
      rw [foldLoop, if_pos carry]
      rw [fold_turn_eq] at ih ⊢
      exact folded_carried (by decide) ih
  | case2 sum none =>
      rw [foldLoop, if_neg none]
      apply folded_below
      rw [not_not, Nat.shiftRight_eq_div_pow] at none
      omega

/-- Two turns take all carries of an accumulator. -/
theorem two_turns {sum : Nat} (bound : sum ≤ LONG_MAX) : foldTurn (foldTurn sum) >>> 16 = 0 := by
  rw [fold_turn_eq, fold_turn_eq, carried, carried, Nat.shiftRight_eq_div_pow]
  rw [LONG_MAX] at bound
  omega

theorem complement_folded (sum : Nat) : complement (foldLoop sum) = 2 ^ 16 - 1 - foldLoop sum := by
  rw [complement, Nat.mod_eq_of_lt (fold_loop_folded sum).below]
  rfl

/-- A list of bytes whose checksum is right. -/
theorem checksum_zero {bytes : List UInt8} (fits : bytes.length ≤ 65535) {order : ByteOrder}
    (positive : 0 < total order bytes) (multiple : total order bytes % 65535 = 0) :
    Checksum order bytes = some 0 := by
  have folded := fold_loop_folded (total order bytes)
  have below := folded.below
  have some := (not_congr folded.zero).mpr (Nat.pos_iff_ne_zero.mp positive)
  have same : foldLoop (total order bytes) % 65535 = total order bytes % 65535 := folded.same
  rw [Checksum, sum_fits fits, Option.map_some, complement_folded]
  apply congrArg Option.some
  omega

end Fold

section Law

theorem stored_word (order : ByteOrder) {value : Nat} (bound : value < 2 ^ 16) (rest : List UInt8) :
    total order (order.bytes value ++ rest) = value + total order rest := by
  cases order with
  | little =>
      rw [ByteOrder.bytes, List.cons_append, List.singleton_append, total, ByteOrder.word,
        UInt8.toNat_ofNat', UInt8.toNat_ofNat']
      omega
  | big =>
      rw [ByteOrder.bytes, List.cons_append, List.singleton_append, total, ByteOrder.word,
        UInt8.toNat_ofNat', UInt8.toNat_ofNat']
      omega

theorem zero_word (order : ByteOrder) {bytes : List UInt8} {position : Nat}
    (zero : (bytes.drop position).take 2 = [0, 0]) : storeWord order position 0 bytes = bytes := by
  have zeros : order.bytes 0 = (bytes.drop position).take 2 := by
    rw [zero]
    cases order with
    | little => rfl
    | big => rfl
  rw [storeWord, zeros, ← List.drop_drop, List.take_append_drop, List.take_append_drop]

theorem total_stored (order : ByteOrder) {bytes : List UInt8} {position value : Nat}
    (even : position % 2 = 0) (inside : position ≤ bytes.length) (bound : value < 2 ^ 16) :
    total order (storeWord order position value bytes) =
      total order (storeWord order position 0 bytes) + value := by
  have front : (bytes.take position).length % 2 = 0 := by
    rw [List.length_take_of_le inside]
    exact even
  rw [storeWord, storeWord, total_append _ _ _ front, total_append _ _ _ front, stored_word order bound,
    stored_word order (by decide)]
  omega

theorem stored_length (order : ByteOrder) {bytes : List UInt8} {position value : Nat}
    (inside : position + 2 ≤ bytes.length) :
    (storeWord order position value bytes).length = bytes.length := by
  have word : (order.bytes value).length = 2 := by
    cases order with
    | little => rfl
    | big => rfl
  rw [storeWord, List.length_append, List.length_append, word, List.length_take, List.length_drop]
  omega

/-- With the checksum in a word that was zero, the checksum is zero. No accumulator overflows, and the
carries are folded after two turns. -/
theorem checksum_stored (order : ByteOrder) (bytes : List UInt8) (position : Nat)
    (fits : bytes.length ≤ 65535) (even : position % 2 = 0)
    (zero : (bytes.drop position).take 2 = [0, 0]) :
    ∃ checksum, Checksum order bytes = some checksum ∧
      Checksum order (storeWord order position checksum bytes) = some 0 ∧
      ∀ sum, sumLoop order bytes 0 = some sum → foldTurn (foldTurn sum) >>> 16 = 0 := by
  have inside : position + 2 ≤ bytes.length := by
    have two := congrArg List.length zero
    rw [List.length_take, List.length_drop, List.length_cons, List.length_singleton] at two
    omega
  have below : complement (foldLoop (total order bytes)) < 2 ^ 16 := by
    rw [complement]
    omega
  refine ⟨complement (foldLoop (total order bytes)), ?_, ?_, ?_⟩
  · rw [Checksum, sum_fits fits, Option.map_some]
  · have stored := fold_loop_folded
      (total order (storeWord order position (complement (foldLoop (total order bytes))) bytes))
    rw [total_stored order even (by omega) below, zero_word order zero, complement_folded] at stored
    have largest := folded_complement (by decide) (fold_loop_folded (total order bytes)) stored
    rw [Checksum, sum_fits (by rw [stored_length order inside]; exact fits), Option.map_some,
      total_stored order even (by omega) below, zero_word order zero, complement_folded, complement_folded,
      largest, Nat.sub_self]
  · intro sum found
    rw [sum_fits fits] at found
    cases found
    apply two_turns
    have bound := total_le order bytes
    rw [LONG_MAX]
    omega

/-- A list of odd length. -/
theorem checksum_stored_odd : ∃ checksum,
    Checksum .little [0x45, 0, 0, 0, 7] = some checksum ∧
      Checksum .little (storeWord .little 2 checksum [0x45, 0, 0, 0, 7]) = some 0 ∧
      ∀ sum, sumLoop .little [0x45, 0, 0, 0, 7] 0 = some sum → foldTurn (foldTurn sum) >>> 16 = 0 :=
  checksum_stored .little [0x45, 0, 0, 0, 7] 2 (by decide) rfl rfl

end Law

end Upst.InternetChecksum
