import Upst.Sctp

/-!
The checksum of an SCTP packet against the bit by bit CRC-32C. The remainder is complemented and its
four octets are stored in the other order.
-/

namespace Upst.Sctp

open Bytes Crc Network

set_option autoImplicit false

section Checksum

def castagnoli : BitVec 32 := 0x82F63B78

/-- CRC-32C bit by bit. -/
def crc32c (bytes : List UInt8) : BitVec 32 := divide castagnoli 0xFFFFFFFF bytes ^^^ 0xFFFFFFFF

def byteSwap (word : BitVec 32) : BitVec 32 :=
  word.extractLsb' 0 8 ++ word.extractLsb' 8 8 ++ word.extractLsb' 16 8 ++ word.extractLsb' 24 8

theorem crc32tab_entries : ∀ index < 256,
    crc32tab.getD index 0 = Crc.run castagnoli 0#32 (byteBits (UInt8.ofNat index)) ∧
      crc32tab.getD index 0 = shifts castagnoli 8 (BitVec.ofNat 32 index) := by
  decide +kernel

theorem crc32tab_is_table : IsTable castagnoli fun index => crc32tab.getD index 0 := by
  intro byte
  have entry := crc32tab_entries byte.toNat byte.toNat_lt
  have widened : byte.toBitVec.setWidth 32 = BitVec.ofNat 32 byte.toNat :=
    BitVec.eq_of_toNat_eq (by rw [BitVec.toNat_setWidth, BitVec.toNat_ofNat, UInt8.toNat_toBitVec])
  rwa [UInt8.ofNat_toNat, ← widened] at entry

theorem crc_loop_eq (uiCrc : BitVec 32) (src : List UInt8) :
    crcLoop uiCrc src = divide castagnoli uiCrc src :=
  table_divide (by decide) crc32tab_is_table uiCrc src

theorem append_to_nat {high low : Nat} (upper : BitVec high) (lower : BitVec low) :
    (upper ++ lower).toNat = upper.toNat * 2 ^ low + lower.toNat := by
  rw [BitVec.toNat_append, ← Nat.shiftLeft_add_eq_or_of_lt lower.isLt, Nat.shiftLeft_eq]

/-- What `util_cvtuint` makes of a value. -/
theorem from_be_le32 (word : BitVec 32) : fromBe (le32 word.toNat) = (byteSwap word).toNat := by
  simp only [byteSwap, append_to_nat, BitVec.extractLsb'_toNat, Nat.shiftRight_eq_div_pow]
  simp only [fromBe, le32, List.foldl_cons, List.foldl_nil, UInt8.toNat_ofNat', Nat.reducePow,
    Nat.mod_mod, Nat.div_one]
  omega

theorem octets_injective {a b c d a' b' c' d' : Nat} (bounds : b < 256 ∧ c < 256 ∧ d < 256)
    (bounds' : b' < 256 ∧ c' < 256 ∧ d' < 256)
    (same : ((a * 256 + b) * 256 + c) * 256 + d = ((a' * 256 + b') * 256 + c') * 256 + d') :
    a = a' ∧ b = b' ∧ c = c' ∧ d = d' := by
  omega

theorem byte_swap_injective : Function.Injective byteSwap := by
  intro word word' same
  have octets := congrArg BitVec.toNat same
  simp only [byteSwap, append_to_nat, BitVec.extractLsb'_toNat, Nat.shiftRight_eq_div_pow,
    Nat.reducePow, Nat.div_one] at octets
  have within : ∀ value, value % 256 < 256 := fun value => Nat.mod_lt value (by decide)
  have parts := octets_injective ⟨within _, within _, within _⟩ ⟨within _, within _, within _⟩ octets
  have bound := word.isLt
  have bound' := word'.isLt
  exact BitVec.eq_of_toNat_eq (by omega)

theorem crc32_swapped (src : List UInt8) : uiCrc32 src = (byteSwap (crc32c src)).toNat := by
  have complement : ~~~ crcLoop 0xFFFFFFFF src = crc32c src := by
    rw [crc_loop_eq, crc32c, BitVec.xor_comm]
    exact BitVec.not_def
  rw [uiCrc32, complement, from_be_le32]

/-- A packet in which one byte is changed has another checksum. -/
theorem sum_changed {byte byte' : UInt8} (front back : List UInt8) (changed : byte ≠ byte') :
    uiCrc32 (front ++ byte :: back) ≠ uiCrc32 (front ++ byte' :: back) := by
  intro same
  rw [crc32_swapped, crc32_swapped] at same
  have remainders := byte_swap_injective (BitVec.eq_of_toNat_eq same)
  exact divide_changed (by decide) (by decide) crc32tab_is_table 0xFFFFFFFF front back changed
    ((BitVec.xor_left_inj _).mp remainders)

theorem sum_changed_last : uiCrc32 [1, 2] ≠ uiCrc32 [1, 3] :=
  sum_changed [1] [] (by decide)

theorem uiCrc32_is_crc32c :
    (∀ index < 256, crc32tab.getD index 0 = shifts castagnoli 8 (BitVec.ofNat 32 index)) ∧
      ∀ src : List UInt8, (∀ uiCrc, crcLoop uiCrc src = divide castagnoli uiCrc src) ∧
        uiCrc32 src = (byteSwap (crc32c src)).toNat :=
  ⟨fun index bound => (crc32tab_entries index bound).2,
    fun src => ⟨fun uiCrc => crc_loop_eq uiCrc src, crc32_swapped src⟩⟩

end Checksum

end Upst.Sctp
