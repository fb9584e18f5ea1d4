import Mathlib.Data.List.Range
import Mathlib.Data.List.GetD
import Mathlib.Algebra.Order.Ring.Int

/-!
Byte-addressed memory: a map from addresses to bytes, block reads and writes,
and the little-endian image of a 32-bit word.
-/

namespace Upst.Bytes

set_option autoImplicit false

def readBytes (byteAt : Nat → UInt8) (ptr size : Nat) : List UInt8 :=
  (List.range size).map fun index => byteAt (ptr + index)

def writeBytes (byteAt : Nat → UInt8) (ptr : Nat) (src : List UInt8) : Nat → UInt8 :=
  fun place => if ptr ≤ place ∧ place < ptr + src.length then src.getD (place - ptr) 0
    else byteAt place

def le32 (x : Nat) : List UInt8 :=
  [UInt8.ofNat (x % 256), UInt8.ofNat (x / 256 % 256), UInt8.ofNat (x / 65536 % 256),
    UInt8.ofNat (x / 16777216 % 256)]

def fromLe : List UInt8 → Nat
  | [] => 0
  | byte :: rest => byte.toNat + 256 * fromLe rest

@[simp] theorem read_bytes_length (byteAt : Nat → UInt8) (ptr size : Nat) :
    (readBytes byteAt ptr size).length = size := by
  simp [readBytes]

@[simp] theorem le32_length (x : Nat) : (le32 x).length = 4 := rfl

theorem from_le_le32 (x : Nat) (bound : x < 2 ^ 32) : fromLe (le32 x) = x := by
  simp only [le32, fromLe, UInt8.toNat_ofNat']
  omega

theorem read_bytes_getElem? (byteAt : Nat → UInt8) (ptr size : Nat) {index : Nat}
    (bound : index < size) : (readBytes byteAt ptr size)[index]? = some (byteAt (ptr + index)) := by
  simp [readBytes, bound]

theorem read_bytes_append (byteAt : Nat → UInt8) (ptr front back : Nat) :
    readBytes byteAt ptr (front + back) =
      readBytes byteAt ptr front ++ readBytes byteAt (ptr + front) back := by
  simp [readBytes, List.range_add, Nat.add_assoc]

theorem read_bytes_slice (byteAt : Nat → UInt8) (ptr size skip count : Nat)
    (bound : skip + count ≤ size) :
    ((readBytes byteAt ptr size).drop skip).take count = readBytes byteAt (ptr + skip) count := by
  obtain ⟨rest, rfl⟩ := Nat.exists_eq_add_of_le bound
  rw [read_bytes_append, read_bytes_append]
  simp

theorem read_bytes_congr {byteAt byteAt' : Nat → UInt8} {ptr size : Nat}
    (same : ∀ place, ptr ≤ place → place < ptr + size → byteAt' place = byteAt place) :
    readBytes byteAt' ptr size = readBytes byteAt ptr size := by
  unfold readBytes
  apply List.map_congr_left
  intro index member
  rw [List.mem_range] at member
  exact same _ (by omega) (by omega)

theorem read_write_same (byteAt : Nat → UInt8) (ptr : Nat) (src : List UInt8) :
    readBytes (writeBytes byteAt ptr src) ptr src.length = src := by
  apply List.ext_getElem?
  intro index
  rcases Nat.lt_or_ge index src.length with inside | outside
  · rw [read_bytes_getElem? _ _ _ inside]
    simp [writeBytes, inside]
  · rw [List.getElem?_eq_none (by simpa using outside), List.getElem?_eq_none outside]

theorem read_write_apart (byteAt : Nat → UInt8) (ptr : Nat) (src : List UInt8) (place size : Nat)
    (apart : place + size ≤ ptr ∨ ptr + src.length ≤ place) :
    readBytes (writeBytes byteAt ptr src) place size = readBytes byteAt place size := by
  apply read_bytes_congr
  intro byte after before
  simp only [writeBytes]
  rw [if_neg (by omega)]

end Upst.Bytes
