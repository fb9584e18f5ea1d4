import Mathlib.Data.Nat.Bitwise
import Mathlib.Data.UInt
import Mathlib.Logic.Function.Basic
import Mathlib.Tactic.Ring

/-!
The bit array over the whole IPv4 address space, one bit for each address, and the
setting of the block of a network. Addresses and the loop counter are 32-bit words.
-/

namespace Upst.Ippool

set_option autoImplicit false

def IPPOOL_SIZE : Nat := 4294967296

/-- Bits of a word of the array. -/
def FFD_NFDBITS : Nat := 4 * 8

abbrev IppoolList := Fin (IPPOOL_SIZE / FFD_NFDBITS) → UInt32

section Source

def slot (n : UInt32) : Fin (IPPOOL_SIZE / FFD_NFDBITS) :=
  ⟨n.toNat / FFD_NFDBITS, by
    have bound := n.toNat_lt
    rw [FFD_NFDBITS, IPPOOL_SIZE]
    omega⟩

/-- `1ul << (n % FFD_NFDBITS)`, in a word of the array. -/
def mask (n : UInt32) : UInt32 :=
  1 <<< UInt32.ofNat (n.toNat % FFD_NFDBITS)

def ippoolSet (n : UInt32) (p : IppoolList) : IppoolList :=
  Function.update p (slot n) (p (slot n) ||| mask n)

def ippoolClr (n : UInt32) (p : IppoolList) : IppoolList :=
  Function.update p (slot n) (p (slot n) &&& ~~~mask n)

def ippoolIsset (n : UInt32) (p : IppoolList) : Bool :=
  p (slot n) &&& mask n != 0

/-- `for( i=uiTempIP1; i<=uiTempIP2; i++ )`: no result when the iterations given do not
reach its end. -/
def addressLoop (body : UInt32 → IppoolList → IppoolList) (uiTempIP2 : UInt32) :
    Nat → UInt32 → IppoolList → Option IppoolList
  | 0, _, _ => none
  | fuel + 1, i, pstIPPOOL =>
      if i ≤ uiTempIP2 then addressLoop body uiTempIP2 fuel (i + 1) (body i pstIPPOOL)
      else some pstIPPOOL

/-- The first address of the block. -/
def tempIP1 (uiIPAddress uiNetMask : UInt32) : UInt32 :=
  (uiIPAddress >>> (32 - uiNetMask)) <<< (32 - uiNetMask)

/-- The last address of the block. -/
def tempIP2 (uiIPAddress uiNetMask : UInt32) : UInt32 :=
  if uiNetMask ≠ 32 then
    ((~~~((uiIPAddress >>> (32 - uiNetMask)) <<< (32 - uiNetMask)) <<< uiNetMask) >>> uiNetMask) |||
      tempIP1 uiIPAddress uiNetMask
  else uiIPAddress

/-- The return value and the array, when `fuel` iterations are enough. -/
def dSetIPPOOLList (fuel : Nat) (uiIPAddress uiNetMask : UInt32) (ucStatus : UInt8)
    (pstIPPOOL : IppoolList) : Option (Int × IppoolList) :=
  let uiTempIP1 := tempIP1 uiIPAddress uiNetMask
  let uiTempIP2 := tempIP2 uiIPAddress uiNetMask
  if ucStatus = 1 then do
    let pstIPPOOL ← addressLoop ippoolSet uiTempIP2 fuel uiTempIP1 pstIPPOOL
    some (1, pstIPPOOL)
  else if ucStatus = 0 then do
    let pstIPPOOL ← addressLoop ippoolClr uiTempIP2 fuel uiTempIP1 pstIPPOOL
    some (1, pstIPPOOL)
  else some (-1, pstIPPOOL)

end Source

section Bits

theorem mask_toNat (n : UInt32) : (mask n).toNat = 2 ^ (n.toNat % FFD_NFDBITS) := by
  have small : n.toNat % FFD_NFDBITS < 32 := Nat.mod_lt _ (by decide)
  have fits : 2 ^ (n.toNat % FFD_NFDBITS) < 2 ^ 32 := Nat.pow_lt_pow_right (by decide) small
  have word : n.toNat % FFD_NFDBITS < 2 ^ 32 := small.trans (by decide)
  rw [mask, UInt32.toNat_shiftLeft, UInt32.toNat_ofNat', Nat.mod_eq_of_lt word,
    Nat.mod_eq_of_lt small, UInt32.toNat_one, Nat.shiftLeft_eq, Nat.one_mul,
    Nat.mod_eq_of_lt fits]

theorem isset_testBit (n : UInt32) (p : IppoolList) :
    ippoolIsset n p = (p (slot n)).toNat.testBit (n.toNat % FFD_NFDBITS) := by
  have zero (word : UInt32) : word = 0 ↔ word.toNat = 0 := by
    rw [← UInt32.toNat_inj]
    rfl
  rw [ippoolIsset, bne, Bool.eq_iff_iff, Bool.not_eq_true', beq_eq_false_iff_ne, ne_eq, zero,
    UInt32.toNat_and, mask_toNat, Nat.and_two_pow]
  cases (p (slot n)).toNat.testBit (n.toNat % FFD_NFDBITS) <;> simp

/-- An address is its word and its bit. -/
theorem address_eq {n other : UInt32} (sameSlot : slot n = slot other)
    (sameBit : n.toNat % FFD_NFDBITS = other.toNat % FFD_NFDBITS) : n = other := by
  have words : n.toNat / FFD_NFDBITS = other.toNat / FFD_NFDBITS := congrArg Fin.val sameSlot
  rw [← UInt32.toNat_inj, ← Nat.div_add_mod n.toNat FFD_NFDBITS, words, sameBit,
    Nat.div_add_mod]

theorem isset_set (other n : UInt32) (p : IppoolList) :
    ippoolIsset other (ippoolSet n p) = (decide (other = n) || ippoolIsset other p) := by
  rw [isset_testBit, isset_testBit, ippoolSet]
  by_cases sameSlot : slot other = slot n
  · rw [sameSlot, Function.update_self, UInt32.toNat_or, mask_toNat, Nat.testBit_or,
      Nat.testBit_two_pow, Bool.or_comm]
    congr 1
    rw [decide_eq_decide]
    constructor
    · exact fun sameBit => address_eq sameSlot sameBit.symm
    · rintro rfl
      rfl
  · have differ : other ≠ n := fun same => sameSlot (congrArg slot same)
    rw [Function.update_of_ne sameSlot, decide_eq_false differ, Bool.false_or]

theorem isset_clr (other n : UInt32) (p : IppoolList) :
    ippoolIsset other (ippoolClr n p) = (!decide (other = n) && ippoolIsset other p) := by
  rw [isset_testBit, isset_testBit, ippoolClr]
  by_cases sameSlot : slot other = slot n
  · have small : other.toNat % FFD_NFDBITS < 32 := Nat.mod_lt _ (by decide)
    have complement : (~~~mask n).toNat = 2 ^ 32 - (2 ^ (n.toNat % FFD_NFDBITS) + 1) := by
      rw [UInt32.toNat_not, mask_toNat]
      rw [UInt32.size]
      omega
    have fits : 2 ^ (n.toNat % FFD_NFDBITS) < 2 ^ 32 :=
      Nat.pow_lt_pow_right (by decide) (Nat.mod_lt _ (by decide))
    rw [sameSlot, Function.update_self, UInt32.toNat_and, complement, Nat.testBit_and,
      Nat.testBit_two_pow_sub_succ fits, decide_eq_true small, Bool.true_and, Bool.and_comm,
      Nat.testBit_two_pow]
    congr 2
    rw [decide_eq_decide]
    constructor
    · exact fun sameBit => address_eq sameSlot sameBit.symm
    · rintro rfl
      rfl
  · have differ : other ≠ n := fun same => sameSlot (congrArg slot same)
    rw [Function.update_of_ne sameSlot, decide_eq_false differ, Bool.not_false, Bool.true_and]

end Bits

section Loop

/-- What both bodies do: one bit gets a value and the others stay. -/
def Marks (body : UInt32 → IppoolList → IppoolList) (value : Bool) : Prop :=
  ∀ other n p, ippoolIsset other (body n p) = if other = n then value else ippoolIsset other p

theorem marks_set : Marks ippoolSet true := by
  intro other n p
  rw [isset_set]
  by_cases same : other = n <;> simp [same]

theorem marks_clr : Marks ippoolClr false := by
  intro other n p
  rw [isset_clr]
  by_cases same : other = n <;> simp [same]

/-- Below the highest address the counter reaches the end of the block. -/
theorem loop_marks {body : UInt32 → IppoolList → IppoolList} {value : Bool}
    (marks : Marks body value) {last : UInt32} (short : last.toNat + 1 < 2 ^ 32) {fuel : Nat}
    {i : UInt32} (p : IppoolList) (below : i.toNat ≤ last.toNat + 1)
    (enough : last.toNat + 1 - i.toNat < fuel) :
    ∃ result, addressLoop body last fuel i p = some result ∧
      ∀ other, ippoolIsset other result =
        if i.toNat ≤ other.toNat ∧ other.toNat ≤ last.toNat then value
        else ippoolIsset other p := by
  induction fuel generalizing i p with
  | zero => omega
  | succ fuel ih =>
      rw [addressLoop]
      by_cases within : i ≤ last
      · have inside := UInt32.le_iff_toNat_le.mp within
        have next : (i + 1).toNat = i.toNat + 1 := by
          rw [UInt32.toNat_add, UInt32.toNat_one, Nat.mod_eq_of_lt (by omega)]
        obtain ⟨result, looped, bits⟩ := @ih (i + 1) (body i p) (by omega) (by omega)
        refine ⟨result, ?_, ?_⟩
        · rw [if_pos within]
          exact looped
        · intro other
          rw [bits other, next, marks other i p]
          by_cases here : other = i
          · subst here
            rw [if_neg (by omega), if_pos rfl, if_pos ⟨Nat.le_refl _, inside⟩]
          · have apart : other.toNat ≠ i.toNat := fun same => here (UInt32.toNat_inj.mp same)
            rw [if_neg here]
            congr 1
            rw [eq_iff_iff]
            omega
      · have outside : ¬i.toNat ≤ last.toNat := fun less => within (UInt32.le_iff_toNat_le.mpr less)
        refine ⟨p, if_neg within, ?_⟩
        intro other
        rw [if_neg (by omega)]

/-- No counter exceeds the highest address. -/
theorem loop_never (body : UInt32 → IppoolList → IppoolList) {last : UInt32}
    (top : last.toNat + 1 = 2 ^ 32) (fuel : Nat) (i : UInt32) (p : IppoolList) :
    addressLoop body last fuel i p = none := by
  induction fuel generalizing i p with
  | zero => rfl
  | succ fuel ih =>
      have bound := i.toNat_lt
      have within : i ≤ last := UInt32.le_iff_toNat_le.mpr (by omega)
      rw [addressLoop, if_pos within]
      exact ih (i + 1) (body i p)

end Loop

section Block

variable (uiIPAddress : UInt32) {uiNetMask : UInt32}

/-- The first `uiNetMask` bits of an address. -/
def network (uiNetMask address : UInt32) : UInt32 :=
  address >>> (32 - uiNetMask)

theorem host_toNat (known : 1 ≤ uiNetMask.toNat ∧ uiNetMask.toNat ≤ 32) :
    (32 - uiNetMask).toNat = 32 - uiNetMask.toNat := by
  rw [UInt32.toNat_sub_of_le]
  · rfl
  · rw [UInt32.le_iff_toNat_le]
    exact known.2

theorem network_toNat (known : 1 ≤ uiNetMask.toNat ∧ uiNetMask.toNat ≤ 32) (address : UInt32) :
    (network uiNetMask address).toNat = address.toNat / 2 ^ (32 - uiNetMask.toNat) := by
  have small : 32 - uiNetMask.toNat < 32 := by omega
  rw [network, UInt32.toNat_shiftRight, host_toNat known, Nat.mod_eq_of_lt small,
    Nat.shiftRight_eq_div_pow]

theorem first_toNat (known : 1 ≤ uiNetMask.toNat ∧ uiNetMask.toNat ≤ 32) :
    (tempIP1 uiIPAddress uiNetMask).toNat =
      2 ^ (32 - uiNetMask.toNat) * (network uiNetMask uiIPAddress).toNat := by
  have small : 32 - uiNetMask.toNat < 32 := by omega
  have whole := Nat.div_mul_le_self uiIPAddress.toNat (2 ^ (32 - uiNetMask.toNat))
  have bound := uiIPAddress.toNat_lt
  rw [tempIP1, ← network, UInt32.toNat_shiftLeft, host_toNat known, Nat.mod_eq_of_lt small,
    Nat.shiftLeft_eq, network_toNat known, Nat.mod_eq_of_lt (by omega), Nat.mul_comm]

/-- The host bits, all ones. -/
theorem complement_shifts (known : 1 ≤ uiNetMask.toNat ∧ uiNetMask.toNat < 32) :
    (((~~~tempIP1 uiIPAddress uiNetMask) <<< uiNetMask) >>> uiNetMask).toNat =
      2 ^ (32 - uiNetMask.toNat) - 1 := by
  have bound := uiIPAddress.toNat_lt
  have firstNat := first_toNat uiIPAddress ⟨known.1, known.2.le⟩
  have split : 2 ^ 32 = 2 ^ (32 - uiNetMask.toNat) * 2 ^ uiNetMask.toNat := by
    rw [← pow_add]
    congr 1
    omega
  rw [UInt32.toNat_shiftRight, UInt32.toNat_shiftLeft, Nat.mod_eq_of_lt known.2,
    Nat.shiftLeft_eq, Nat.shiftRight_eq_div_pow, UInt32.toNat_not, firstNat,
    network_toNat ⟨known.1, known.2.le⟩]
  have hosts : 0 < 2 ^ (32 - uiNetMask.toNat) := Nat.two_pow_pos _
  have nets : 0 < 2 ^ uiNetMask.toNat := Nat.two_pow_pos _
  have netLt : uiIPAddress.toNat / 2 ^ (32 - uiNetMask.toNat) < 2 ^ uiNetMask.toNat := by
    rw [Nat.div_lt_iff_lt_mul hosts, Nat.mul_comm, ← split]
    exact bound
  rw [split, Nat.mul_mod_mul_right, Nat.mul_div_cancel _ nets]
  generalize uiIPAddress.toNat / 2 ^ (32 - uiNetMask.toNat) = net at *
  generalize 2 ^ (32 - uiNetMask.toNat) = size at *
  have value : UInt32.size - 1 - size * net =
      size - 1 + size * (2 ^ uiNetMask.toNat - 1 - net) := by
    rw [show UInt32.size = size * 2 ^ uiNetMask.toNat from split, Nat.mul_sub, Nat.mul_sub]
    have more : size * (net + 1) ≤ size * 2 ^ uiNetMask.toNat := Nat.mul_le_mul_left _ netLt
    rw [Nat.mul_add] at more
    omega
  rw [value, Nat.add_mul_mod_self_left, Nat.mod_eq_of_lt (by omega)]

theorem last_toNat (known : 1 ≤ uiNetMask.toNat ∧ uiNetMask.toNat ≤ 32) :
    (tempIP2 uiIPAddress uiNetMask).toNat =
      2 ^ (32 - uiNetMask.toNat) * (network uiNetMask uiIPAddress).toNat +
        (2 ^ (32 - uiNetMask.toNat) - 1) := by
  have bound := uiIPAddress.toNat_lt
  by_cases host : uiNetMask = 32
  · subst host
    rw [tempIP2, if_neg (by decide), network_toNat known]
    simp
  · have low : uiNetMask.toNat < 32 := by
      have differ : uiNetMask.toNat ≠ (32 : UInt32).toNat :=
        fun same => host (UInt32.toNat_inj.mp same)
      have literal : (32 : UInt32).toNat = 32 := rfl
      omega
    have complement := complement_shifts uiIPAddress ⟨known.1, low⟩
    have fits : 2 ^ (32 - uiNetMask.toNat) - 1 < 2 ^ (32 - uiNetMask.toNat) :=
      Nat.sub_lt (Nat.two_pow_pos _) Nat.one_pos
    rw [tempIP2, if_pos host, UInt32.toNat_or, ← tempIP1, complement, first_toNat _ known,
      Nat.or_comm, Nat.two_pow_add_eq_or_of_lt fits]

/-- The addresses of the block are those between its bounds. -/
theorem in_block (known : 1 ≤ uiNetMask.toNat ∧ uiNetMask.toNat ≤ 32) (address : UInt32) :
    ((tempIP1 uiIPAddress uiNetMask).toNat ≤ address.toNat ∧
        address.toNat ≤ (tempIP2 uiIPAddress uiNetMask).toNat) ↔
      network uiNetMask address = network uiNetMask uiIPAddress := by
  have hosts : 0 < 2 ^ (32 - uiNetMask.toNat) := Nat.two_pow_pos _
  rw [← UInt32.toNat_inj, first_toNat _ known, last_toNat _ known, network_toNat known address]
  generalize (network uiNetMask uiIPAddress).toNat = net
  generalize 2 ^ (32 - uiNetMask.toNat) = size at *
  have divides := Nat.div_add_mod address.toNat size
  have remainder := Nat.mod_lt address.toNat hosts
  constructor
  · rintro ⟨low, high⟩
    exact Nat.div_eq_of_lt_le (by rw [Nat.mul_comm]; exact low)
      (by rw [Nat.succ_mul, Nat.mul_comm]; omega)
  · rintro rfl
    omega

/-- The block with the highest address is that of the network of all ones. -/
theorem block_top (known : 1 ≤ uiNetMask.toNat ∧ uiNetMask.toNat ≤ 32) :
    (tempIP2 uiIPAddress uiNetMask).toNat + 1 = 2 ^ 32 ↔
      network uiNetMask uiIPAddress = network uiNetMask 0xFFFFFFFF := by
  have bound := (tempIP2 uiIPAddress uiNetMask).toNat_lt
  have ordered : (tempIP1 uiIPAddress uiNetMask).toNat ≤ (tempIP2 uiIPAddress uiNetMask).toNat := by
    rw [first_toNat _ known, last_toNat _ known]
    exact Nat.le_add_right _ _
  have highest : (0xFFFFFFFF : UInt32).toNat = 2 ^ 32 - 1 := rfl
  rw [eq_comm (a := network uiNetMask uiIPAddress), ← in_block _ known, highest]
  omega

end Block

/-- The call returns 1, the addresses of the block have the status, and every other bit is as it
was. -/
def SetsBlock (uiIPAddress uiNetMask : UInt32) (ucStatus : UInt8) (pstIPPOOL : IppoolList) :
    Prop :=
  ∃ fuel result, dSetIPPOOLList fuel uiIPAddress uiNetMask ucStatus pstIPPOOL = some (1, result) ∧
    ∀ address, ippoolIsset address result =
      if network uiNetMask address = network uiNetMask uiIPAddress then decide (ucStatus = 1)
      else ippoolIsset address pstIPPOOL

section Outcome

variable (uiIPAddress uiNetMask : UInt32) (pstIPPOOL : IppoolList)

theorem status_cases {ucStatus : UInt8} (flag : ucStatus = 0 ∨ ucStatus = 1) :
    ∃ body, Marks body (decide (ucStatus = 1)) ∧
      ∀ fuel, dSetIPPOOLList fuel uiIPAddress uiNetMask ucStatus pstIPPOOL =
        (addressLoop body (tempIP2 uiIPAddress uiNetMask) fuel (tempIP1 uiIPAddress uiNetMask)
          pstIPPOOL).map fun result => (1, result) := by
  rcases flag with rfl | rfl
  · exact ⟨ippoolClr, marks_clr, fun fuel => (Option.map_eq_bind ..).symm⟩
  · exact ⟨ippoolSet, marks_set, fun fuel => (Option.map_eq_bind ..).symm⟩

end Outcome

/-- The block is set exactly where it does not reach the address 255.255.255.255; there the
loop has no end. -/
theorem set_list_iff (uiIPAddress uiNetMask : UInt32) (ucStatus : UInt8)
    (pstIPPOOL : IppoolList) (known : 1 ≤ uiNetMask.toNat ∧ uiNetMask.toNat ≤ 32)
    (flag : ucStatus = 0 ∨ ucStatus = 1) :
    SetsBlock uiIPAddress uiNetMask ucStatus pstIPPOOL ↔
      network uiNetMask uiIPAddress ≠ network uiNetMask 0xFFFFFFFF := by
  obtain ⟨body, marks, call⟩ := status_cases uiIPAddress uiNetMask pstIPPOOL flag
  rw [ne_eq, ← block_top _ known]
  constructor
  · rintro ⟨fuel, result, returned, -⟩ top
    rw [call, loop_never body top] at returned
    cases returned
  · intro short
    have bound := (tempIP2 uiIPAddress uiNetMask).toNat_lt
    have ordered : (tempIP1 uiIPAddress uiNetMask).toNat ≤
        (tempIP2 uiIPAddress uiNetMask).toNat + 1 := by
      rw [first_toNat _ known, last_toNat _ known]
      omega
    obtain ⟨result, looped, bits⟩ := loop_marks marks (by omega) pstIPPOOL ordered
      (Nat.lt_succ_self _)
    refine ⟨_, result, (call _).trans (congrArg _ looped), ?_⟩
    intro address
    rw [bits address]
    simp only [in_block _ known]

theorem set_list_slash_sixteen : SetsBlock 0xC0A80102 16 1 (fun _ => 0) := by
  rw [set_list_iff 0xC0A80102 16 1 (fun _ => 0) (by decide) (Or.inr rfl)]
  decide

/-- The block 240.0.0.0/4. -/
theorem reserved_block_endless : ¬SetsBlock 0xF0000000 4 1 (fun _ => 0) := by
  rintro ⟨fuel, result, returned, -⟩
  have endless := @loop_never ippoolSet (tempIP2 0xF0000000 4) (by decide) fuel
    (tempIP1 0xF0000000 4) (fun _ => 0)
  rw [dSetIPPOOLList, if_pos rfl, endless] at returned
  cases returned

end Upst.Ippool
