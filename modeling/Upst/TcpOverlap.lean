import Upst.Word
import Mathlib.Data.Nat.Basic

/-!
The two overlap calculators of `A_TCP`. Sequence numbers are compared by their offset from the
base of the direction, and the distance of two offsets is read as an `S32`.
-/

namespace Upst.TcpOverlap

open Word

set_option autoImplicit false

def MAX_SEQUENCE : UInt32 := 0xffffffff

def offsetSeq (validSeq nowSeq : UInt32) : UInt32 :=
  if validSeq ≤ nowSeq then nowSeq - validSeq else MAX_SEQUENCE + 1 + nowSeq - validSeq

theorem offset_seq_eq (validSeq nowSeq : UInt32) : offsetSeq validSeq nowSeq = nowSeq - validSeq := by
  have wraps : MAX_SEQUENCE + 1 = 0 := by decide
  simp [offsetSeq, wraps]

/-- Conversion of a `U32` to `S32`. -/
def toS32 (word : UInt32) : Int := s32 word.toNat

theorem to_s32_eq (word : UInt32) :
    toS32 word = if word.toNat < 2 ^ 31 then (word.toNat : Int) else (word.toNat : Int) - 2 ^ 32 := by
  have bound := word.toNat_lt
  rw [toS32, s32, Int.bmod_def]
  split <;> split <;> omega

theorem to_s32_small {word : UInt32} (small : word.toNat < 2 ^ 31) : toS32 word = word.toNat := by
  rw [to_s32_eq, if_pos small]

/-- `+=` of an `S32` on a `U32`. -/
def addS32 (word : UInt32) (amount : Int) : UInt32 := UInt32.ofInt (word.toNat + amount)

theorem add_s32_nat (word : UInt32) (amount : Int) :
    ((addS32 word amount).toNat : Int) = (word.toNat + amount) % 2 ^ 32 := by
  rw [addS32, UInt32.ofInt, UInt32.toNat_ofNat']
  omega

/-- The fields of `TCP_INFO` that the reassembly reads and changes. -/
structure TcpInfo where
  uiSeqNum : UInt32
  uiDataSize : UInt32
  uiSOffset : Int
  uiAckTime : Int
  uiAckMTime : Int
  deriving DecidableEq, Repr

/-- `DEF_NORETRANS_OVER` to `DEF_RETRANS_RSUBSET`. -/
inductive Retrans where
  | noRetransOver
  | noRetransUnder
  | retransOver
  | retransUnder
  | retransSubset
  | retransRsubset
  deriving DecidableEq, Repr

structure Calc where
  result : Retrans
  info : TcpInfo
  retransSize : Int
  deriving DecidableEq, Repr

def TcpInfo.cutFront (info : TcpInfo) (retransSize : Int) : TcpInfo :=
  { info with
    uiSOffset := info.uiSOffset + retransSize
    uiDataSize := addS32 info.uiDataSize (-retransSize)
    uiSeqNum := addS32 info.uiSeqNum retransSize }

def TcpInfo.cutBack (info : TcpInfo) (retransSize : Int) : TcpInfo :=
  { info with uiDataSize := addS32 info.uiDataSize (-retransSize) }

def calcRetrans (new : TcpInfo) (baseSEQ oldSEQ oldDataSize : UInt32) : Calc :=
  let newStartSEQ := offsetSeq baseSEQ new.uiSeqNum
  let newEndSEQ := offsetSeq baseSEQ new.uiSeqNum + new.uiDataSize - 1
  let oldStartSEQ := offsetSeq baseSEQ oldSEQ
  let oldEndSEQ := offsetSeq baseSEQ oldSEQ + oldDataSize - 1
  if oldEndSEQ < newStartSEQ then ⟨.noRetransOver, new, 0⟩
  else if oldStartSEQ > newEndSEQ then ⟨.noRetransUnder, new, 0⟩
  else
    let startGAP := toS32 (newStartSEQ - oldStartSEQ)
    let endGAP := toS32 (newEndSEQ - oldEndSEQ)
    if startGAP = 0 then
      if endGAP ≤ 0 then ⟨.retransSubset, new, toS32 new.uiDataSize⟩
      else
        let retransSize := toS32 oldDataSize
        ⟨.retransOver, new.cutFront retransSize, retransSize⟩
    else if startGAP < 0 then
      if endGAP ≤ 0 then
        let retransSize := toS32 (newEndSEQ - oldStartSEQ + 1)
        ⟨.retransUnder, new.cutBack retransSize, retransSize⟩
      else ⟨.retransRsubset, new, toS32 oldDataSize⟩
    else
      if endGAP ≤ 0 then ⟨.retransSubset, new, toS32 new.uiDataSize⟩
      else
        let retransSize := toS32 (oldEndSEQ - newStartSEQ + 1)
        ⟨.retransOver, new.cutFront retransSize, retransSize⟩

def calcBase (new : TcpInfo) (baseSEQ oldSEQ oldDataSize : UInt32) : Calc :=
  let newStartSEQ := offsetSeq baseSEQ new.uiSeqNum
  let newEndSEQ := offsetSeq baseSEQ new.uiSeqNum + new.uiDataSize - 1
  let oldStartSEQ := offsetSeq baseSEQ oldSEQ
  let oldEndSEQ := offsetSeq baseSEQ oldSEQ + oldDataSize - 1
  if oldEndSEQ < newStartSEQ then ⟨.noRetransOver, new, 0⟩
  else if oldStartSEQ > newEndSEQ then ⟨.retransUnder, new, toS32 new.uiDataSize⟩
  else
    let startGAP := toS32 (newStartSEQ - oldStartSEQ)
    let endGAP := toS32 (newEndSEQ - oldEndSEQ)
    if startGAP = 0 then
      if endGAP ≤ 0 then ⟨.retransSubset, new, toS32 new.uiDataSize⟩
      else
        let retransSize := toS32 oldDataSize
        ⟨.retransOver, new.cutFront retransSize, retransSize⟩
    else if startGAP < 0 then
      if endGAP ≤ 0 then ⟨.retransUnder, new, toS32 new.uiDataSize⟩
      else
        let retransSize := toS32 (oldEndSEQ - newStartSEQ + 1)
        ⟨.retransOver, new.cutFront retransSize, retransSize⟩
    else
      if endGAP ≤ 0 then ⟨.retransSubset, new, toS32 new.uiDataSize⟩
      else
        let retransSize := toS32 (oldEndSEQ - newStartSEQ + 1)
        ⟨.retransOver, new.cutFront retransSize, retransSize⟩

/-- The result leaves the segment to be linked, or to be compared with the segment before. -/
def Retrans.keeps : Retrans → Bool
  | .noRetransOver | .retransOver | .retransRsubset => true
  | .noRetransUnder | .retransUnder | .retransSubset => false

structure Trims (new : TcpInfo) (trimmed : Calc) : Prop where
  amount : 0 ≤ trimmed.retransSize ∧ trimmed.retransSize ≤ new.uiDataSize.toNat
  inside : ∃ cut : Nat, trimmed.info.uiSOffset = new.uiSOffset + cut ∧
    trimmed.info.uiSeqNum = addS32 new.uiSeqNum cut ∧
    (trimmed.result.keeps = true →
      0 < trimmed.info.uiDataSize.toNat ∧ cut + trimmed.info.uiDataSize.toNat ≤ new.uiDataSize.toNat)

theorem last_cases (start size : UInt32) :
    (start.toNat + size.toNat = 0 ∧ (start + size - 1).toNat = 4294967295) ∨
    (0 < start.toNat + size.toNat ∧ start.toNat + size.toNat ≤ 4294967296 ∧
      (start + size - 1).toNat + 1 = start.toNat + size.toNat) ∨
    (4294967296 < start.toNat + size.toNat ∧
      (start + size - 1).toNat + 1 + 4294967296 = start.toNat + size.toNat) := by
  have startBound := start.toNat_lt
  have sizeBound := size.toNat_lt
  have one : (1 : UInt32).toNat = 1 := rfl
  rw [UInt32.toNat_sub, UInt32.toNat_add, one]
  omega

theorem gap_cases (left right : UInt32) :
    -2147483648 ≤ toS32 (left - right) ∧ toS32 (left - right) < 2147483648 ∧
    (toS32 (left - right) = (left.toNat : Int) - right.toNat ∨
      toS32 (left - right) = (left.toNat : Int) - right.toNat + 4294967296 ∨
      toS32 (left - right) = (left.toNat : Int) - right.toNat - 4294967296) := by
  have leftBound := left.toNat_lt
  have rightBound := right.toNat_lt
  rw [to_s32_eq, UInt32.toNat_sub]
  split <;> omega

theorem overlap_cases (last first : UInt32) :
    -2147483648 ≤ toS32 (last - first + 1) ∧ toS32 (last - first + 1) < 2147483648 ∧
    (toS32 (last - first + 1) = (last.toNat : Int) - first.toNat + 1 ∨
      toS32 (last - first + 1) = (last.toNat : Int) - first.toNat + 1 + 4294967296 ∨
      toS32 (last - first + 1) = (last.toNat : Int) - first.toNat + 1 - 4294967296) := by
  have lastBound := last.toNat_lt
  have firstBound := first.toNat_lt
  have one : (1 : UInt32).toNat = 1 := rfl
  rw [to_s32_eq, UInt32.toNat_add, UInt32.toNat_sub, one]
  split <;> omega

theorem add_s32_zero (word : UInt32) : addS32 word 0 = word := by
  have value := add_s32_nat word 0
  have bound := word.toNat_lt
  rw [← UInt32.toNat_inj]
  omega

theorem trims_same (new : TcpInfo) (result : Retrans) (filled : 0 < new.uiDataSize.toNat)
    (retransSize : Int) :
    Trims new ⟨result, new, retransSize⟩ ↔
      0 ≤ retransSize ∧ retransSize ≤ new.uiDataSize.toNat := by
  constructor
  · intro trims
    exact trims.amount
  · intro amount
    refine ⟨amount, 0, by simp, (add_s32_zero _).symm, fun _ => ⟨filled, ?_⟩⟩
    rw [Nat.zero_add]

theorem trims_front (new : TcpInfo) (retransSize : Int) :
    Trims new ⟨.retransOver, new.cutFront retransSize, retransSize⟩ ↔
      0 ≤ retransSize ∧ retransSize < new.uiDataSize.toNat := by
  have size := add_s32_nat new.uiDataSize (-retransSize)
  have bound := new.uiDataSize.toNat_lt
  constructor
  · intro trims
    obtain ⟨low, high⟩ := trims.amount
    obtain ⟨cut, offset, _, kept⟩ := trims.inside
    obtain ⟨rest, _⟩ := kept rfl
    simp only [TcpInfo.cutFront] at rest low high
    omega
  · intro ⟨low, high⟩
    obtain ⟨cut, rfl⟩ := Int.eq_ofNat_of_zero_le low
    refine ⟨⟨low, Int.le_of_lt high⟩, cut, rfl, rfl, fun _ => ?_⟩
    simp only [TcpInfo.cutFront]
    omega

theorem trims_back (new : TcpInfo) (retransSize : Int) :
    Trims new ⟨.retransUnder, new.cutBack retransSize, retransSize⟩ ↔
      0 ≤ retransSize ∧ retransSize ≤ new.uiDataSize.toNat := by
  constructor
  · intro trims
    exact trims.amount
  · intro amount
    exact ⟨amount, 0, by simp [TcpInfo.cutBack], (add_s32_zero _).symm, nofun⟩

/-- Nothing was sent yet, and the segment starts above the base. -/
def Opening (new : TcpInfo) (baseSEQ oldSEQ oldDataSize : UInt32) : Prop :=
  oldDataSize = 0 ∧ oldSEQ = baseSEQ ∧ new.uiSeqNum ≠ baseSEQ

theorem offset_seq_zero (validSeq nowSeq : UInt32) :
    (offsetSeq validSeq nowSeq).toNat = 0 ↔ nowSeq = validSeq := by
  have left := validSeq.toNat_lt
  have right := nowSeq.toNat_lt
  rw [offset_seq_eq, UInt32.toNat_sub, ← UInt32.toNat_inj]
  omega

theorem opening_iff (new : TcpInfo) (baseSEQ oldSEQ oldDataSize : UInt32) :
    Opening new baseSEQ oldSEQ oldDataSize ↔ oldDataSize.toNat = 0 ∧
      (offsetSeq baseSEQ oldSEQ).toNat = 0 ∧ (offsetSeq baseSEQ new.uiSeqNum).toNat ≠ 0 := by
  rw [Opening, Ne, ← offset_seq_zero baseSEQ oldSEQ, ← offset_seq_zero baseSEQ new.uiSeqNum,
    ← UInt32.toNat_inj]
  rfl

/-- Where the old segment is not the empty one at the base, overlapping segments are compared
by where they start and where they end. -/
theorem gaps_exact {start old size oldSize : UInt32} (short : size.toNat < 2 ^ 31)
    (filled : 0 < size.toNat) (oldShort : oldSize.toNat < 2 ^ 31)
    (live : 0 < old.toNat + oldSize.toNat) (reached : start.toNat ≤ (old + oldSize - 1).toNat)
    (reaches : old.toNat ≤ (start + size - 1).toNat) :
    toS32 (start - old) = (start.toNat : Int) - old.toNat ∧
    toS32 (start + size - 1 - (old + oldSize - 1)) =
      ((start.toNat : Int) + size.toNat) - (old.toNat + oldSize.toNat) := by
  have newLast := last_cases start size
  have oldLast := last_cases old oldSize
  have startGap := gap_cases start old
  have endGap := gap_cases (start + size - 1) (old + oldSize - 1)
  constructor
  · clear endGap
    rcases oldLast with empty | plain | wrapped
    all_goals omega
  · clear startGap
    rcases oldLast with empty | plain | wrapped
    all_goals omega

theorem last_lt {start size : UInt32} (live : 0 < start.toNat + size.toNat) :
    (start + size - 1).toNat < start.toNat + size.toNat := by
  have cases := last_cases start size
  omega

theorem overlap_exact {start old size oldSize : UInt32} (short : size.toNat < 2 ^ 31)
    (live : 0 < old.toNat + oldSize.toNat) (reached : start.toNat ≤ (old + oldSize - 1).toNat)
    (longer : old.toNat + oldSize.toNat < start.toNat + size.toNat) :
    toS32 (old + oldSize - 1 - start + 1) = ((old.toNat : Int) + oldSize.toNat) - start.toNat := by
  have oldLast := last_cases old oldSize
  have overlap := overlap_cases (old + oldSize - 1) start
  rcases oldLast with empty | plain | wrapped
  all_goals omega

theorem covered_exact {start old size : UInt32} (short : size.toNat < 2 ^ 31)
    (filled : 0 < size.toNat)
    (before : start.toNat < old.toNat) (reaches : old.toNat ≤ (start + size - 1).toNat) :
    toS32 (start + size - 1 - old + 1) = ((start.toNat : Int) + size.toNat) - old.toNat := by
  have newLast := last_cases start size
  have covered := overlap_cases (start + size - 1) old
  omega

section Live

variable {new : TcpInfo} {baseSEQ oldSEQ oldDataSize : UInt32}

theorem calc_base_trims (filled : 0 < new.uiDataSize.toNat) (short : new.uiDataSize.toNat < 2 ^ 31)
    (oldShort : oldDataSize.toNat < 2 ^ 31)
    (live : 0 < (offsetSeq baseSEQ oldSEQ).toNat + oldDataSize.toNat) :
    Trims new (calcBase new baseSEQ oldSEQ oldDataSize) := by
  have size := to_s32_small short
  have oldSize := to_s32_small oldShort
  unfold calcBase
  dsimp only
  by_cases behind : offsetSeq baseSEQ oldSEQ + oldDataSize - 1 < offsetSeq baseSEQ new.uiSeqNum
  · rw [if_pos behind, trims_same new _ filled]
    omega
  · rw [if_neg behind]
    by_cases under : offsetSeq baseSEQ oldSEQ > offsetSeq baseSEQ new.uiSeqNum + new.uiDataSize - 1
    · rw [if_pos under, trims_same new _ filled]
      omega
    · rw [if_neg under]
      rw [UInt32.not_lt, UInt32.le_iff_toNat_le] at behind
      rw [gt_iff_lt, UInt32.not_lt, UInt32.le_iff_toNat_le] at under
      obtain ⟨startGap, endGap⟩ := gaps_exact short filled oldShort live behind under
      have overlap := overlap_exact short live behind
      have past := Nat.lt_of_le_of_lt behind (last_lt live)
      rw [startGap, endGap]
      split_ifs with same within before within within
      · rw [trims_same new _ filled]
        omega
      · rw [trims_front]
        omega
      · rw [trims_same new _ filled]
        omega
      · rw [trims_front, overlap (by omega)]
        omega
      · rw [trims_same new _ filled]
        omega
      · rw [trims_front, overlap (by omega)]
        omega

theorem calc_retrans_trims (filled : 0 < new.uiDataSize.toNat) (short : new.uiDataSize.toNat < 2 ^ 31)
    (oldShort : oldDataSize.toNat < 2 ^ 31)
    (live : 0 < (offsetSeq baseSEQ oldSEQ).toNat + oldDataSize.toNat) :
    Trims new (calcRetrans new baseSEQ oldSEQ oldDataSize) := by
  have size := to_s32_small short
  have oldSize := to_s32_small oldShort
  unfold calcRetrans
  dsimp only
  by_cases behind : offsetSeq baseSEQ oldSEQ + oldDataSize - 1 < offsetSeq baseSEQ new.uiSeqNum
  · rw [if_pos behind, trims_same new _ filled]
    omega
  · rw [if_neg behind]
    by_cases under : offsetSeq baseSEQ oldSEQ > offsetSeq baseSEQ new.uiSeqNum + new.uiDataSize - 1
    · rw [if_pos under, trims_same new _ filled]
      omega
    · rw [if_neg under]
      rw [UInt32.not_lt, UInt32.le_iff_toNat_le] at behind
      rw [gt_iff_lt, UInt32.not_lt, UInt32.le_iff_toNat_le] at under
      obtain ⟨startGap, endGap⟩ := gaps_exact short filled oldShort live behind under
      have overlap := overlap_exact short live behind
      have past := Nat.lt_of_le_of_lt behind (last_lt live)
      rw [startGap, endGap]
      split_ifs with same within before within within
      · rw [trims_same new _ filled]
        omega
      · rw [trims_front]
        omega
      · have stop := Nat.lt_of_le_of_lt under (last_lt (Nat.add_pos_right _ filled))
        rw [trims_back, covered_exact short filled (by omega) under]
        omega
      · rw [trims_same new _ filled]
        omega
      · rw [trims_same new _ filled]
        omega
      · rw [trims_front, overlap (by omega)]
        omega

end Live

section Empty

variable {new : TcpInfo} {baseSEQ oldSEQ oldDataSize : UInt32}

/-- The end of the empty segment at the base is the greatest offset. -/
theorem empty_last (nothing : (offsetSeq baseSEQ oldSEQ).toNat + oldDataSize.toNat = 0) :
    (offsetSeq baseSEQ oldSEQ + oldDataSize - 1).toNat = 4294967295 := by
  have cases := last_cases (offsetSeq baseSEQ oldSEQ) oldDataSize
  omega

theorem calc_base_empty (filled : 0 < new.uiDataSize.toNat) (short : new.uiDataSize.toNat < 2 ^ 31)
    (nothing : (offsetSeq baseSEQ oldSEQ).toNat + oldDataSize.toNat = 0) :
    Trims new (calcBase new baseSEQ oldSEQ oldDataSize) ↔
      (offsetSeq baseSEQ new.uiSeqNum).toNat = 0 ∨
      2 ^ 31 ≤ (offsetSeq baseSEQ new.uiSeqNum).toNat + new.uiDataSize.toNat := by
  have size := to_s32_small short
  have oldSize : toS32 oldDataSize = 0 := by
    rw [to_s32_eq]
    omega
  have oldLast := empty_last nothing
  have startBound := (offsetSeq baseSEQ new.uiSeqNum).toNat_lt
  have newLast := last_cases (offsetSeq baseSEQ new.uiSeqNum) new.uiDataSize
  unfold calcBase
  dsimp only
  generalize offsetSeq baseSEQ oldSEQ + oldDataSize - 1 = oldEnd at *
  generalize offsetSeq baseSEQ new.uiSeqNum + new.uiDataSize - 1 = newEnd at *
  generalize offsetSeq baseSEQ new.uiSeqNum = start at *
  generalize offsetSeq baseSEQ oldSEQ = old at *
  have startGap := gap_cases start old
  have endGap := gap_cases newEnd oldEnd
  rw [if_neg (by rw [UInt32.lt_iff_toNat_lt]; omega),
    if_neg (by rw [gt_iff_lt, UInt32.lt_iff_toNat_lt]; omega)]
  split_ifs with same within before within within
  · rw [trims_same new _ filled]
    omega
  · rw [trims_front]
    omega
  · rw [trims_same new _ filled]
    omega
  · have overlap := overlap_cases oldEnd start
    rw [trims_front]
    omega
  · rw [trims_same new _ filled]
    omega
  · have overlap := overlap_cases oldEnd start
    rw [trims_front]
    omega

theorem calc_retrans_empty (filled : 0 < new.uiDataSize.toNat) (short : new.uiDataSize.toNat < 2 ^ 31)
    (nothing : (offsetSeq baseSEQ oldSEQ).toNat + oldDataSize.toNat = 0) :
    Trims new (calcRetrans new baseSEQ oldSEQ oldDataSize) ↔
      (offsetSeq baseSEQ new.uiSeqNum).toNat = 0 ∨
      2 ^ 31 ≤ (offsetSeq baseSEQ new.uiSeqNum).toNat + new.uiDataSize.toNat ∧
        ((offsetSeq baseSEQ new.uiSeqNum).toNat < 2 ^ 31 ∨
          2 ^ 32 ≤ (offsetSeq baseSEQ new.uiSeqNum).toNat + new.uiDataSize.toNat) := by
  have size := to_s32_small short
  have oldSize : toS32 oldDataSize = 0 := by
    rw [to_s32_eq]
    omega
  have oldLast := empty_last nothing
  have startBound := (offsetSeq baseSEQ new.uiSeqNum).toNat_lt
  have newLast := last_cases (offsetSeq baseSEQ new.uiSeqNum) new.uiDataSize
  unfold calcRetrans
  dsimp only
  generalize offsetSeq baseSEQ oldSEQ + oldDataSize - 1 = oldEnd at *
  generalize offsetSeq baseSEQ new.uiSeqNum + new.uiDataSize - 1 = newEnd at *
  generalize offsetSeq baseSEQ new.uiSeqNum = start at *
  generalize offsetSeq baseSEQ oldSEQ = old at *
  have startGap := gap_cases start old
  have endGap := gap_cases newEnd oldEnd
  rw [if_neg (by rw [UInt32.lt_iff_toNat_lt]; omega),
    if_neg (by rw [gt_iff_lt, UInt32.lt_iff_toNat_lt]; omega)]
  split_ifs with same within before within within
  · rw [trims_same new _ filled]
    omega
  · rw [trims_front]
    omega
  · have covered := overlap_cases newEnd old
    rw [trims_back]
    omega
  · rw [trims_same new _ filled]
    omega
  · rw [trims_same new _ filled]
    omega
  · have overlap := overlap_cases oldEnd start
    rw [trims_front]
    omega

end Empty

section Window

/-- The offset of the first byte of a segment from the base. -/
def TcpInfo.start (baseSEQ : UInt32) (info : TcpInfo) : Nat := (offsetSeq baseSEQ info.uiSeqNum).toNat

/-- The offset after the last byte, not reduced. -/
def TcpInfo.stop (baseSEQ : UInt32) (info : TcpInfo) : Nat :=
  info.start baseSEQ + info.uiDataSize.toNat

/-- The segment has bytes, and does not run past the base. -/
structure TcpInfo.Fits (baseSEQ : UInt32) (info : TcpInfo) : Prop where
  filled : 0 < info.uiDataSize.toNat
  short : info.uiDataSize.toNat < 2 ^ 31
  inside : info.stop baseSEQ ≤ 2 ^ 32

instance (baseSEQ : UInt32) (info : TcpInfo) : Decidable (info.Fits baseSEQ) :=
  decidable_of_iff (0 < info.uiDataSize.toNat ∧ info.uiDataSize.toNat < 2 ^ 31 ∧
      info.stop baseSEQ ≤ 2 ^ 32)
    ⟨fun ⟨filled, short, inside⟩ => ⟨filled, short, inside⟩,
      fun ⟨filled, short, inside⟩ => ⟨filled, short, inside⟩⟩

variable {baseSEQ : UInt32} {new old : TcpInfo}

theorem TcpInfo.Fits.last (fits : new.Fits baseSEQ) :
    (offsetSeq baseSEQ new.uiSeqNum + new.uiDataSize - 1).toNat + 1 = new.stop baseSEQ := by
  have cases := last_cases (offsetSeq baseSEQ new.uiSeqNum) new.uiDataSize
  have filled := fits.filled
  have inside := fits.inside
  rw [TcpInfo.stop, TcpInfo.start] at *
  omega

theorem start_eq (info : TcpInfo) :
    info.start baseSEQ = (2 ^ 32 - baseSEQ.toNat + info.uiSeqNum.toNat) % 2 ^ 32 := by
  rw [TcpInfo.start, offset_seq_eq, UInt32.toNat_sub]

theorem start_cut_front (retransSize : Int) (low : 0 ≤ new.start baseSEQ + retransSize)
    (high : new.start baseSEQ + retransSize < 2 ^ 32) :
    ((new.cutFront retransSize).start baseSEQ : Int) = new.start baseSEQ + retransSize := by
  have moved := add_s32_nat new.uiSeqNum retransSize
  have bound := baseSEQ.toNat_lt
  rw [start_eq] at low high
  rw [start_eq, start_eq]
  simp only [TcpInfo.cutFront]
  omega

theorem size_cut_front (retransSize : Int) (low : 0 ≤ new.uiDataSize.toNat - retransSize)
    (high : new.uiDataSize.toNat - retransSize < 2 ^ 32) :
    ((new.cutFront retransSize).uiDataSize.toNat : Int) = new.uiDataSize.toNat - retransSize := by
  have shrunk := add_s32_nat new.uiDataSize (-retransSize)
  simp only [TcpInfo.cutFront]
  omega

theorem fits_cut_front (fits : new.Fits baseSEQ) (retransSize : Int)
    (low : 0 ≤ new.start baseSEQ + retransSize) (high : retransSize < new.uiDataSize.toNat)
    (short : new.uiDataSize.toNat - retransSize < 2 ^ 31) :
    (new.cutFront retransSize).Fits baseSEQ ∧
    ((new.cutFront retransSize).start baseSEQ : Int) = new.start baseSEQ + retransSize ∧
    (new.cutFront retransSize).stop baseSEQ = new.stop baseSEQ := by
  have inside := fits.inside
  have stop : new.stop baseSEQ = new.start baseSEQ + new.uiDataSize.toNat := rfl
  have start := @start_cut_front baseSEQ new retransSize low (by omega)
  have size := @size_cut_front new retransSize (by omega) (by omega)
  have same : (new.cutFront retransSize).stop baseSEQ = new.stop baseSEQ := by
    rw [TcpInfo.stop]
    omega
  refine ⟨⟨by omega, by omega, by omega⟩, start, same⟩

theorem start_cut_back (retransSize : Int) :
    (new.cutBack retransSize).start baseSEQ = new.start baseSEQ := rfl

theorem fits_cut_back (fits : new.Fits baseSEQ) (retransSize : Int) (low : 0 ≤ retransSize)
    (high : retransSize < new.uiDataSize.toNat) :
    (new.cutBack retransSize).Fits baseSEQ ∧
    ((new.cutBack retransSize).stop baseSEQ : Int) = new.stop baseSEQ - retransSize := by
  have inside := fits.inside
  have short := fits.short
  have stop : new.stop baseSEQ = new.start baseSEQ + new.uiDataSize.toNat := rfl
  have shrunk := add_s32_nat new.uiDataSize (-retransSize)
  have size : ((new.cutBack retransSize).uiDataSize.toNat : Int) =
      new.uiDataSize.toNat - retransSize := by
    simp only [TcpInfo.cutBack]
    omega
  have moved : ((new.cutBack retransSize).stop baseSEQ : Int) = new.stop baseSEQ - retransSize := by
    rw [TcpInfo.stop, start_cut_back]
    omega
  exact ⟨⟨by omega, by omega, by omega⟩, moved⟩

/-- What `calcRetrans` returns, by the places of the two segments. -/
inductive Compared (baseSEQ : UInt32) (new old : TcpInfo) : Calc → Prop where
  | after (apart : old.stop baseSEQ ≤ new.start baseSEQ) :
      Compared baseSEQ new old ⟨.noRetransOver, new, 0⟩
  | before (apart : new.stop baseSEQ ≤ old.start baseSEQ) :
      Compared baseSEQ new old ⟨.noRetransUnder, new, 0⟩
  | within (left : old.start baseSEQ ≤ new.start baseSEQ) (right : new.stop baseSEQ ≤ old.stop baseSEQ) :
      Compared baseSEQ new old ⟨.retransSubset, new, new.uiDataSize.toNat⟩
  | beyond (left : old.start baseSEQ ≤ new.start baseSEQ) (overlap : new.start baseSEQ < old.stop baseSEQ)
      (right : old.stop baseSEQ < new.stop baseSEQ) :
      Compared baseSEQ new old
        ⟨.retransOver, new.cutFront (old.stop baseSEQ - new.start baseSEQ),
          old.stop baseSEQ - new.start baseSEQ⟩
  | under (left : new.start baseSEQ < old.start baseSEQ) (overlap : old.start baseSEQ < new.stop baseSEQ)
      (right : new.stop baseSEQ ≤ old.stop baseSEQ) :
      Compared baseSEQ new old
        ⟨.retransUnder, new.cutBack (new.stop baseSEQ - old.start baseSEQ),
          new.stop baseSEQ - old.start baseSEQ⟩
  | around (left : new.start baseSEQ < old.start baseSEQ) (right : old.stop baseSEQ < new.stop baseSEQ) :
      Compared baseSEQ new old ⟨.retransRsubset, new, old.uiDataSize.toNat⟩

theorem calc_retrans_compared (fits : new.Fits baseSEQ) (oldFits : old.Fits baseSEQ) :
    Compared baseSEQ new old (calcRetrans new baseSEQ old.uiSeqNum old.uiDataSize) := by
  have newLast := fits.last
  have oldLast := oldFits.last
  have size := to_s32_small fits.short
  have oldSize := to_s32_small oldFits.short
  have filled := oldFits.filled
  have newStop : new.stop baseSEQ = new.start baseSEQ + new.uiDataSize.toNat := rfl
  have oldStop : old.stop baseSEQ = old.start baseSEQ + old.uiDataSize.toNat := rfl
  have newStart : (offsetSeq baseSEQ new.uiSeqNum).toNat = new.start baseSEQ := rfl
  have oldStart : (offsetSeq baseSEQ old.uiSeqNum).toNat = old.start baseSEQ := rfl
  unfold calcRetrans
  dsimp only
  by_cases behind : offsetSeq baseSEQ old.uiSeqNum + old.uiDataSize - 1 < offsetSeq baseSEQ new.uiSeqNum
  · rw [if_pos behind]
    rw [UInt32.lt_iff_toNat_lt] at behind
    exact .after (by omega)
  · rw [if_neg behind]
    rw [UInt32.not_lt, UInt32.le_iff_toNat_le] at behind
    by_cases under : offsetSeq baseSEQ old.uiSeqNum > offsetSeq baseSEQ new.uiSeqNum + new.uiDataSize - 1
    · rw [if_pos under]
      rw [gt_iff_lt, UInt32.lt_iff_toNat_lt] at under
      exact .before (by omega)
    · rw [if_neg under]
      rw [gt_iff_lt, UInt32.not_lt, UInt32.le_iff_toNat_le] at under
      obtain ⟨startGap, endGap⟩ :=
        gaps_exact fits.short fits.filled oldFits.short (by omega) behind under
      rw [startGap, endGap, size, oldSize]
      clear startGap endGap
      split_ifs with same within before within within
      · exact .within (by omega) (by omega)
      · have amount : (old.uiDataSize.toNat : Int) = old.stop baseSEQ - new.start baseSEQ := by
          omega
        rw [amount]
        exact .beyond (by omega) (by omega) (by omega)
      · rw [covered_exact fits.short fits.filled (by omega) under, newStart, oldStart]
        have amount : (new.start baseSEQ : Int) + new.uiDataSize.toNat = new.stop baseSEQ := by
          omega
        rw [amount]
        exact .under (by omega) (by omega) (by omega)
      · exact .around (by omega) (by omega)
      · exact .within (by omega) (by omega)
      · rw [overlap_exact fits.short (by omega) behind (by omega), newStart, oldStart]
        have amount : (old.start baseSEQ : Int) + old.uiDataSize.toNat = old.stop baseSEQ := by
          omega
        rw [amount]
        exact .beyond (by omega) (by omega) (by omega)

/-- The segment is dropped. -/
def Retrans.dropped (result : Retrans) : Prop := result = .retransUnder ∨ result = .retransSubset

/-- What `calcBase` returns, where all before `sent` was sent. -/
inductive Based (baseSEQ : UInt32) (sent : Nat) (new : TcpInfo) : Calc → Prop where
  | fresh (apart : sent ≤ new.start baseSEQ) : Based baseSEQ sent new ⟨.noRetransOver, new, 0⟩
  | known (result : Retrans) (dropped : result.dropped) (covered : new.stop baseSEQ ≤ sent) :
      Based baseSEQ sent new ⟨result, new, new.uiDataSize.toNat⟩
  | part (left : new.start baseSEQ < sent) (right : sent < new.stop baseSEQ) :
      Based baseSEQ sent new
        ⟨.retransOver, new.cutFront (sent - new.start baseSEQ), sent - new.start baseSEQ⟩

theorem calc_base_based {lastSeq lastSize : UInt32} (fits : new.Fits baseSEQ)
    (lastShort : lastSize.toNat < 2 ^ 31) (live : 0 < (offsetSeq baseSEQ lastSeq).toNat + lastSize.toNat)
    (lastInside : (offsetSeq baseSEQ lastSeq).toNat + lastSize.toNat ≤ 2 ^ 32) :
    Based baseSEQ ((offsetSeq baseSEQ lastSeq).toNat + lastSize.toNat) new
      (calcBase new baseSEQ lastSeq lastSize) := by
  have newLast := fits.last
  have lastLast := last_cases (offsetSeq baseSEQ lastSeq) lastSize
  have size := to_s32_small fits.short
  have oldSize := to_s32_small lastShort
  have filled := fits.filled
  have newStop : new.stop baseSEQ = new.start baseSEQ + new.uiDataSize.toNat := rfl
  have newStart : (offsetSeq baseSEQ new.uiSeqNum).toNat = new.start baseSEQ := rfl
  unfold calcBase
  dsimp only
  by_cases behind : offsetSeq baseSEQ lastSeq + lastSize - 1 < offsetSeq baseSEQ new.uiSeqNum
  · rw [if_pos behind]
    rw [UInt32.lt_iff_toNat_lt] at behind
    exact .fresh (by omega)
  · rw [if_neg behind]
    rw [UInt32.not_lt, UInt32.le_iff_toNat_le] at behind
    by_cases under : offsetSeq baseSEQ lastSeq > offsetSeq baseSEQ new.uiSeqNum + new.uiDataSize - 1
    · rw [if_pos under, size]
      rw [gt_iff_lt, UInt32.lt_iff_toNat_lt] at under
      exact .known .retransUnder (Or.inl rfl) (by omega)
    · rw [if_neg under]
      rw [gt_iff_lt, UInt32.not_lt, UInt32.le_iff_toNat_le] at under
      obtain ⟨startGap, endGap⟩ := gaps_exact fits.short fits.filled lastShort live behind under
      rw [startGap, endGap, size, oldSize]
      clear startGap endGap
      have sum : ((offsetSeq baseSEQ lastSeq).toNat : Int) + lastSize.toNat =
          ((offsetSeq baseSEQ lastSeq).toNat + lastSize.toNat : Nat) := by
        omega
      split_ifs with same within before within within
      · exact .known .retransSubset (Or.inr rfl) (by omega)
      · have amount : (lastSize.toNat : Int) =
            ((offsetSeq baseSEQ lastSeq).toNat + lastSize.toNat : Nat) - new.start baseSEQ := by
          omega
        rw [amount]
        exact .part (by omega) (by omega)
      · exact .known .retransUnder (Or.inl rfl) (by omega)
      · rw [overlap_exact fits.short live behind (by omega), newStart, sum]
        exact .part (by omega) (by omega)
      · exact .known .retransSubset (Or.inr rfl) (by omega)
      · rw [overlap_exact fits.short live behind (by omega), newStart, sum]
        exact .part (by omega) (by omega)

/-- What `calcBase` returns, where nothing was sent. -/
inductive Opened (baseSEQ : UInt32) (new : TcpInfo) : Calc → Prop where
  | first (atBase : new.start baseSEQ = 0) : Opened baseSEQ new ⟨.retransOver, new.cutFront 0, 0⟩
  | extended (above : 0 < new.start baseSEQ) (near : new.stop baseSEQ < 2 ^ 31) :
      Opened baseSEQ new
        ⟨.retransOver, new.cutFront (-new.start baseSEQ), -new.start baseSEQ⟩
  | lost (result : Retrans) (dropped : result.dropped) (far : 2 ^ 31 ≤ new.stop baseSEQ) :
      Opened baseSEQ new ⟨result, new, new.uiDataSize.toNat⟩

theorem calc_base_opened {lastSeq lastSize : UInt32} (fits : new.Fits baseSEQ)
    (nothing : (offsetSeq baseSEQ lastSeq).toNat + lastSize.toNat = 0) :
    Opened baseSEQ new (calcBase new baseSEQ lastSeq lastSize) := by
  have size := to_s32_small fits.short
  have oldSize : toS32 lastSize = 0 := by
    rw [to_s32_eq]
    omega
  have oldLast := empty_last nothing
  have newLast := fits.last
  have filled := fits.filled
  have short := fits.short
  have inside := fits.inside
  have newStop : new.stop baseSEQ = new.start baseSEQ + new.uiDataSize.toNat := rfl
  have newStart : (offsetSeq baseSEQ new.uiSeqNum).toNat = new.start baseSEQ := rfl
  have startGap := gap_cases (offsetSeq baseSEQ new.uiSeqNum) (offsetSeq baseSEQ lastSeq)
  have endGap := gap_cases (offsetSeq baseSEQ new.uiSeqNum + new.uiDataSize - 1)
    (offsetSeq baseSEQ lastSeq + lastSize - 1)
  have overlap := overlap_cases (offsetSeq baseSEQ lastSeq + lastSize - 1)
    (offsetSeq baseSEQ new.uiSeqNum)
  unfold calcBase
  dsimp only
  rw [if_neg (by rw [UInt32.lt_iff_toNat_lt]; omega),
    if_neg (by rw [gt_iff_lt, UInt32.lt_iff_toNat_lt]; omega), size, oldSize]
  generalize toS32 (offsetSeq baseSEQ new.uiSeqNum - offsetSeq baseSEQ lastSeq) = startGAP at *
  generalize toS32 (offsetSeq baseSEQ new.uiSeqNum + new.uiDataSize - 1 -
    (offsetSeq baseSEQ lastSeq + lastSize - 1)) = endGAP at *
  generalize toS32 (offsetSeq baseSEQ lastSeq + lastSize - 1 -
    offsetSeq baseSEQ new.uiSeqNum + 1) = retransSize at *
  split_ifs with same within before within within
  · omega
  · exact .first (by omega)
  · exact .lost .retransUnder (Or.inl rfl) (by omega)
  · omega
  · exact .lost .retransSubset (Or.inr rfl) (by omega)
  · have amount : retransSize = -new.start baseSEQ := by
      omega
    rw [amount]
    exact .extended (by omega) (by omega)

end Window

/-- The calculators only trim, except where the old segment is empty and at the base: its end is
then taken for the greatest offset, and a segment above the base is extended down to the base. -/
theorem overlap_trims_iff (new : TcpInfo) (baseSEQ oldSEQ oldDataSize : UInt32)
    (filled : 0 < new.uiDataSize.toNat) (short : new.uiDataSize.toNat < 2 ^ 31)
    (oldShort : oldDataSize.toNat < 2 ^ 31) :
    (Trims new (calcBase new baseSEQ oldSEQ oldDataSize) ↔
      ¬ (Opening new baseSEQ oldSEQ oldDataSize ∧
        (offsetSeq baseSEQ new.uiSeqNum).toNat + new.uiDataSize.toNat < 2 ^ 31)) ∧
    (Trims new (calcRetrans new baseSEQ oldSEQ oldDataSize) ↔
      ¬ (Opening new baseSEQ oldSEQ oldDataSize ∧
        ((offsetSeq baseSEQ new.uiSeqNum).toNat + new.uiDataSize.toNat < 2 ^ 31 ∨
          2 ^ 31 ≤ (offsetSeq baseSEQ new.uiSeqNum).toNat ∧
          (offsetSeq baseSEQ new.uiSeqNum).toNat + new.uiDataSize.toNat < 2 ^ 32))) := by
  rw [opening_iff]
  by_cases live : 0 < (offsetSeq baseSEQ oldSEQ).toNat + oldDataSize.toNat
  · constructor
    · apply iff_of_true (calc_base_trims filled short oldShort live)
      omega
    · apply iff_of_true (calc_retrans_trims filled short oldShort live)
      omega
  · constructor
    · rw [calc_base_empty filled short (by omega)]
      omega
    · rw [calc_retrans_empty filled short (by omega)]
      omega

theorem overlap_trims_first :
    (0 < (200 : UInt32).toNat ∧ (200 : UInt32).toNat < 2 ^ 31 ∧ (0 : UInt32).toNat < 2 ^ 31) ∧
    (Trims ⟨1000, 200, 54, 0, 0⟩ (calcBase ⟨1000, 200, 54, 0, 0⟩ 1000 1000 0) ↔
      ¬ (Opening ⟨1000, 200, 54, 0, 0⟩ 1000 1000 0 ∧
        (offsetSeq 1000 1000).toNat + (200 : UInt32).toNat < 2 ^ 31)) :=
  ⟨by decide, (overlap_trims_iff ⟨1000, 200, 54, 0, 0⟩ 1000 1000 0 (by decide) (by decide)
    (by decide)).1⟩

/-- The base, the last and the next number of a direction opened by an empty acknowledgement
are one number. The segment 100 bytes above it is extended by the 100 bytes below it. -/
theorem gap_swallowed :
    calcBase ⟨1100, 200, 54, 0, 0⟩ 1000 1000 0 =
      ⟨.retransOver, ⟨1000, 300, -46, 0, 0⟩, -100⟩ ∧
    ¬ Trims ⟨1100, 200, 54, 0, 0⟩ (calcBase ⟨1100, 200, 54, 0, 0⟩ 1000 1000 0) := by
  have extended : calcBase ⟨1100, 200, 54, 0, 0⟩ 1000 1000 0 =
      ⟨.retransOver, ⟨1000, 300, -46, 0, 0⟩, -100⟩ := by decide +kernel
  refine ⟨extended, ?_⟩
  rw [extended]
  intro trims
  exact absurd trims.amount.1 (by decide)

end Upst.TcpOverlap
