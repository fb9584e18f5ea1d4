import Upst.MemsConf
import Upst.Nifo

/-!
Channels of the CIFO: one ring of cells for each channel, a cell holding the
`OFFSET` of the first node of a `nont` ring. A write first joins the node's ring to
the ring that waits in `wOffset`, and every `uiWBuffCnt` writes that ring goes into
a cell; a read joins the rings of up to `uiRBuffCnt` cells. An access outside the
shared memory segment has no result.
-/

namespace Upst.Cifo

open CList Mems Nifo

set_option autoImplicit false

def CIFO_SHM_SIZE : Nat := 800 * 1024 * 1024
def st_CIFO_SIZE : Nat := 96040
def OFFSET_SIZE : Nat := 8
def CIFO_R_FLAG : Int := 0
def CIFO_W_FLAG : Int := 1

structure ChanConf where
  uiChID : Nat
  uiCellCnt : Nat
  uiCellSize : Nat
  uiWBuffCnt : Nat
  uiRBuffCnt : Nat
  uiWSemFlag : Nat
  uiWSemKey : Nat
  uiRSemFlag : Nat
  uiRSemKey : Nat
  deriving DecidableEq, Repr

structure CifoConf where
  uiHeadRoomSize : Nat
  stCHANCONF : List ChanConf
  deriving DecidableEq, Repr

structure Chan where
  uiChID : Nat
  wCellPos : Nat
  rCellPos : Nat
  uiCellCnt : Nat
  uiCellSize : Nat
  cellStartOffset : Nat
  cellEndOffset : Nat
  uiWBuffCnt : Nat
  uiRBuffCnt : Nat
  uiWCnt : Nat
  wOffset : Nat
  uiWSemFlag : Nat
  uiWSemKey : Nat
  iWSemID : Nat
  uiRSemFlag : Nat
  uiRSemKey : Nat
  iRSemID : Nat
  deriving DecidableEq, Repr

/-- `cell` is the `OFFSET` stored at an offset of the segment. -/
structure StCifo where
  stCHAN : List Chan
  cell : Nat → Nat

def StCifo.setChan (cifo : StCifo) (uiChID : Nat) (chan : Chan) : StCifo :=
  { cifo with stCHAN := cifo.stCHAN.set uiChID chan }

/-- The channel of a new segment, which the system fills with zeros. -/
def zeroChan : Chan where
  uiChID := 0
  wCellPos := 0
  rCellPos := 0
  uiCellCnt := 0
  uiCellSize := 0
  cellStartOffset := 0
  cellEndOffset := 0
  uiWBuffCnt := 0
  uiRBuffCnt := 0
  uiWCnt := 0
  wOffset := 0
  uiWSemFlag := 0
  uiWSemKey := 0
  iWSemID := 0
  uiRSemFlag := 0
  uiRSemKey := 0
  iRSemID := 0

/-- The products are taken on `U32`, before the conversion to `OFFSET`. -/
def cifoTotSize (conf : CifoConf) : Nat :=
  st_CIFO_SIZE + conf.uiHeadRoomSize +
    (conf.stCHANCONF.map fun chan => u32 (chan.uiCellSize * chan.uiCellCnt)).sum

/-- The channel loop of `cifo_init`. It sets neither the cell positions nor the flag
and the key of the read semaphore. -/
def cifoChans (semget : Nat → Nat) : Nat → List ChanConf → List Chan
  | _, [] => []
  | offsetNodeStart, conf :: rest =>
      let finish := offsetNodeStart + u32 (conf.uiCellSize * conf.uiCellCnt)
      { zeroChan with
        uiWSemFlag := conf.uiWSemFlag
        uiWSemKey := conf.uiWSemKey
        iWSemID := memsSemInit semget conf.uiWSemKey conf.uiWSemFlag
        iRSemID := memsSemInit semget conf.uiRSemKey conf.uiRSemFlag
        uiChID := conf.uiChID
        uiCellSize := conf.uiCellSize
        uiCellCnt := conf.uiCellCnt
        cellStartOffset := offsetNodeStart
        cellEndOffset := finish
        uiWBuffCnt := conf.uiWBuffCnt
        uiRBuffCnt := conf.uiRBuffCnt
        uiWCnt := 0
        wOffset := 0 } :: cifoChans semget finish rest

def cifoInit (semget : Nat → Nat) (conf : CifoConf) : Option StCifo :=
  if cifoTotSize conf > CIFO_SHM_SIZE then none
  else
    some
      { stCHAN := cifoChans semget (st_CIFO_SIZE + conf.uiHeadRoomSize) conf.stCHANCONF
        cell := fun _ => 0 }

def Chan.nextPos (chan : Chan) (curPos : Nat) : Nat :=
  u32 (curPos + 1) % chan.uiCellCnt

def Chan.getCell (chan : Chan) (pos : Nat) : Nat :=
  chan.cellStartOffset + u32 (pos * chan.uiCellSize)

/-- The cell lies in the segment. -/
def Chan.CellInside (chan : Chan) (pos : Nat) : Prop :=
  chan.getCell pos + OFFSET_SIZE ≤ CIFO_SHM_SIZE

instance (chan : Chan) (pos : Nat) : Decidable (chan.CellInside pos) :=
  inferInstanceAs (Decidable (_ ≤ _))

def nifoSpliceNont (shm : MemsInfo) (pLIST pHEAD : Nat) : MemsInfo :=
  { shm with nont := shm.nont.splice pLIST pHEAD }

/-- The node joins the ring in `wOffset`, or becomes it, and `uiWCnt` counts it. -/
def cifoBuffer (shm : MemsInfo) (chan : Chan) (offset : Nat) : MemsInfo × Chan :=
  if 0 < chan.wOffset then
    (nifoSpliceNont shm offset chan.wOffset, { chan with uiWCnt := u32 (chan.uiWCnt + 1) })
  else
    (shm, { chan with wOffset := offset, uiWCnt := u32 (chan.uiWCnt + 1) })

/-- From `uiWBuffCnt` writes on, the ring in `wOffset` goes into the cell. -/
def cifoFlush (cifo : StCifo) (uiChID : Nat) (chan : Chan) (curWritePos nextWritePos : Nat) :
    Option StCifo :=
  if chan.uiWCnt ≥ chan.uiWBuffCnt then
    let emptied := { chan with wOffset := 0, uiWCnt := 0 }
    if 0 < chan.wOffset then
      if chan.CellInside curWritePos then
        some
          { stCHAN := cifo.stCHAN.set uiChID { emptied with wCellPos := nextWritePos }
            cell := Function.update cifo.cell (chan.getCell curWritePos) chan.wOffset }
      else none
    else some (cifo.setChan uiChID emptied)
  else some (cifo.setChan uiChID chan)

def cifoWrite (shm : MemsInfo) (cifo : StCifo) (uiChID offset : Nat) :
    Option (Int × MemsInfo × StCifo) :=
  match cifo.stCHAN[uiChID]? with
  | none => some (-1, shm, cifo)
  | some chan =>
      let curReadPos := chan.rCellPos
      let curWritePos := chan.wCellPos
      let nextWritePos := chan.nextPos chan.wCellPos
      if nextWritePos = curReadPos ∧ u32 (chan.uiWCnt + 1) ≥ chan.uiWBuffCnt then
        some (-2, shm, cifo)
      else
        let (shm, chan) := cifoBuffer shm chan offset
        (cifoFlush cifo uiChID chan curWritePos nextWritePos).map fun cifo => (1, shm, cifo)

/-- The loop of `cifo_read`, one call for each round that is left. `pHead` is 0
as long as it is NULL. -/
def cifoReadLoop (cell : Nat → Nat) (curWritePos : Nat) :
    Nat → MemsInfo → Chan → Nat → Option (MemsInfo × Chan × Nat)
  | 0, shm, chan, pHead => some (shm, chan, pHead)
  | rounds + 1, shm, chan, pHead =>
      let curReadPos := chan.rCellPos
      if curReadPos = curWritePos then some (shm, chan, pHead)
      else if chan.CellInside curReadPos then
        let pNext := cell (chan.getCell curReadPos)
        let advanced := { chan with rCellPos := chan.nextPos chan.rCellPos }
        if pHead = 0 then cifoReadLoop cell curWritePos rounds shm advanced pNext
        else
          cifoReadLoop cell curWritePos rounds (nifoSpliceNont shm pNext pHead) advanced pHead
      else none

def cifoRead (shm : MemsInfo) (cifo : StCifo) (uiChID : Nat) : Option (Int × MemsInfo × StCifo) :=
  match cifo.stCHAN[uiChID]? with
  | none => some (-1, shm, cifo)
  | some chan =>
      (cifoReadLoop cifo.cell chan.wCellPos chan.uiRBuffCnt shm chan 0).map
        fun (shm, chan, pHead) => ((pHead : Int), shm, cifo.setChan uiChID chan)

def cifoSetBuffcnt (cifo : StCifo) (uiChID uiBuffCnt : Nat) (uiRWFlag : Int) : Option (Int × StCifo) :=
  if uiBuffCnt = 0 ∨ uiChID = INVALID_ID then some (-1, cifo)
  else
    match cifo.stCHAN[uiChID]? with
    | none => none
    | some chan =>
        if uiRWFlag = CIFO_R_FLAG then
          some (1, cifo.setChan uiChID { chan with uiRBuffCnt := uiBuffCnt })
        else if uiRWFlag = CIFO_W_FLAG then
          some (1, cifo.setChan uiChID { chan with uiWBuffCnt := uiBuffCnt })
        else some (0, cifo)

section Writes

variable {cifo cifo' : StCifo} {shm shm' : MemsInfo} {chan : Chan} {uiChID offset : Nat} {code : Int}

/-- A channel with the node buffered: nothing moved but `wOffset` and the count. -/
theorem buffer_chan (shm : MemsInfo) (chan : Chan) (offset : Nat) :
    (cifoBuffer shm chan offset).2 =
      { chan with
        wOffset := if 0 < chan.wOffset then chan.wOffset else offset
        uiWCnt := u32 (chan.uiWCnt + 1) } := by
  unfold cifoBuffer
  split
  · rfl
  · rfl

/-- The ways a write on a configured channel ends. -/
theorem write_cases (found : cifo.stCHAN[uiChID]? = some chan)
    (wrote : cifoWrite shm cifo uiChID offset = some (code, shm', cifo')) :
    (chan.nextPos chan.wCellPos = chan.rCellPos ∧ u32 (chan.uiWCnt + 1) ≥ chan.uiWBuffCnt ∧
      code = -2 ∧ shm' = shm ∧ cifo' = cifo) ∨
    (¬(chan.nextPos chan.wCellPos = chan.rCellPos ∧ u32 (chan.uiWCnt + 1) ≥ chan.uiWBuffCnt) ∧
      code = 1 ∧ cifoFlush cifo uiChID (cifoBuffer shm chan offset).2 chan.wCellPos
        (chan.nextPos chan.wCellPos) = some cifo') := by
  simp only [cifoWrite, found] at wrote
  split at wrote
  · next full =>
      cases wrote
      exact Or.inl ⟨full.1, full.2, rfl, rfl, rfl⟩
  · next room =>
      obtain ⟨flushed, flush, same⟩ := Option.map_eq_some_iff.mp wrote
      cases same
      exact Or.inr ⟨room, rfl, flush⟩

/-- The ways a flush ends. -/
theorem flush_cases {curWritePos nextWritePos : Nat}
    (flush : cifoFlush cifo uiChID chan curWritePos nextWritePos = some cifo') :
    (chan.uiWBuffCnt ≤ chan.uiWCnt ∧ 0 < chan.wOffset ∧ cifo' =
      { stCHAN := cifo.stCHAN.set uiChID
          { chan with wOffset := 0, uiWCnt := 0, wCellPos := nextWritePos }
        cell := Function.update cifo.cell (chan.getCell curWritePos) chan.wOffset }) ∨
    (chan.uiWBuffCnt ≤ chan.uiWCnt ∧ chan.wOffset = 0 ∧
      cifo' = cifo.setChan uiChID { chan with wOffset := 0, uiWCnt := 0 }) ∨
    (chan.uiWCnt < chan.uiWBuffCnt ∧ cifo' = cifo.setChan uiChID chan) := by
  unfold cifoFlush at flush
  split at flush
  · next full =>
      dsimp only at flush
      split at flush
      · next some =>
          split at flush
          · cases flush
            exact Or.inl ⟨full, some, rfl⟩
          · cases flush
      · next nothing =>
          cases flush
          exact Or.inr (Or.inl ⟨full, Nat.eq_zero_of_not_pos nothing, rfl⟩)
  · next waits =>
      cases flush
      exact Or.inr (Or.inr ⟨Nat.lt_of_not_ge waits, rfl⟩)

end Writes

end Upst.Cifo
