import Upst.CList
import Mathlib.Data.List.GetD
import Mathlib.Algebra.Order.Ring.Int

/-!
The node pool of the NIFO shared memory: zones of equally sized nodes, each node
behind a header that says whether it is in use. Addresses are offsets from the
start of the shared memory, `OFFSET` in the source. The node bodies (NIFO fields,
list heads and bytes) are kept beside the headers, each in a map from its offset.
-/

namespace Upst.Mems

open CList

set_option autoImplicit false

def MEMS_SHM_SIZE : Nat := 1 * 1024 * 1024 * 1024
def MEMS_ID : Nat := 0x10101010
def INVALID_ID : Nat := 0xFFFFFFFF
def stMEMSNODEHDR_SIZE : Nat := 36
def stMEMSINFO_SIZE : Nat := 4760

/-- `MEMS_FREE` and `MEMS_ALLOCED`, the two values of `ucIsFree`. -/
inductive NodeUse where
  | free
  | alloced
  deriving DecidableEq, Repr

structure MemsNodeHdr where
  uiID : Nat
  uiZoneID : Nat
  ucIsFree : NodeUse
  deriving DecidableEq, Repr

/-- The scalar fields of `NIFO`; its two list heads are the maps `nont` and `cont`. -/
structure Nifo where
  nodeFrom : Int
  nodeTo : Int
  cnt : Int
  lastoffset : Nat
  maxoffset : Nat
  deriving DecidableEq, Repr

/-- The fields of `st_MEMSZONE` that `mems_init` sets for good. -/
structure MemsZone where
  uiZoneID : Nat
  uiMemNodeBodySize : Nat
  uiMemNodeTotCnt : Nat
  offsetNodeStart : Nat
  offsetNodeEnd : Nat
  deriving DecidableEq, Repr

/-- `offsetFreeList` is the one field of a zone that moves, kept by zone index. -/
structure MemsInfo where
  stMEMSZONE : List MemsZone
  offsetFreeList : Nat → Nat
  uiMatrixZoneID : Nat → Nat
  nodeHdr : Nat → MemsNodeHdr
  nifo : Nat → Nifo
  nont : Links Nat
  cont : Links Nat
  byteAt : Nat → UInt8

/-- The distance between two neighbouring node headers of a zone. -/
def MemsZone.stride (zone : MemsZone) : Nat :=
  stMEMSNODEHDR_SIZE + zone.uiMemNodeBodySize

def MemsZone.hdrOffset (zone : MemsZone) (index : Nat) : Nat :=
  zone.offsetNodeStart + zone.stride * index

structure MemsZoneConf where
  uiZoneID : Nat
  uiMemNodeBodySize : Nat
  uiMemNodeTotCnt : Nat
  deriving DecidableEq, Repr

structure MemsConf where
  uiHeadRoomSize : Nat
  stMEMSZONECONF : List MemsZoneConf
  uiMatrixZoneID : Nat → Nat

def memsTotSize (conf : MemsConf) : Nat :=
  stMEMSINFO_SIZE + conf.uiHeadRoomSize +
    (conf.stMEMSZONECONF.map fun zone =>
      (stMEMSNODEHDR_SIZE + zone.uiMemNodeBodySize) * zone.uiMemNodeTotCnt).sum

/-- The zone table of `mems_init`: each zone starts where the one before it ends. -/
def memsZones : Nat → List MemsZoneConf → List MemsZone
  | _, [] => []
  | start, conf :: rest =>
      let finish := start +
        (stMEMSNODEHDR_SIZE + conf.uiMemNodeBodySize) * conf.uiMemNodeTotCnt
      { uiZoneID := conf.uiZoneID
        uiMemNodeBodySize := conf.uiMemNodeBodySize
        uiMemNodeTotCnt := conf.uiMemNodeTotCnt
        offsetNodeStart := start
        offsetNodeEnd := finish } :: memsZones finish rest

/-- The header loop of `mems_init` for one zone. -/
def memsZoneHdrs (nodeHdr : Nat → MemsNodeHdr) (zone : MemsZone) : Nat → MemsNodeHdr :=
  (List.range zone.uiMemNodeTotCnt).foldl (fun hdrs index =>
    Function.update hdrs (zone.hdrOffset index)
      { uiID := MEMS_ID
        uiZoneID := zone.uiZoneID
        ucIsFree := .free }) nodeHdr

/-- `raw` is the content of the segment before `mems_init` wrote to it. Sizes whose sum wraps
pass the C comparison, but then the header loop leaves the segment; no pool comes of them. -/
def memsInit (conf : MemsConf) (raw : MemsInfo) : Option MemsInfo :=
  if memsTotSize conf > MEMS_SHM_SIZE then none
  else
    let zones := memsZones (stMEMSINFO_SIZE + conf.uiHeadRoomSize) conf.stMEMSZONECONF
    some
      { raw with
        stMEMSZONE := zones
        offsetFreeList := fun zoneID =>
          (zones[zoneID]?.map MemsZone.offsetNodeStart).getD (raw.offsetFreeList zoneID)
        uiMatrixZoneID := conf.uiMatrixZoneID
        nodeHdr := zones.foldl memsZoneHdrs raw.nodeHdr }

/-- The scan of `mems_alloc`, one call for each header it looks at. It returns the
header it stopped at, and the place the next scan starts from. -/
def memsScan (nodeHdr : Nat → MemsNodeHdr) (zone : MemsZone) :
    Nat → Nat → Option Nat × Nat
  | 0, freeList => (none, freeList)
  | tries + 1, freeList =>
      let advanced :=
        if freeList + zone.stride = zone.offsetNodeEnd then zone.offsetNodeStart
        else freeList + zone.stride
      if (nodeHdr freeList).ucIsFree = .free then (some freeList, advanced)
      else memsScan nodeHdr zone tries advanced

def MemsInfo.setUse (shm : MemsInfo) (hdr : Nat) (use : NodeUse) : MemsInfo :=
  { shm with
    nodeHdr := Function.update shm.nodeHdr hdr { shm.nodeHdr hdr with ucIsFree := use } }

def MemsInfo.setFreeList (shm : MemsInfo) (zoneID : Nat) (freeList : Nat) : MemsInfo :=
  { shm with offsetFreeList := Function.update shm.offsetFreeList zoneID freeList }

def memsAlloc (shm : MemsInfo) (uiSize uiZoneID : Nat) : Option Nat × MemsInfo :=
  match shm.stMEMSZONE[uiZoneID]? with
  | none => (none, shm)
  | some zone =>
      if zone.uiMemNodeBodySize < uiSize then (none, shm)
      else
        -- the scan gives up when `iDebug` passes `uiMemNodeTotCnt`
        match memsScan shm.nodeHdr zone (zone.uiMemNodeTotCnt + 1)
            (shm.offsetFreeList uiZoneID) with
        | (none, freeList) => (none, shm.setFreeList uiZoneID freeList)
        | (some hdr, freeList) =>
            (some (hdr + stMEMSNODEHDR_SIZE),
              (shm.setFreeList uiZoneID freeList).setUse hdr .alloced)

/-- `none` where `mems_free` refuses a node that is not allocated. -/
def memsFree (shm : MemsInfo) (node : Nat) : Option MemsInfo :=
  let hdr := shm.nodeHdr (node - stMEMSNODEHDR_SIZE)
  if hdr.uiID ≠ MEMS_ID ∨ hdr.ucIsFree ≠ .alloced then none
  else some (shm.setUse (node - stMEMSNODEHDR_SIZE) .free)

section Layout

structure ZoneWf (zoneID : Nat) (zone : MemsZone) : Prop where
  own : zone.uiZoneID = zoneID
  populated : 0 < zone.uiMemNodeTotCnt
  start : 0 < zone.offsetNodeStart
  finish : zone.offsetNodeEnd = zone.hdrOffset zone.uiMemNodeTotCnt
  small : zone.offsetNodeEnd ≤ MEMS_SHM_SIZE

/-- What `mems_init` sets up and every later operation keeps: zones one after the
other inside the segment, and an intact header before every node. -/
structure PoolWf (shm : MemsInfo) : Prop where
  zone : ∀ zoneID zone, shm.stMEMSZONE[zoneID]? = some zone → ZoneWf zoneID zone
  order : shm.stMEMSZONE.Pairwise fun zone later => zone.offsetNodeEnd ≤ later.offsetNodeStart
  scanning : ∀ zoneID zone, shm.stMEMSZONE[zoneID]? = some zone →
    ∃ index < zone.uiMemNodeTotCnt, shm.offsetFreeList zoneID = zone.hdrOffset index
  header : ∀ zoneID zone, shm.stMEMSZONE[zoneID]? = some zone →
    ∀ index < zone.uiMemNodeTotCnt,
      (shm.nodeHdr (zone.hdrOffset index)).uiID = MEMS_ID ∧
        (shm.nodeHdr (zone.hdrOffset index)).uiZoneID = zoneID

/-- `node` is the body of one of the nodes of a zone. -/
def NodeIn (shm : MemsInfo) (zoneID : Nat) (node : Nat) : Prop :=
  ∃ zone index, shm.stMEMSZONE[zoneID]? = some zone ∧ index < zone.uiMemNodeTotCnt ∧
    node = zone.hdrOffset index + stMEMSNODEHDR_SIZE

def InUse (shm : MemsInfo) (node : Nat) : Prop :=
  (shm.nodeHdr (node - stMEMSNODEHDR_SIZE)).ucIsFree = .alloced

theorem hdr_offset_succ (zone : MemsZone) (index : Nat) :
    zone.hdrOffset (index + 1) = zone.hdrOffset index + zone.stride := by
  simp [MemsZone.hdrOffset, Nat.mul_add, Nat.add_assoc]

theorem stride_pos (zone : MemsZone) : 0 < zone.stride := by
  simp only [MemsZone.stride, stMEMSNODEHDR_SIZE]
  omega

theorem hdr_offset_lt (zone : MemsZone) {first second : Nat} (before : first < second) :
    zone.hdrOffset first + zone.stride ≤ zone.hdrOffset second := by
  have steps : zone.stride * (first + 1) ≤ zone.stride * second :=
    Nat.mul_le_mul_left _ before
  simp only [MemsZone.hdrOffset, Nat.mul_add, Nat.mul_one] at steps ⊢
  omega

/-- One node fits the segment, so every body is shorter than the segment. -/
theorem zone_body_small {zoneID : Nat} {zone : MemsZone} (wf : ZoneWf zoneID zone) :
    zone.uiMemNodeBodySize < MEMS_SHM_SIZE := by
  have fits := hdr_offset_lt zone wf.populated
  have small := wf.small
  rw [wf.finish] at small
  simp only [MemsZone.stride, stMEMSNODEHDR_SIZE] at fits
  omega

theorem hdr_within_zone {zoneID : Nat} {zone : MemsZone} (wf : ZoneWf zoneID zone)
    {index : Nat} (bound : index < zone.uiMemNodeTotCnt) :
    zone.offsetNodeStart ≤ zone.hdrOffset index ∧
      zone.hdrOffset index + zone.stride ≤ zone.offsetNodeEnd := by
  refine ⟨by simp [MemsZone.hdrOffset], ?_⟩
  rw [wf.finish]
  exact hdr_offset_lt zone bound

/-- Two nodes of one zone are the same node or a whole stride apart. -/
theorem node_in_apart {shm : MemsInfo} {zoneID : Nat} {zone : MemsZone} {node other : Nat}
    (found : shm.stMEMSZONE[zoneID]? = some zone) (member : NodeIn shm zoneID node)
    (member' : NodeIn shm zoneID other) (distinct : node ≠ other) :
    node + zone.stride ≤ other ∨ other + zone.stride ≤ node := by
  obtain ⟨zone₁, index, found₁, -, rfl⟩ := member
  obtain ⟨zone₂, index', found₂, -, rfl⟩ := member'
  obtain rfl : zone = zone₁ := Option.some.inj (found.symm.trans found₁)
  obtain rfl : zone = zone₂ := Option.some.inj (found.symm.trans found₂)
  rcases Nat.lt_trichotomy index index' with before | rfl | after
  · left
    have := hdr_offset_lt zone before
    omega
  · exact absurd rfl distinct
  · right
    have := hdr_offset_lt zone after
    omega

end Layout

section Operations

@[simp] theorem set_use_zone (shm : MemsInfo) (hdr : Nat) (use : NodeUse) :
    (shm.setUse hdr use).stMEMSZONE = shm.stMEMSZONE := rfl

@[simp] theorem set_free_list_zone (shm : MemsInfo) (zoneID freeList : Nat) :
    (shm.setFreeList zoneID freeList).stMEMSZONE = shm.stMEMSZONE := rfl

/-- The pool says nothing about what the node bodies hold. -/
theorem pool_wf_congr {shm shm' : MemsInfo} (wf : PoolWf shm)
    (zones : shm'.stMEMSZONE = shm.stMEMSZONE)
    (freeList : shm'.offsetFreeList = shm.offsetFreeList)
    (headers : shm'.nodeHdr = shm.nodeHdr) : PoolWf shm' := by
  refine ⟨?_, ?_, ?_, ?_⟩
  · simpa only [zones] using wf.zone
  · simpa only [zones] using wf.order
  · simpa only [zones, freeList] using wf.scanning
  · simpa only [zones, headers] using wf.header

theorem set_use_wf {shm : MemsInfo} (wf : PoolWf shm) (hdr : Nat) (use : NodeUse) :
    PoolWf (shm.setUse hdr use) := by
  refine ⟨wf.zone, wf.order, wf.scanning, ?_⟩
  intro zoneID zone found index bound
  have intact := wf.header zoneID zone found index bound
  by_cases same : zone.hdrOffset index = hdr
  · simpa [MemsInfo.setUse, ← same] using intact
  · simpa [MemsInfo.setUse, same] using intact

theorem set_free_list_wf {shm : MemsInfo} (wf : PoolWf shm) {zoneID index : Nat}
    {zone : MemsZone} (found : shm.stMEMSZONE[zoneID]? = some zone)
    (bound : index < zone.uiMemNodeTotCnt) :
    PoolWf (shm.setFreeList zoneID (zone.hdrOffset index)) := by
  refine ⟨wf.zone, wf.order, ?_, wf.header⟩
  intro other zone' found'
  by_cases same : other = zoneID
  · subst same
    obtain rfl : zone = zone' := Option.some.inj (found.symm.trans found')
    exact ⟨index, bound, by simp [MemsInfo.setFreeList]⟩
  · simpa [MemsInfo.setFreeList, same] using wf.scanning other zone' found'

/-- The scan only ever stands on headers of its zone, and what it returns is free. -/
theorem mems_scan_spec (nodeHdr : Nat → MemsNodeHdr) {zoneID : Nat} {zone : MemsZone}
    (wf : ZoneWf zoneID zone) (tries index : Nat) (bound : index < zone.uiMemNodeTotCnt) :
    (∃ rest < zone.uiMemNodeTotCnt,
      (memsScan nodeHdr zone tries (zone.hdrOffset index)).2 = zone.hdrOffset rest) ∧
    ∀ hdr, (memsScan nodeHdr zone tries (zone.hdrOffset index)).1 = some hdr →
      (nodeHdr hdr).ucIsFree = .free ∧
        ∃ found < zone.uiMemNodeTotCnt, hdr = zone.hdrOffset found := by
  induction tries generalizing index with
  | zero => exact ⟨⟨index, bound, rfl⟩, by simp [memsScan]⟩
  | succ tries ih =>
      have advance : ∃ next < zone.uiMemNodeTotCnt,
          (if zone.hdrOffset index + zone.stride = zone.offsetNodeEnd then zone.offsetNodeStart
            else zone.hdrOffset index + zone.stride) = zone.hdrOffset next := by
        rw [← hdr_offset_succ, wf.finish]
        by_cases wraps : zone.hdrOffset (index + 1) = zone.hdrOffset zone.uiMemNodeTotCnt
        · refine ⟨0, wf.populated, ?_⟩
          rw [if_pos wraps]
          simp [MemsZone.hdrOffset]
        · refine ⟨index + 1, ?_, by simp [wraps]⟩
          rcases Nat.lt_or_ge (index + 1) zone.uiMemNodeTotCnt with inside | outside
          · exact inside
          · exact absurd (congrArg zone.hdrOffset (by omega)) wraps
      obtain ⟨next, inside, step⟩ := advance
      simp only [memsScan, step]
      split
      · rename_i isFree
        refine ⟨⟨next, inside, rfl⟩, ?_⟩
        intro hdr stopped
        obtain rfl := Option.some.inj stopped
        exact ⟨isFree, index, bound, rfl⟩
      · exact ih next inside

/-- Everything `mems_alloc` can do to a well-formed pool. -/
structure AllocStep (shm : MemsInfo) (zoneID : Nat) (node : Option Nat) (shm' : MemsInfo) :
    Prop where
  wf : PoolWf shm'
  zones : shm'.stMEMSZONE = shm.stMEMSZONE
  matrix : shm'.uiMatrixZoneID = shm.uiMatrixZoneID
  nifo : shm'.nifo = shm.nifo
  nont : shm'.nont = shm.nont
  cont : shm'.cont = shm.cont
  bytes : shm'.byteAt = shm.byteAt
  zoneKept : ∀ hdr, (shm'.nodeHdr hdr).uiZoneID = (shm.nodeHdr hdr).uiZoneID
  idKept : ∀ hdr, (shm'.nodeHdr hdr).uiID = (shm.nodeHdr hdr).uiID
  failed : node = none → shm'.nodeHdr = shm.nodeHdr
  taken : ∀ fresh, node = some fresh →
    NodeIn shm zoneID fresh ∧ ¬InUse shm fresh ∧ InUse shm' fresh ∧
      ∀ hdr, hdr ≠ fresh - stMEMSNODEHDR_SIZE → shm'.nodeHdr hdr = shm.nodeHdr hdr

theorem mems_alloc_spec {shm : MemsInfo} (wf : PoolWf shm) (uiSize zoneID : Nat) :
    AllocStep shm zoneID (memsAlloc shm uiSize zoneID).1 (memsAlloc shm uiSize zoneID).2 := by
  have unchanged : AllocStep shm zoneID none shm :=
    ⟨wf, rfl, rfl, rfl, rfl, rfl, rfl, fun _ => rfl, fun _ => rfl, fun _ => rfl, by simp⟩
  unfold memsAlloc
  cases found : shm.stMEMSZONE[zoneID]? with
  | none => exact unchanged
  | some zone =>
      dsimp only
      split
      · exact unchanged
      · obtain ⟨index, bound, position⟩ := wf.scanning zoneID zone found
        have scan := mems_scan_spec shm.nodeHdr (wf.zone zoneID zone found)
          (zone.uiMemNodeTotCnt + 1) index bound
        rw [← position] at scan
        obtain ⟨⟨rest, restBound, restEq⟩, result⟩ := scan
        have moved : PoolWf (shm.setFreeList zoneID (zone.hdrOffset rest)) :=
          set_free_list_wf wf found restBound
        split
        · rename_i freeList scanned
          rw [scanned] at restEq
          obtain rfl : freeList = zone.hdrOffset rest := restEq
          exact ⟨moved, rfl, rfl, rfl, rfl, rfl, rfl, fun _ => rfl, fun _ => rfl,
            fun _ => rfl, by simp⟩
        · rename_i hdr freeList scanned
          rw [scanned] at restEq result
          obtain rfl : freeList = zone.hdrOffset rest := restEq
          obtain ⟨isFree, place, placeBound, rfl⟩ := result hdr rfl
          refine ⟨set_use_wf moved _ _, rfl, rfl, rfl, rfl, rfl, rfl, ?_, ?_, by simp, ?_⟩
          · intro other
            by_cases same : other = zone.hdrOffset place
            · simp [MemsInfo.setUse, MemsInfo.setFreeList, same]
            · simp [MemsInfo.setUse, MemsInfo.setFreeList, same]
          · intro other
            by_cases same : other = zone.hdrOffset place
            · simp [MemsInfo.setUse, MemsInfo.setFreeList, same]
            · simp [MemsInfo.setUse, MemsInfo.setFreeList, same]
          · intro fresh freshEq
            obtain rfl := Option.some.inj freshEq
            refine ⟨⟨zone, place, found, placeBound, rfl⟩, ?_, ?_, ?_⟩
            · simp [InUse, isFree]
            · simp [InUse, MemsInfo.setUse]
            · intro other otherNe
              simp only [Nat.add_sub_cancel] at otherNe
              simp [MemsInfo.setUse, MemsInfo.setFreeList, otherNe]

end Operations

section Init

/-- What the configuration reader checks of the zone list. -/
structure ConfWf (conf : MemsConf) : Prop where
  ids : ∀ (index : Nat) (zone : MemsZoneConf),
    conf.stMEMSZONECONF[index]? = some zone → zone.uiZoneID = index
  populated : ∀ zone ∈ conf.stMEMSZONECONF, 0 < zone.uiMemNodeTotCnt

def freeHdr (zone : MemsZone) : MemsNodeHdr where
  uiID := MEMS_ID
  uiZoneID := zone.uiZoneID
  ucIsFree := .free

theorem mems_zones_get {start index : Nat} {confs : List MemsZoneConf} {zone : MemsZone}
    (found : (memsZones start confs)[index]? = some zone) :
    ∃ conf, confs[index]? = some conf ∧ zone.uiZoneID = conf.uiZoneID ∧
      zone.uiMemNodeTotCnt = conf.uiMemNodeTotCnt ∧
      zone.offsetNodeEnd = zone.hdrOffset zone.uiMemNodeTotCnt := by
  induction confs generalizing start index with
  | nil => simp [memsZones] at found
  | cons conf rest ih =>
      cases index with
      | zero =>
          simp only [memsZones, List.getElem?_cons_zero, Option.some.injEq] at found
          subst found
          exact ⟨conf, rfl, rfl, rfl, rfl⟩
      | succ index => exact ih (by simpa [memsZones] using found)

/-- The zones lie one after the other between `start` and the total size. -/
theorem mems_zones_order (start : Nat) (confs : List MemsZoneConf) :
    (memsZones start confs).Pairwise (fun zone later =>
      zone.offsetNodeEnd ≤ later.offsetNodeStart) ∧
    ∀ zone ∈ memsZones start confs, start ≤ zone.offsetNodeStart ∧
      zone.offsetNodeEnd ≤ start + (confs.map fun conf =>
        (stMEMSNODEHDR_SIZE + conf.uiMemNodeBodySize) * conf.uiMemNodeTotCnt).sum := by
  induction confs generalizing start with
  | nil => simp [memsZones]
  | cons conf rest ih =>
      obtain ⟨ordered, bounds⟩ := ih (start +
        (stMEMSNODEHDR_SIZE + conf.uiMemNodeBodySize) * conf.uiMemNodeTotCnt)
      simp only [memsZones, List.pairwise_cons, List.mem_cons, List.map_cons, List.sum_cons]
      refine ⟨⟨fun later member => (bounds later member).1, ordered⟩, ?_⟩
      rintro zone (rfl | member)
      · exact ⟨Nat.le_refl _, by dsimp only; omega⟩
      · have := bounds zone member
        omega

theorem zone_hdrs_outside (nodeHdr : Nat → MemsNodeHdr) (zone : MemsZone) {hdr : Nat}
    (outside : ∀ index < zone.uiMemNodeTotCnt, hdr ≠ zone.hdrOffset index) :
    memsZoneHdrs nodeHdr zone hdr = nodeHdr hdr := by
  unfold memsZoneHdrs
  generalize zone.uiMemNodeTotCnt = count at outside
  induction count with
  | zero => rfl
  | succ count ih =>
      rw [List.range_succ, List.foldl_append]
      simp only [List.foldl_cons, List.foldl_nil]
      rw [Function.update_of_ne (outside count (by omega))]
      exact ih fun index bound => outside index (by omega)

theorem zone_hdrs_inside (nodeHdr : Nat → MemsNodeHdr) (zone : MemsZone) {index : Nat}
    (inside : index < zone.uiMemNodeTotCnt) :
    memsZoneHdrs nodeHdr zone (zone.hdrOffset index) = freeHdr zone := by
  unfold memsZoneHdrs
  generalize zone.uiMemNodeTotCnt = count at inside
  induction count with
  | zero => omega
  | succ count ih =>
      rw [List.range_succ, List.foldl_append]
      simp only [List.foldl_cons, List.foldl_nil]
      by_cases last : index = count
      · rw [last, Function.update_self]
        rfl
      · have earlier := hdr_offset_lt zone (show index < count by omega)
        have positive := stride_pos zone
        rw [Function.update_of_ne (by omega)]
        exact ih (by omega)

theorem zones_hdrs_before (nodeHdr : Nat → MemsNodeHdr) (zones : List MemsZone) {hdr : Nat}
    (before : ∀ zone ∈ zones, hdr < zone.offsetNodeStart) :
    zones.foldl memsZoneHdrs nodeHdr hdr = nodeHdr hdr := by
  induction zones generalizing nodeHdr with
  | nil => rfl
  | cons zone rest ih =>
      rw [List.foldl_cons, ih _ fun later member => before later (by simp [member])]
      apply zone_hdrs_outside
      intro index _
      have := before zone (by simp)
      simp only [MemsZone.hdrOffset]
      omega

theorem zones_hdrs_inside (nodeHdr : Nat → MemsNodeHdr) {zones : List MemsZone}
    (ordered : zones.Pairwise fun zone later => zone.offsetNodeEnd ≤ later.offsetNodeStart)
    (ends : ∀ zone ∈ zones, zone.offsetNodeEnd = zone.hdrOffset zone.uiMemNodeTotCnt)
    {zone : MemsZone} (member : zone ∈ zones) {index : Nat}
    (inside : index < zone.uiMemNodeTotCnt) :
    zones.foldl memsZoneHdrs nodeHdr (zone.hdrOffset index) = freeHdr zone := by
  induction zones generalizing nodeHdr with
  | nil => simp at member
  | cons first rest ih =>
      simp only [List.pairwise_cons] at ordered
      rw [List.foldl_cons]
      rcases List.mem_cons.mp member with rfl | later
      · rw [zones_hdrs_before, zone_hdrs_inside _ _ inside]
        intro later laterMember
        have gap := ordered.1 later laterMember
        rw [ends zone (by simp)] at gap
        have fits := hdr_offset_lt zone inside
        have positive := stride_pos zone
        omega
      · exact ih _ ordered.2 (fun zone member => ends zone (by simp [member])) later

/-- The header that `mems_init` leaves before a node. -/
theorem mems_init_hdr (conf : MemsConf) (raw : MemsInfo) {shm : MemsInfo}
    (created : memsInit conf raw = some shm) {zoneID : Nat} {zone : MemsZone}
    (found : shm.stMEMSZONE[zoneID]? = some zone) {index : Nat}
    (bound : index < zone.uiMemNodeTotCnt) :
    shm.nodeHdr (zone.hdrOffset index) = freeHdr zone := by
  unfold memsInit at created
  split at created
  · cases created
  · cases created
    have ordered := (mems_zones_order (stMEMSINFO_SIZE + conf.uiHeadRoomSize)
      conf.stMEMSZONECONF).1
    refine zones_hdrs_inside raw.nodeHdr ordered ?_ (List.mem_of_getElem? found) bound
    intro other member
    obtain ⟨otherID, found'⟩ := List.getElem?_of_mem member
    obtain ⟨entry, -, -, -, finish⟩ := mems_zones_get found'
    exact finish

theorem mems_init_wf (conf : MemsConf) (raw : MemsInfo) {shm : MemsInfo} (checked : ConfWf conf)
    (created : memsInit conf raw = some shm) : PoolWf shm := by
  have headers := @mems_init_hdr conf raw shm created
  unfold memsInit at created
  split at created
  · simp at created
  rename_i small
  have layout := mems_zones_order (stMEMSINFO_SIZE + conf.uiHeadRoomSize) conf.stMEMSZONECONF
  obtain ⟨ordered, bounds⟩ := layout
  obtain rfl := (Option.some.inj created).symm
  have zoneWf : ∀ zoneID zone,
      (memsZones (stMEMSINFO_SIZE + conf.uiHeadRoomSize) conf.stMEMSZONECONF)[zoneID]? =
        some zone → ZoneWf zoneID zone := by
    intro zoneID zone found
    obtain ⟨entry, entryFound, idEq, countEq, finish⟩ := mems_zones_get found
    have range := bounds zone (List.mem_of_getElem? found)
    refine ⟨?_, ?_, ?_, finish, ?_⟩
    · rw [idEq, checked.ids zoneID entry entryFound]
    · rw [countEq]
      exact checked.populated entry (List.mem_of_getElem? entryFound)
    · have info : 0 < stMEMSINFO_SIZE := by decide
      omega
    · simp only [memsTotSize] at small
      omega
  refine ⟨zoneWf, ordered, ?_, ?_⟩
  · intro zoneID zone found
    refine ⟨0, (zoneWf zoneID zone found).populated, ?_⟩
    dsimp only at found ⊢
    simp [found, MemsZone.hdrOffset]
  · intro zoneID zone found index bound
    rw [headers found bound]
    exact ⟨rfl, (zoneWf zoneID zone found).own⟩

end Init

end Upst.Mems
