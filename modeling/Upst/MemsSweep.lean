import Upst.MemsRun
import Upst.Bytes
import Upst.Word
import Mathlib.Algebra.BigOperators.Group.List.Basic

/-!
`mems_garbage_collector` and `mems_view` walk over the node headers by address. Here the part
of the pool behind the zone table is bytes, so that a wrong address reads and writes what lies
there.
-/

namespace Upst.Mems

open Bytes Word

set_option autoImplicit false

def MEMS_FREE : UInt8 := 0
def MEMS_ALLOCED : UInt8 := 1

/-- The zone table with its counters, and the bytes behind it up to `size`. -/
structure MemsSegment where
  stMEMSZONE : List MemsZone
  delCnt : Nat → BitVec 64
  size : Nat
  byteAt : Nat → UInt8

section Code

variable (seg : MemsSegment)

def MemsSegment.uiID (hdr : Nat) : Nat := fromLe (readBytes seg.byteAt hdr 4)
def MemsSegment.uiZoneID (hdr : Nat) : Nat := fromLe (readBytes seg.byteAt (hdr + 4) 4)
def MemsSegment.TimeSec (hdr : Nat) : Int := s32 (fromLe (readBytes seg.byteAt (hdr + 8) 4))
def MemsSegment.ucIsFree (hdr : Nat) : UInt8 := seg.byteAt (hdr + 12)

def InInt (value : Int) : Prop := -2 ^ 31 ≤ value ∧ value < 2 ^ 31

instance (value : Int) : Decidable (InInt value) :=
  inferInstanceAs (Decidable (_ ∧ _))

/-- The addresses `pIndex` takes in one zone. -/
def zonePIndex (pBase : Nat) (zone : MemsZone) : List Nat :=
  (List.range zone.uiMemNodeTotCnt).map fun iIndex =>
    pBase + iIndex * (stMEMSNODEHDR_SIZE + zone.uiMemNodeBodySize)

/-- The addresses `pIndex` takes in all zones, `pBase` running on from zone to zone. -/
def pIndexes : Nat → List MemsZone → List Nat
  | _, [] => []
  | pBase, zone :: rest =>
      zonePIndex (pBase + zone.offsetNodeStart) zone ++
        pIndexes (pBase + zone.offsetNodeStart) rest

/-- The bytes of `mems_free`; a zone number outside the table has no counter to step. -/
def MemsSegment.free (hdr : Nat) : Option MemsSegment :=
  if seg.uiID hdr ≠ MEMS_ID ∨ seg.ucIsFree hdr ≠ MEMS_ALLOCED then some seg
  else if MAX_MEMSZONE_CNT ≤ seg.uiZoneID hdr then none
  else
    some { seg with
      byteAt := Function.update seg.byteAt (hdr + 12) MEMS_FREE
      delCnt :=
        Function.update seg.delCnt (seg.uiZoneID hdr) (seg.delCnt (seg.uiZoneID hdr) + 1) }

/-- The test both loops make of a header: `none` where it lies outside the memory, or where the
sum of an ALLOCED node leaves `int`. -/
def MemsSegment.tooOld (timegap cur_time : Int) (hdr : Nat) : Option Bool :=
  if seg.size < hdr + stMEMSNODEHDR_SIZE then none
  else if seg.ucIsFree hdr ≠ MEMS_ALLOCED then some false
  else if ¬InInt (seg.TimeSec hdr + timegap) then none
  else some (decide (seg.TimeSec hdr + timegap < cur_time))

/-- One turn of `mems_garbage_collector`. -/
def MemsSegment.collect (timegap cur_time : Int) (seg : MemsSegment) (hdr : Nat) :
    Option MemsSegment :=
  match seg.tooOld timegap cur_time hdr with
  | none => none
  | some false => some seg
  | some true => seg.free hdr

/-- The zone table stays as it is while the loop runs, so its addresses are known before. -/
def memsGarbageCollector (timegap cur_time : Int) : Option MemsSegment :=
  (pIndexes 0 seg.stMEMSZONE).foldlM (MemsSegment.collect timegap cur_time) seg

/-- The addresses `mems_view` looks at, each with whether it prints what it finds. -/
def memsView (timegap cur_time : Int) : Option (List (Nat × Bool)) :=
  (pIndexes 0 seg.stMEMSZONE).mapM fun hdr =>
    (seg.tooOld timegap cur_time hdr).map fun printed => (hdr, printed)

end Code

section Laid

/-- The headers of the pool, zone by zone. -/
def zoneHdrs (zones : List MemsZone) : List Nat :=
  zones.flatMap fun zone => (List.range zone.uiMemNodeTotCnt).map zone.hdrOffset

/-- The layout of `mems_init` and the two numbers it writes into each header. Zones may be
empty; what the headers say of use and time is open. -/
structure Laid (seg : MemsSegment) : Prop where
  count : seg.stMEMSZONE.length ≤ MAX_MEMSZONE_CNT
  start : ∀ zone ∈ seg.stMEMSZONE, 0 < zone.offsetNodeStart
  finish : ∀ zone ∈ seg.stMEMSZONE, zone.offsetNodeEnd = zone.hdrOffset zone.uiMemNodeTotCnt
  fits : ∀ zone ∈ seg.stMEMSZONE, zone.offsetNodeEnd ≤ seg.size
  order : seg.stMEMSZONE.Pairwise fun zone later => zone.offsetNodeEnd ≤ later.offsetNodeStart
  header : ∀ zoneID zone, seg.stMEMSZONE[zoneID]? = some zone →
    ∀ index < zone.uiMemNodeTotCnt, seg.uiID (zone.hdrOffset index) = MEMS_ID ∧
      seg.uiZoneID (zone.hdrOffset index) = zoneID

/-- An ALLOCED node whose time has run out. -/
def MemsSegment.Expired (seg : MemsSegment) (timegap cur_time : Int) (hdr : Nat) : Prop :=
  seg.ucIsFree hdr = MEMS_ALLOCED ∧ seg.TimeSec hdr + timegap < cur_time

instance (seg : MemsSegment) (timegap cur_time : Int) :
    DecidablePred (seg.Expired timegap cur_time) :=
  fun _ => inferInstanceAs (Decidable (_ ∧ _))

/-- The expired nodes are FREE, each counted once for its zone, and every other byte is the
same. -/
structure Collected (seg : MemsSegment) (timegap cur_time : Int) (hdrs : List Nat)
    (seg' : MemsSegment) : Prop where
  zones : seg'.stMEMSZONE = seg.stMEMSZONE
  size : seg'.size = seg.size
  freed : ∀ hdr ∈ hdrs, seg.Expired timegap cur_time hdr → seg'.ucIsFree hdr = MEMS_FREE
  others : ∀ place, (∀ hdr ∈ hdrs, seg.Expired timegap cur_time hdr → place ≠ hdr + 12) →
    seg'.byteAt place = seg.byteAt place
  deleted : ∀ zoneID, seg'.delCnt zoneID = seg.delCnt zoneID + BitVec.ofNat 64
    (hdrs.countP fun hdr => seg.Expired timegap cur_time hdr ∧ seg.uiZoneID hdr = zoneID)

/-- What the collector has to do with the pool, and the view to visit. -/
structure Sweeps (seg : MemsSegment) (timegap cur_time : Int) : Prop where
  collects : ∃ seg', memsGarbageCollector seg timegap cur_time = some seg' ∧
    Collected seg timegap cur_time (zoneHdrs seg.stMEMSZONE) seg'
  views : ∃ visits, memsView seg timegap cur_time = some visits ∧
    (visits.map Prod.fst).Perm (zoneHdrs seg.stMEMSZONE)

end Laid

/-- Two headers that do not overlap. -/
def HdrsApart (first second : Nat) : Prop :=
  first + stMEMSNODEHDR_SIZE ≤ second ∨ second + stMEMSNODEHDR_SIZE ≤ first

instance : Std.Symm HdrsApart := ⟨fun _ _ => Or.symm⟩

section Addresses

theorem zone_pindex_hdrs (zone : MemsZone) (shift : Nat) :
    zonePIndex (shift + zone.offsetNodeStart) zone =
      (List.range zone.uiMemNodeTotCnt).map fun index => zone.hdrOffset index + shift := by
  apply List.map_congr_left
  intro index _
  rw [MemsZone.hdrOffset, MemsZone.stride, Nat.mul_comm]
  omega

theorem pindexes_zero_cons (zone : MemsZone) (rest : List MemsZone) :
    pIndexes 0 (zone :: rest) =
      (List.range zone.uiMemNodeTotCnt).map zone.hdrOffset ++
        pIndexes zone.offsetNodeStart rest := by
  rw [pIndexes, zone_pindex_hdrs, Nat.zero_add]
  rfl

theorem zone_hdrs_cons (zone : MemsZone) (rest : List MemsZone) :
    zoneHdrs (zone :: rest) =
      (List.range zone.uiMemNodeTotCnt).map zone.hdrOffset ++ zoneHdrs rest := by
  simp [zoneHdrs]

theorem pindexes_empty {zones : List MemsZone} (empty : ∀ zone ∈ zones, zone.uiMemNodeTotCnt = 0)
    (pBase : Nat) : pIndexes pBase zones = [] ∧ zoneHdrs zones = [] := by
  induction zones generalizing pBase with
  | nil => exact ⟨rfl, rfl⟩
  | cons zone rest ih =>
      have none := empty zone (by simp)
      have later := ih (fun other member => empty other (by simp [member]))
        (pBase + zone.offsetNodeStart)
      constructor
      · simp [pIndexes, zonePIndex, none, later.1]
      · rw [zone_hdrs_cons, none, later.2]
        rfl

/-- Only the first zone is walked at its own addresses. -/
theorem pindexes_first {zones : List MemsZone}
    (empty : ∀ zone ∈ zones.tail, zone.uiMemNodeTotCnt = 0) :
    pIndexes 0 zones = zoneHdrs zones := by
  cases zones with
  | nil => rfl
  | cons zone rest =>
      have behind : ∀ other ∈ rest, other.uiMemNodeTotCnt = 0 := empty
      obtain ⟨walked, headers⟩ := pindexes_empty behind zone.offsetNodeStart
      rw [pindexes_zero_cons, zone_hdrs_cons, walked, headers]

theorem sum_map_add (list : List Nat) (place : Nat → Nat) (shift : Nat) :
    (list.map fun index => place index + shift).sum = (list.map place).sum + list.length * shift := by
  induction list with
  | nil => simp
  | cons index rest ih =>
      simp only [List.map_cons, List.sum_cons, List.length_cons, ih, Nat.succ_mul]
      omega

/-- The base runs ahead of the zones: the addresses sum up to no less than the headers, and to
more once a zone with nodes is walked from a base that has moved. -/
theorem pindexes_sum (zones : List MemsZone) (pBase : Nat) :
    (zoneHdrs zones).sum ≤ (pIndexes pBase zones).sum ∧
      (0 < pBase → (∃ zone ∈ zones, 0 < zone.uiMemNodeTotCnt) →
        (zoneHdrs zones).sum < (pIndexes pBase zones).sum) := by
  induction zones generalizing pBase with
  | nil => simp [zoneHdrs, pIndexes]
  | cons zone rest ih =>
      obtain ⟨atLeast, more⟩ := ih (pBase + zone.offsetNodeStart)
      have headers : (zoneHdrs (zone :: rest)).sum =
          ((List.range zone.uiMemNodeTotCnt).map zone.hdrOffset).sum + (zoneHdrs rest).sum := by
        rw [zone_hdrs_cons, List.sum_append]
      have walked : (pIndexes pBase (zone :: rest)).sum =
          ((List.range zone.uiMemNodeTotCnt).map zone.hdrOffset).sum +
            zone.uiMemNodeTotCnt * pBase +
              (pIndexes (pBase + zone.offsetNodeStart) rest).sum := by
        rw [pIndexes, List.sum_append, zone_pindex_hdrs, sum_map_add, List.length_range]
      rw [headers, walked]
      refine ⟨by omega, ?_⟩
      rintro moved ⟨other, member, populated⟩
      rcases List.mem_cons.mp member with rfl | later
      · have shifted : 0 < other.uiMemNodeTotCnt * pBase := Nat.mul_pos populated moved
        omega
      · have := more (by omega) ⟨other, later, populated⟩
        omega

/-- A zone with nodes behind the first one is not walked. -/
theorem pindexes_perm_empty {zones : List MemsZone}
    (start : ∀ zone ∈ zones, 0 < zone.offsetNodeStart)
    (visited : (pIndexes 0 zones).Perm (zoneHdrs zones)) :
    ∀ zone ∈ zones.tail, zone.uiMemNodeTotCnt = 0 := by
  cases zones with
  | nil => simp
  | cons first rest =>
      intro zone member
      have behind : zone ∈ rest := member
      by_contra populated
      have same := visited.sum_eq
      have more := (pindexes_sum rest first.offsetNodeStart).2 (start first (by simp))
        ⟨zone, behind, Nat.pos_of_ne_zero populated⟩
      rw [pindexes_zero_cons, zone_hdrs_cons, List.sum_append, List.sum_append] at same
      omega

end Addresses

section Sweep

variable {seg seg' seg'' : MemsSegment} {timegap cur_time : Int} {hdr : Nat} {hdrs : List Nat}

theorem hdr_read_kept
    (same : ∀ place, hdr ≤ place → place < hdr + 13 → seg'.byteAt place = seg.byteAt place) :
    seg'.uiID hdr = seg.uiID hdr ∧ seg'.uiZoneID hdr = seg.uiZoneID hdr ∧
      seg'.TimeSec hdr = seg.TimeSec hdr ∧ seg'.ucIsFree hdr = seg.ucIsFree hdr := by
  have word : ∀ shift, shift + 4 ≤ 13 →
      readBytes seg'.byteAt (hdr + shift) 4 = readBytes seg.byteAt (hdr + shift) 4 := by
    intro shift within
    apply read_bytes_congr
    intro place after before
    exact same place (by omega) (by omega)
  refine ⟨?_, ?_, ?_, same (hdr + 12) (by omega) (by omega)⟩
  · exact congrArg fromLe (word 0 (by omega))
  · exact congrArg fromLe (word 4 (by omega))
  · exact congrArg (fun bytes => s32 (fromLe bytes)) (word 8 (by omega))

/-- A header that `mems_free` accepts when the node is in use, inside the memory. -/
structure Intact (seg : MemsSegment) (hdr : Nat) : Prop where
  inside : hdr + stMEMSNODEHDR_SIZE ≤ seg.size
  id : seg.uiID hdr = MEMS_ID
  zone : seg.uiZoneID hdr < MAX_MEMSZONE_CNT

/-- The sum the loops compute for an ALLOCED node is an `int`. -/
def InTime (seg : MemsSegment) (timegap : Int) (hdr : Nat) : Prop :=
  seg.ucIsFree hdr = MEMS_ALLOCED → InInt (seg.TimeSec hdr + timegap)

theorem too_old_iff (intact : Intact seg hdr) (inTime : InTime seg timegap hdr) :
    seg.tooOld timegap cur_time hdr = some (decide (seg.Expired timegap cur_time hdr)) := by
  have inside := intact.inside
  rw [MemsSegment.tooOld, if_neg (by omega)]
  by_cases alloced : seg.ucIsFree hdr = MEMS_ALLOCED
  · rw [if_neg (not_not.mpr alloced), if_neg (not_not.mpr (inTime alloced))]
    simp [MemsSegment.Expired, alloced]
  · rw [if_pos alloced]
    simp [MemsSegment.Expired, alloced]

theorem collected_same (kept : ¬seg.Expired timegap cur_time hdr) :
    Collected seg timegap cur_time [hdr] seg := by
  refine ⟨rfl, rfl, ?_, fun _ _ => rfl, ?_⟩
  · intro other member expired
    rw [List.mem_singleton.mp member] at expired
    exact absurd expired kept
  · intro zoneID
    simp [kept]

theorem collect_step (intact : Intact seg hdr) (inTime : InTime seg timegap hdr) :
    ∃ seg', seg.collect timegap cur_time hdr = some seg' ∧
      Collected seg timegap cur_time [hdr] seg' := by
  rw [MemsSegment.collect, too_old_iff intact inTime]
  by_cases expired : seg.Expired timegap cur_time hdr
  · have zone := intact.zone
    simp only [expired, decide_true]
    rw [MemsSegment.free, if_neg (by simp [intact.id, expired.1]), if_neg (by omega)]
    refine ⟨_, rfl, rfl, rfl, ?_, ?_, ?_⟩
    · intro other member _
      rw [List.mem_singleton.mp member]
      simp [MemsSegment.ucIsFree]
    · intro place elsewhere
      exact Function.update_of_ne (elsewhere hdr (by simp) expired) _ _
    · intro zoneID
      by_cases own : seg.uiZoneID hdr = zoneID
      · subst own
        simp [expired]
      · simp [expired, own, Function.update_of_ne (Ne.symm own)]
  · simp only [expired, decide_false]
    exact ⟨seg, rfl, collected_same expired⟩

/-- A header 13 bytes or more away is read as before. -/
theorem collected_apart (collected : Collected seg timegap cur_time [hdr] seg') {other : Nat}
    (apart : HdrsApart hdr other) :
    seg'.uiID other = seg.uiID other ∧ seg'.uiZoneID other = seg.uiZoneID other ∧
      seg'.TimeSec other = seg.TimeSec other ∧ seg'.ucIsFree other = seg.ucIsFree other := by
  simp only [HdrsApart, stMEMSNODEHDR_SIZE] at apart
  apply hdr_read_kept
  intro place after before
  apply collected.others
  intro freed member _
  rw [List.mem_singleton.mp member]
  omega

theorem collected_cons (first : Collected seg timegap cur_time [hdr] seg')
    (apart : ∀ other ∈ hdrs, HdrsApart hdr other)
    (rest : Collected seg' timegap cur_time hdrs seg'') :
    Collected seg timegap cur_time (hdr :: hdrs) seg'' := by
  have expires : ∀ other ∈ hdrs,
      (seg'.Expired timegap cur_time other ↔ seg.Expired timegap cur_time other) := by
    intro other member
    obtain ⟨-, -, time, use⟩ := collected_apart first (apart other member)
    rw [MemsSegment.Expired, MemsSegment.Expired, time, use]
  refine ⟨rest.zones.trans first.zones, rest.size.trans first.size, ?_, ?_, ?_⟩
  · intro other member expired
    rcases List.mem_cons.mp member with rfl | later
    · rw [← first.freed other (by simp) expired]
      apply rest.others
      intro freed member _
      have away := apart freed member
      simp only [HdrsApart, stMEMSNODEHDR_SIZE] at away
      omega
    · exact rest.freed other later ((expires other later).mpr expired)
  · intro place elsewhere
    rw [rest.others place, first.others place]
    · intro other member expired
      rw [List.mem_singleton.mp member] at expired ⊢
      exact elsewhere hdr (by simp) expired
    · intro other member expired
      exact elsewhere other (by simp [member]) ((expires other member).mp expired)
  · intro zoneID
    have later : (hdrs.countP fun other =>
          seg'.Expired timegap cur_time other ∧ seg'.uiZoneID other = zoneID) =
        hdrs.countP fun other =>
          seg.Expired timegap cur_time other ∧ seg.uiZoneID other = zoneID := by
      apply List.countP_congr
      intro other member
      obtain ⟨-, zone, -, -⟩ := collected_apart first (apart other member)
      simp [expires other member, zone]
    rw [rest.deleted, first.deleted, later, BitVec.add_assoc, ← BitVec.ofNat_add]
    rw [List.countP_singleton, List.countP_cons, Nat.add_comm]

/-- The whole loop, over headers that do not overlap. -/
theorem collect_all (apart : hdrs.Pairwise HdrsApart)
    (intact : ∀ hdr ∈ hdrs, Intact seg hdr) (inTime : ∀ hdr ∈ hdrs, InTime seg timegap hdr) :
    ∃ seg', hdrs.foldlM (MemsSegment.collect timegap cur_time) seg = some seg' ∧
      Collected seg timegap cur_time hdrs seg' := by
  induction hdrs generalizing seg with
  | nil => exact ⟨seg, rfl, rfl, rfl, by simp, fun _ _ => rfl, by simp⟩
  | cons hdr rest ih =>
      rw [List.pairwise_cons] at apart
      have stepped : ∃ seg₁, seg.collect timegap cur_time hdr = some seg₁ ∧
          Collected seg timegap cur_time [hdr] seg₁ :=
        collect_step (intact hdr (by simp)) (inTime hdr (by simp))
      obtain ⟨seg₁, step, first⟩ := stepped
      have intact₁ : ∀ other ∈ rest, Intact seg₁ other := by
        intro other member
        obtain ⟨id, zone, -, -⟩ := collected_apart first (apart.1 other member)
        have before := intact other (by simp [member])
        exact ⟨by rw [first.size]; exact before.inside, by rw [id]; exact before.id,
          by rw [zone]; exact before.zone⟩
      have inTime₁ : ∀ other ∈ rest, InTime seg₁ timegap other := by
        intro other member
        obtain ⟨-, -, time, use⟩ := collected_apart first (apart.1 other member)
        rw [InTime, time, use]
        exact inTime other (by simp [member])
      obtain ⟨seg₂, run, later⟩ := ih apart.2 intact₁ inTime₁
      refine ⟨seg₂, ?_, collected_cons first apart.1 later⟩
      rw [List.foldlM_cons, step]
      exact run

end Sweep

section Pool

variable {seg : MemsSegment} {timegap cur_time : Int} {hdr : Nat}

theorem mem_zone_hdrs {zones : List MemsZone} :
    hdr ∈ zoneHdrs zones ↔ ∃ (zoneID : Nat) (zone : MemsZone), zones[zoneID]? = some zone ∧
      ∃ index < zone.uiMemNodeTotCnt, hdr = zone.hdrOffset index := by
  simp only [zoneHdrs, List.mem_flatMap, List.mem_map, List.mem_range]
  constructor
  · rintro ⟨zone, member, index, bound, rfl⟩
    obtain ⟨zoneID, found⟩ := List.getElem?_of_mem member
    exact ⟨zoneID, zone, found, index, bound, rfl⟩
  · rintro ⟨zoneID, zone, found, index, bound, rfl⟩
    exact ⟨zone, List.mem_of_getElem? found, index, bound, rfl⟩

/-- Headers of one zone, and of zones one after the other, never overlap. -/
theorem zone_hdrs_apart {zones : List MemsZone}
    (order : zones.Pairwise fun zone later => zone.offsetNodeEnd ≤ later.offsetNodeStart)
    (finish : ∀ zone ∈ zones, zone.offsetNodeEnd = zone.hdrOffset zone.uiMemNodeTotCnt) :
    (zoneHdrs zones).Pairwise HdrsApart := by
  induction zones with
  | nil => exact List.Pairwise.nil
  | cons zone rest ih =>
      rw [List.pairwise_cons] at order
      rw [zone_hdrs_cons, List.pairwise_append]
      refine ⟨?_, ih order.2 fun other member => finish other (by simp [member]), ?_⟩
      · rw [List.pairwise_map]
        apply List.pairwise_lt_range.imp
        intro first second before
        have steps := hdr_offset_lt zone before
        simp only [MemsZone.stride] at steps
        left
        omega
      · intro first member second member'
        rw [List.mem_map] at member
        obtain ⟨index, bound, rfl⟩ := member
        rw [List.mem_range] at bound
        obtain ⟨zoneID, other, found, place, -, rfl⟩ := mem_zone_hdrs.mp member'
        have gap := order.1 other (List.mem_of_getElem? found)
        have within := hdr_offset_lt zone bound
        rw [finish zone (by simp)] at gap
        simp only [MemsZone.stride, MemsZone.hdrOffset] at within gap ⊢
        left
        omega

theorem laid_intact (laid : Laid seg) (member : hdr ∈ zoneHdrs seg.stMEMSZONE) :
    Intact seg hdr := by
  obtain ⟨zoneID, zone, found, index, bound, rfl⟩ := mem_zone_hdrs.mp member
  obtain ⟨id, own⟩ := laid.header zoneID zone found index bound
  have listed := List.mem_of_getElem? found
  have within := hdr_offset_lt zone bound
  have fits := laid.fits zone listed
  rw [laid.finish zone listed] at fits
  simp only [MemsZone.stride] at within
  refine ⟨by omega, id, ?_⟩
  rw [own]
  obtain ⟨inside, -⟩ := List.getElem?_eq_some_iff.mp found
  exact Nat.lt_of_lt_of_le inside laid.count

/-- What the view looks at is what the addresses run through. -/
theorem view_visits {list : List Nat} {visits : List (Nat × Bool)}
    (viewed : (list.mapM fun hdr =>
      (seg.tooOld timegap cur_time hdr).map fun printed => (hdr, printed)) = some visits) :
    visits.map Prod.fst = list ∧ ∀ hdr ∈ list, seg.tooOld timegap cur_time hdr ≠ none := by
  induction list generalizing visits with
  | nil =>
      obtain rfl : [] = visits := Option.some.inj viewed
      simp
  | cons hdr rest ih =>
      rw [List.mapM_cons] at viewed
      cases tested : seg.tooOld timegap cur_time hdr with
      | none => simp [tested] at viewed
      | some printed =>
          cases later : (rest.mapM fun hdr =>
              (seg.tooOld timegap cur_time hdr).map fun printed => (hdr, printed)) with
          | none => simp [tested, later] at viewed
          | some others =>
              simp only [tested, later, Option.map_some] at viewed
              obtain rfl : (hdr, printed) :: others = visits := Option.some.inj viewed
              obtain ⟨visited, seen⟩ := ih later
              refine ⟨by simp [visited], ?_⟩
              intro other member
              rcases List.mem_cons.mp member with rfl | behind
              · rw [tested]
                exact Option.some_ne_none _
              · exact seen other behind

theorem view_all {list : List Nat}
    (seen : ∀ hdr ∈ list, seg.tooOld timegap cur_time hdr ≠ none) :
    ∃ visits, (list.mapM fun hdr =>
      (seg.tooOld timegap cur_time hdr).map fun printed => (hdr, printed)) = some visits := by
  induction list with
  | nil => exact ⟨[], rfl⟩
  | cons hdr rest ih =>
      obtain ⟨printed, tested⟩ := Option.ne_none_iff_exists'.mp (seen hdr (by simp))
      obtain ⟨others, later⟩ := ih fun other member => seen other (by simp [member])
      exact ⟨(hdr, printed) :: others, by simp [List.mapM_cons, tested, later]⟩

theorem too_old_in_time (tested : seg.tooOld timegap cur_time hdr ≠ none) :
    InTime seg timegap hdr := by
  intro alloced
  by_contra outside
  apply tested
  rw [MemsSegment.tooOld, if_neg (not_not.mpr alloced), if_pos outside]
  exact ite_self _

/-- A pool is swept as it should exactly when no zone but the first has nodes and no ALLOCED
node's time overflows with the gap. -/
theorem sweeps_iff (laid : Laid seg) :
    Sweeps seg timegap cur_time ↔
      (∀ zone ∈ seg.stMEMSZONE.tail, zone.uiMemNodeTotCnt = 0) ∧
        ∀ hdr ∈ zoneHdrs seg.stMEMSZONE, seg.ucIsFree hdr = MEMS_ALLOCED →
          InInt (seg.TimeSec hdr + timegap) := by
  constructor
  · intro sweeps
    obtain ⟨visits, viewed, same⟩ := sweeps.views
    obtain ⟨visited, seen⟩ := view_visits viewed
    rw [visited] at same
    refine ⟨pindexes_perm_empty laid.start same, ?_⟩
    intro hdr member
    exact too_old_in_time (seen hdr (same.mem_iff.mpr member))
  · rintro ⟨empty, inTime⟩
    have walked := pindexes_first empty
    have intact : ∀ hdr ∈ zoneHdrs seg.stMEMSZONE, Intact seg hdr :=
      fun hdr member => laid_intact laid member
    constructor
    · rw [memsGarbageCollector, walked]
      exact collect_all (zone_hdrs_apart laid.order laid.finish) intact inTime
    · have seen : ∀ hdr ∈ pIndexes 0 seg.stMEMSZONE, seg.tooOld timegap cur_time hdr ≠ none := by
        intro hdr member
        rw [walked] at member
        rw [too_old_iff (intact hdr member) (inTime hdr member)]
        exact Option.some_ne_none _
      obtain ⟨visits, viewed⟩ := view_all seen
      refine ⟨visits, viewed, ?_⟩
      rw [(view_visits viewed).1, walked]

end Pool

section Image

variable {seg seg' : MemsSegment} {pool : MemsPool} {timegap cur_time : Int} {hdr : Nat}

/-- The bytes hold the headers of the pool. -/
structure Image (seg : MemsSegment) (pool : MemsPool) : Prop where
  zones : seg.stMEMSZONE = pool.shm.stMEMSZONE
  counters : seg.delCnt = pool.delCnt
  header : ∀ hdr ∈ zoneHdrs seg.stMEMSZONE,
    seg.uiID hdr = (pool.shm.nodeHdr hdr).uiID ∧
      seg.uiZoneID hdr = (pool.shm.nodeHdr hdr).uiZoneID ∧
      (seg.ucIsFree hdr = MEMS_ALLOCED ↔ (pool.shm.nodeHdr hdr).ucIsFree = .alloced)

/-- The pools that `mems_init` and the allocator keep are laid out in the segment. -/
theorem image_laid (image : Image seg pool) (wf : PoolWf pool.shm)
    (count : pool.shm.stMEMSZONE.length ≤ MAX_MEMSZONE_CNT) (size : MEMS_SHM_SIZE ≤ seg.size) :
    Laid seg := by
  have zoneWf : ∀ zone ∈ seg.stMEMSZONE, ∃ zoneID, ZoneWf zoneID zone := by
    intro zone member
    obtain ⟨zoneID, found⟩ := List.getElem?_of_mem member
    rw [image.zones] at found
    exact ⟨zoneID, wf.zone zoneID zone found⟩
  refine ⟨?_, ?_, ?_, ?_, ?_, ?_⟩
  · rw [image.zones]
    exact count
  · intro zone member
    obtain ⟨zoneID, own⟩ := zoneWf zone member
    exact own.start
  · intro zone member
    obtain ⟨zoneID, own⟩ := zoneWf zone member
    exact own.finish
  · intro zone member
    obtain ⟨zoneID, own⟩ := zoneWf zone member
    exact Nat.le_trans own.small size
  · rw [image.zones]
    exact wf.order
  · intro zoneID zone found index bound
    obtain ⟨id, own, -⟩ := image.header _ (mem_zone_hdrs.mpr ⟨zoneID, zone, found, index, bound, rfl⟩)
    rw [image.zones] at found
    rw [id, own]
    exact wf.header zoneID zone found index bound

theorem read_update_outside (byteAt : Nat → UInt8) (value : UInt8) {place ptr size : Nat}
    (outside : place < ptr ∨ ptr + size ≤ place) :
    readBytes (Function.update byteAt place value) ptr size = readBytes byteAt ptr size := by
  apply read_bytes_congr
  intro other after before
  exact Function.update_of_ne (by omega) _ _

/-- Freeing through the bytes is freeing in the pool. -/
theorem free_image (image : Image seg pool) (laid : Laid seg)
    (member : hdr ∈ zoneHdrs seg.stMEMSZONE) (freed : seg.free hdr = some seg') :
    Image seg' (pool.free (hdr + stMEMSNODEHDR_SIZE)).2 := by
  obtain ⟨id, own, use⟩ := image.header hdr member
  have intact := laid_intact laid member
  by_cases alloced : seg.ucIsFree hdr = MEMS_ALLOCED
  · have inRange := intact.zone
    rw [MemsSegment.free, if_neg (by simp [intact.id, alloced]), if_neg (by omega)] at freed
    have accepted : ¬((pool.shm.nodeHdr hdr).uiID ≠ MEMS_ID ∨
        (pool.shm.nodeHdr hdr).ucIsFree ≠ .alloced) := by
      simp [← id, intact.id, use.mp alloced]
    simp only [MemsPool.free, memsFree, Nat.add_sub_cancel, if_neg accepted]
    cases freed
    refine ⟨image.zones, by simp [image.counters, own], ?_⟩
    intro other member'
    obtain ⟨id', own', use'⟩ := image.header other member'
    by_cases same : other = hdr
    · subst same
      dsimp only [MemsSegment.uiID, MemsSegment.uiZoneID, MemsSegment.ucIsFree, MemsInfo.setUse]
      rw [read_update_outside _ _ (by omega), read_update_outside _ _ (by omega)]
      simp only [Function.update_self]
      exact ⟨id, own, by simp [MEMS_FREE, MEMS_ALLOCED]⟩
    · have apart : HdrsApart hdr other :=
        (zone_hdrs_apart laid.order laid.finish).forall member member' (Ne.symm same)
      simp only [HdrsApart, stMEMSNODEHDR_SIZE] at apart
      dsimp only [MemsSegment.uiID, MemsSegment.uiZoneID, MemsSegment.ucIsFree, MemsInfo.setUse]
      rw [read_update_outside _ _ (by omega), read_update_outside _ _ (by omega)]
      simp only [Function.update_of_ne same,
        Function.update_of_ne (show other + 12 ≠ hdr + 12 by omega)]
      exact ⟨id', own', use'⟩
  · rw [MemsSegment.free, if_pos (Or.inr alloced)] at freed
    have refused : (pool.shm.nodeHdr hdr).uiID ≠ MEMS_ID ∨
        (pool.shm.nodeHdr hdr).ucIsFree ≠ .alloced := Or.inr fun held => alloced (use.mpr held)
    simp only [MemsPool.free, memsFree, Nat.add_sub_cancel, if_pos refused]
    cases freed
    exact image

/-- The collector's turn at a header is a request to the pool, or none. -/
theorem collect_image (image : Image seg pool) (laid : Laid seg)
    (member : hdr ∈ zoneHdrs seg.stMEMSZONE) (inTime : InTime seg timegap hdr)
    (turn : seg.collect timegap cur_time hdr = some seg') :
    Image seg' (pool.serveAll
      (if seg.Expired timegap cur_time hdr then [.free (hdr + stMEMSNODEHDR_SIZE)] else [])) := by
  rw [MemsSegment.collect, too_old_iff (laid_intact laid member) inTime] at turn
  by_cases expired : seg.Expired timegap cur_time hdr
  · simp only [expired, decide_true] at turn
    rw [if_pos expired]
    exact free_image image laid member turn
  · simp only [expired, decide_false, Option.some.injEq] at turn
    rw [if_neg expired, ← turn]
    exact image

theorem laid_collected (laid : Laid seg) (member : hdr ∈ zoneHdrs seg.stMEMSZONE)
    (collected : Collected seg timegap cur_time [hdr] seg') : Laid seg' := by
  have word : ∀ other ∈ zoneHdrs seg.stMEMSZONE,
      seg'.uiID other = seg.uiID other ∧ seg'.uiZoneID other = seg.uiZoneID other := by
    intro other member'
    have kept : ∀ place, other ≤ place → place < other + 12 →
        seg'.byteAt place = seg.byteAt place := by
      intro place after before
      apply collected.others
      intro freed single _
      rw [List.mem_singleton.mp single]
      by_cases same : hdr = other
      · omega
      · have apart := (zone_hdrs_apart laid.order laid.finish).forall member member' same
        simp only [HdrsApart, stMEMSNODEHDR_SIZE] at apart
        omega
    constructor
    · apply congrArg fromLe
      exact read_bytes_congr fun place after before => kept place after (by omega)
    · apply congrArg fromLe
      exact read_bytes_congr fun place after before => kept place (by omega) (by omega)
  refine ⟨?_, ?_, ?_, ?_, ?_, ?_⟩
  · rw [collected.zones]
    exact laid.count
  · rw [collected.zones]
    exact laid.start
  · rw [collected.zones]
    exact laid.finish
  · rw [collected.zones, collected.size]
    exact laid.fits
  · rw [collected.zones]
    exact laid.order
  · intro zoneID zone found index bound
    rw [collected.zones] at found
    obtain ⟨id, own⟩ := word _ (mem_zone_hdrs.mpr ⟨zoneID, zone, found, index, bound, rfl⟩)
    rw [id, own]
    exact laid.header zoneID zone found index bound

/-- The frees the collector asks the pool for. -/
def MemsSegment.requests (seg : MemsSegment) (timegap cur_time : Int) (hdrs : List Nat) :
    List Request :=
  (hdrs.filter fun hdr => seg.Expired timegap cur_time hdr).map fun hdr =>
    .free (hdr + stMEMSNODEHDR_SIZE)

/-- Over headers of the pool the collector is a run of `mems_free` calls. -/
theorem collector_serves {hdrs : List Nat} (image : Image seg pool) (laid : Laid seg)
    (apart : hdrs.Pairwise HdrsApart) (within : ∀ hdr ∈ hdrs, hdr ∈ zoneHdrs seg.stMEMSZONE)
    (inTime : ∀ hdr ∈ hdrs, InTime seg timegap hdr)
    (run : hdrs.foldlM (MemsSegment.collect timegap cur_time) seg = some seg') :
    Image seg' (pool.serveAll (seg.requests timegap cur_time hdrs)) := by
  induction hdrs generalizing seg pool with
  | nil =>
      obtain rfl : seg = seg' := Option.some.inj run
      exact image
  | cons hdr rest ih =>
      rw [List.pairwise_cons] at apart
      have member := within hdr (by simp)
      obtain ⟨seg₁, turn, collected⟩ : ∃ seg₁, seg.collect timegap cur_time hdr = some seg₁ ∧
          Collected seg timegap cur_time [hdr] seg₁ :=
        collect_step (laid_intact laid member) (inTime hdr (by simp))
      have image₁ := collect_image image laid member (inTime hdr (by simp)) turn
      have later : ∀ other ∈ rest,
          seg₁.TimeSec other = seg.TimeSec other ∧ seg₁.ucIsFree other = seg.ucIsFree other :=
        fun other behind => (collected_apart collected (apart.1 other behind)).2.2
      rw [List.foldlM_cons, turn] at run
      have served := ih image₁ (laid_collected laid member collected) apart.2
        (fun other behind => by
          rw [collected.zones]
          exact within other (by simp [behind]))
        (fun other behind => by
          rw [InTime, (later other behind).1, (later other behind).2]
          exact inTime other (by simp [behind])) run
      have same : seg₁.requests timegap cur_time rest = seg.requests timegap cur_time rest := by
        apply congrArg (List.map _)
        apply List.filter_congr
        intro other behind
        rw [decide_eq_decide, MemsSegment.Expired, MemsSegment.Expired, (later other behind).1,
          (later other behind).2]
      rw [same, MemsPool.serveAll, MemsPool.serveAll, ← List.foldl_append] at served
      have split : seg.requests timegap cur_time (hdr :: rest) =
          (if seg.Expired timegap cur_time hdr then [.free (hdr + stMEMSNODEHDR_SIZE)] else []) ++
            seg.requests timegap cur_time rest := by
        by_cases expired : seg.Expired timegap cur_time hdr
        · simp [MemsSegment.requests, expired]
        · simp [MemsSegment.requests, expired]
      rw [MemsPool.serveAll, split]
      exact served

theorem pool_free_zones (node : Nat) :
    (pool.free node).2.shm.stMEMSZONE = pool.shm.stMEMSZONE := by
  by_cases refused : (pool.shm.nodeHdr (node - stMEMSNODEHDR_SIZE)).uiID ≠ MEMS_ID ∨
      (pool.shm.nodeHdr (node - stMEMSNODEHDR_SIZE)).ucIsFree ≠ .alloced
  · simp only [MemsPool.free, memsFree, if_pos refused]
  · simp only [MemsPool.free, memsFree, if_neg refused, set_use_zone]

theorem frees_proper (frees : List Nat)
    (within : ∀ node ∈ frees, ∃ zoneID, NodeIn pool.shm zoneID node) :
    pool.ProperSteps (frees.map .free) := by
  induction frees generalizing pool with
  | nil => exact trivial
  | cons node rest ih =>
      refine ⟨Or.inl (within node (by simp)), ih fun other behind => ?_⟩
      simp only [MemsPool.serve, NodeIn, pool_free_zones]
      exact within other (by simp [behind])

/-- After any run of requests a pass of the collector over a pool of one zone is a run of
`mems_free` calls too, and the allocator keeps what it promises. -/
theorem collector_keeps_sound {conf : MemsConf} {raw shm : MemsInfo} (checked : ConfWf conf)
    (created : memsInit conf raw = some shm) (requests : List Request)
    (proper : (MemsPool.init shm).ProperSteps requests)
    (image : Image seg ((MemsPool.init shm).serveAll requests))
    (single : seg.stMEMSZONE.length = 1) (size : MEMS_SHM_SIZE ≤ seg.size)
    (inTime : ∀ hdr ∈ zoneHdrs seg.stMEMSZONE, InTime seg timegap hdr) :
    ∃ seg', memsGarbageCollector seg timegap cur_time = some seg' ∧
      Image seg' ((MemsPool.init shm).serveAll
        (requests ++ seg.requests timegap cur_time (zoneHdrs seg.stMEMSZONE))) ∧
      Sound ((MemsPool.init shm).serveAll
        (requests ++ seg.requests timegap cur_time (zoneHdrs seg.stMEMSZONE))) := by
  have accounted := serve_all_accounted (init_accounted checked created) requests proper
  have laid : Laid seg := by
    refine image_laid image accounted.wf ?_ size
    rw [← image.zones, single]
    decide
  have apart := zone_hdrs_apart laid.order laid.finish
  obtain ⟨seg', run, -⟩ := collect_all apart (fun hdr member => laid_intact laid member) inTime
  have served := collector_serves image laid apart (fun _ member => member) inTime run
  have frees : ((MemsPool.init shm).serveAll requests).ProperSteps
      (seg.requests timegap cur_time (zoneHdrs seg.stMEMSZONE)) := by
    rw [MemsSegment.requests, ← Function.comp_def, ← List.map_map]
    apply frees_proper
    intro node listed
    obtain ⟨hdr, expired, rfl⟩ := List.mem_map.mp listed
    obtain ⟨zoneID, zone, found, index, bound, rfl⟩ :=
      mem_zone_hdrs.mp (List.mem_filter.mp expired).1
    rw [image.zones] at found
    exact ⟨zoneID, zone, index, found, bound, rfl⟩
  rw [MemsPool.serveAll, List.foldl_append]
  refine ⟨seg', ?_, served, accounted_sound (serve_all_accounted accounted _ frees)⟩
  rw [memsGarbageCollector, pindexes_first]
  · exact run
  · intro zone behind
    rw [List.eq_nil_of_length_eq_zero (l := seg.stMEMSZONE.tail) (by simp [single])] at behind
    cases behind

end Image

section Examples

/-- One header as `mems_init` and `mems_alloc` write it. -/
def hdrBytes (uiZoneID TimeSec : Nat) (use : UInt8) : List UInt8 :=
  le32 MEMS_ID ++ le32 uiZoneID ++ le32 TimeSec ++ [use]

def smallZone (uiZoneID start : Nat) : MemsZone where
  uiZoneID := uiZoneID
  uiMemNodeBodySize := 4
  uiMemNodeTotCnt := 1
  offsetNodeStart := start
  offsetNodeEnd := start + 40

/-- One zone of one node, ALLOCED at time 50. -/
def oneZoneSegment : MemsSegment where
  stMEMSZONE := [smallZone 0 4760]
  delCnt := fun _ => 0
  size := MEMS_SHM_SIZE
  byteAt := writeBytes (fun _ => 0) 4760 (hdrBytes 0 50 MEMS_ALLOCED)

theorem one_zone_laid : Laid oneZoneSegment := by
  refine ⟨by decide, ?_, ?_, ?_, by decide, ?_⟩
  · simp [oneZoneSegment, smallZone]
  · simp [oneZoneSegment, smallZone, MemsZone.hdrOffset, MemsZone.stride, stMEMSNODEHDR_SIZE]
  · simp [oneZoneSegment, smallZone, MEMS_SHM_SIZE]
  · intro zoneID zone found index bound
    cases zoneID with
    | succ later => simp [oneZoneSegment] at found
    | zero =>
        obtain rfl : smallZone 0 4760 = zone := Option.some.inj found
        obtain rfl : index = 0 := Nat.lt_one_iff.mp bound
        decide +kernel

theorem sweeps_iff_one_zone : Laid oneZoneSegment ∧ Sweeps oneZoneSegment 10 100 :=
  ⟨one_zone_laid, (sweeps_iff one_zone_laid).mpr (by decide +kernel)⟩

/-- Two zones of one node each, both ALLOCED at time 50. -/
def twoZoneSegment : MemsSegment where
  stMEMSZONE := [smallZone 0 4760, smallZone 1 4800]
  delCnt := fun _ => 0
  size := MEMS_SHM_SIZE
  byteAt := writeBytes (writeBytes (fun _ => 0) 4760 (hdrBytes 0 50 MEMS_ALLOCED))
    4800 (hdrBytes 1 50 MEMS_ALLOCED)

/-- The second zone is looked for at `4760 + 4800`: its node is neither freed nor viewed. -/
theorem second_zone_missed :
    4800 ∈ zoneHdrs twoZoneSegment.stMEMSZONE ∧ twoZoneSegment.Expired 10 100 4800 ∧
      (memsGarbageCollector twoZoneSegment 10 100).map (fun seg => seg.ucIsFree 4760) =
        some MEMS_FREE ∧
      (memsGarbageCollector twoZoneSegment 10 100).map (fun seg => seg.ucIsFree 4800) =
        some MEMS_ALLOCED ∧
      memsView twoZoneSegment 10 100 = some [(4760, true), (9560, false)] ∧
      ¬Sweeps twoZoneSegment 10 100 := by
  have view : memsView twoZoneSegment 10 100 = some [(4760, true), (9560, false)] := by
    decide +kernel
  refine ⟨by decide +kernel, by decide +kernel, by decide +kernel, by decide +kernel, view, ?_⟩
  intro sweeps
  obtain ⟨visits, viewed, same⟩ := sweeps.views
  obtain rfl := Option.some.inj (view.symm.trans viewed)
  exact absurd same (by decide +kernel)

/-- A zone of two nodes, the first ALLOCED at time 50. -/
def twoNodeSegment : MemsSegment where
  stMEMSZONE := oneZonePool.stMEMSZONE
  delCnt := fun _ => 0
  size := MEMS_SHM_SIZE
  byteAt := writeBytes (writeBytes (fun _ => 0) 4760 (hdrBytes 0 50 MEMS_ALLOCED))
    4868 (hdrBytes 0 0 MEMS_FREE)

theorem two_node_image :
    Image twoNodeSegment ((MemsPool.init oneZonePool).serveAll [.alloc 72 0]) := by
  refine ⟨rfl, rfl, ?_⟩
  intro hdr member
  have places : zoneHdrs twoNodeSegment.stMEMSZONE = [4760, 4868] := by decide +kernel
  rw [places, List.mem_pair] at member
  rcases member with rfl | rfl <;> decide +kernel

theorem collector_keeps_sound_one : ∃ seg', memsGarbageCollector twoNodeSegment 10 100 = some seg' ∧
    Image seg' ((MemsPool.init oneZonePool).serveAll [.alloc 72 0, .free 4796]) ∧
    Sound ((MemsPool.init oneZonePool).serveAll [.alloc 72 0, .free 4796]) := by
  have listed : twoNodeSegment.requests 10 100 (zoneHdrs twoNodeSegment.stMEMSZONE) =
      [.free 4796] := by decide +kernel
  have checked : ConfWf oneZoneConf.toMemsConf := by
    refine ⟨?_, by decide +kernel⟩
    intro index zone found
    cases index with
    | zero => exact (Option.some.inj found) ▸ rfl
    | succ later => simp [NifoConf.toMemsConf, oneZoneConf] at found
  have configured : (MemsPool.init oneZonePool).Proper (.alloc 72 0) :=
    show 0 < oneZonePool.stMEMSZONE.length by decide
  have inTime : ∀ hdr ∈ zoneHdrs twoNodeSegment.stMEMSZONE, InTime twoNodeSegment 10 hdr := by
    unfold InTime InInt
    decide +kernel
  have kept := @collector_keeps_sound twoNodeSegment 10 100 _ _ _ checked
    (Option.some_get _).symm [.alloc 72 0] ⟨configured, trivial⟩ two_node_image rfl (by decide)
    inTime
  rwa [listed] at kept

end Examples

end Upst.Mems
