import Upst.MemsConf
import Upst.Nifo
import Mathlib.Data.Finset.Card
import Mathlib.Data.Finset.Range

/-!
Whole runs of the zone allocator: `mems_alloc` and `mems_free` with the counters they
keep, from a pool that `mems_init` laid out for an accepted configuration.
-/

namespace Upst.Mems

set_option autoImplicit false

/-- The pool with the two `U64` counters of its zones. -/
structure MemsPool where
  shm : MemsInfo
  createCnt : Nat → BitVec 64
  delCnt : Nat → BitVec 64

def MemsPool.init (shm : MemsInfo) : MemsPool where
  shm := shm
  createCnt := fun _ => 0
  delCnt := fun _ => 0

def MemsPool.alloc (pool : MemsPool) (uiSize uiZoneID : Nat) : Option Nat × MemsPool :=
  match memsAlloc pool.shm uiSize uiZoneID with
  | (none, shm) => (none, { pool with shm := shm })
  | (some node, shm) =>
      (some node,
        { pool with
          shm := shm
          createCnt :=
            Function.update pool.createCnt uiZoneID (pool.createCnt uiZoneID + 1) })

/-- The counter of the zone named in the node's header goes up. -/
def MemsPool.free (pool : MemsPool) (node : Nat) : Int × MemsPool :=
  match memsFree pool.shm node with
  | none => (1, pool)
  | some shm =>
      let uiZoneID := (pool.shm.nodeHdr (node - stMEMSNODEHDR_SIZE)).uiZoneID
      (0,
        { pool with
          shm := shm
          delCnt := Function.update pool.delCnt uiZoneID (pool.delCnt uiZoneID + 1) })

section Scan

/-- Where the scan goes from header `index`: to the next one, from the last to the first. -/
theorem scan_advance {zone : MemsZone}
    (finish : zone.offsetNodeEnd = zone.hdrOffset zone.uiMemNodeTotCnt) {index : Nat}
    (bound : index < zone.uiMemNodeTotCnt) :
    (if zone.hdrOffset index + zone.stride = zone.offsetNodeEnd then zone.offsetNodeStart
      else zone.hdrOffset index + zone.stride) =
      zone.hdrOffset ((index + 1) % zone.uiMemNodeTotCnt) := by
  rw [← hdr_offset_succ, finish]
  rcases Nat.lt_or_ge (index + 1) zone.uiMemNodeTotCnt with inside | outside
  · have before := hdr_offset_lt zone inside
    have positive := stride_pos zone
    rw [if_neg (by omega), Nat.mod_eq_of_lt inside]
  · have last : index + 1 = zone.uiMemNodeTotCnt := by omega
    rw [if_pos (by rw [last]), last, Nat.mod_self]
    simp [MemsZone.hdrOffset]

/-- A scan that finds nothing has looked at the next `tries` headers. -/
theorem scan_none_passed (nodeHdr : Nat → MemsNodeHdr) {zoneID : Nat} {zone : MemsZone}
    (wf : ZoneWf zoneID zone) (tries index : Nat) (bound : index < zone.uiMemNodeTotCnt)
    (nothing : (memsScan nodeHdr zone tries (zone.hdrOffset index)).1 = none) :
    ∀ step < tries, (nodeHdr (zone.hdrOffset ((index + step) % zone.uiMemNodeTotCnt))).ucIsFree ≠
      .free := by
  induction tries generalizing index with
  | zero => exact fun step impossible => absurd impossible (Nat.not_lt_zero step)
  | succ tries ih =>
      simp only [memsScan, scan_advance wf.finish bound] at nothing
      split at nothing
      · cases nothing
      · next used =>
          have later := ih ((index + 1) % zone.uiMemNodeTotCnt)
            (Nat.mod_lt _ wf.populated) nothing
          intro step inside
          cases step with
          | zero => rwa [Nat.add_zero, Nat.mod_eq_of_lt bound]
          | succ step =>
              have passed := later step (Nat.lt_of_succ_lt_succ inside)
              rwa [Nat.mod_add_mod, Nat.add_assoc, Nat.add_comm 1] at passed

/-- With a try for every header, the scan finds nothing exactly when none is free. -/
theorem scan_none_iff (nodeHdr : Nat → MemsNodeHdr) {zoneID : Nat} {zone : MemsZone}
    (wf : ZoneWf zoneID zone) {tries index : Nat} (bound : index < zone.uiMemNodeTotCnt)
    (enough : zone.uiMemNodeTotCnt ≤ tries) :
    (memsScan nodeHdr zone tries (zone.hdrOffset index)).1 = none ↔
      ∀ place < zone.uiMemNodeTotCnt, (nodeHdr (zone.hdrOffset place)).ucIsFree = .alloced := by
  constructor
  · intro nothing place inside
    have passed := scan_none_passed nodeHdr wf tries index bound nothing
      ((place + zone.uiMemNodeTotCnt - index) % zone.uiMemNodeTotCnt)
      (Nat.lt_of_lt_of_le (Nat.mod_lt _ wf.populated) enough)
    have back : (index + (place + zone.uiMemNodeTotCnt - index) % zone.uiMemNodeTotCnt) %
        zone.uiMemNodeTotCnt = place := by
      rw [Nat.add_mod_mod]
      have whole : index + (place + zone.uiMemNodeTotCnt - index) =
          place + zone.uiMemNodeTotCnt := by omega
      rw [whole, Nat.add_mod_right, Nat.mod_eq_of_lt inside]
    rw [back] at passed
    cases used : (nodeHdr (zone.hdrOffset place)).ucIsFree with
    | free => exact absurd used passed
    | alloced => rfl
  · intro full
    by_contra found
    obtain ⟨hdr, stopped⟩ := Option.ne_none_iff_exists'.mp found
    obtain ⟨isFree, place, inside, rfl⟩ := (mems_scan_spec nodeHdr wf tries index bound).2 hdr stopped
    rw [full place inside] at isFree
    cases isFree

end Scan

section Counting

/-- The number of ALLOCED nodes of a zone. -/
def allocedCnt (shm : MemsInfo) (zone : MemsZone) : Nat :=
  ((Finset.range zone.uiMemNodeTotCnt).filter fun index =>
    (shm.nodeHdr (zone.hdrOffset index)).ucIsFree = .alloced).card

theorem hdr_offset_injective (zone : MemsZone) {first second : Nat}
    (same : zone.hdrOffset first = zone.hdrOffset second) : first = second := by
  have positive := stride_pos zone
  rcases Nat.lt_trichotomy first second with before | equal | after
  · have := hdr_offset_lt zone before
    omega
  · exact equal
  · have := hdr_offset_lt zone after
    omega

/-- Headers of two zones that lie one after the other are apart, by the size of the node
behind them. -/
theorem hdrs_apart {zones : List MemsZone}
    (order : zones.Pairwise fun zone later => zone.offsetNodeEnd ≤ later.offsetNodeStart)
    (finish : ∀ zone ∈ zones, zone.offsetNodeEnd = zone.hdrOffset zone.uiMemNodeTotCnt)
    {first second : Nat} {zone other : MemsZone} (found : zones[first]? = some zone)
    (found' : zones[second]? = some other) (distinct : first ≠ second) {place index : Nat}
    (inside : place < zone.uiMemNodeTotCnt) (inside' : index < other.uiMemNodeTotCnt) :
    zone.hdrOffset place + zone.stride ≤ other.hdrOffset index ∨
      other.hdrOffset index + other.stride ≤ zone.hdrOffset place := by
  have ordered := List.pairwise_iff_getElem.mp order
  have within := hdr_offset_lt zone inside
  have within' := hdr_offset_lt other inside'
  rw [← finish zone (List.mem_of_getElem? found)] at within
  rw [← finish other (List.mem_of_getElem? found')] at within'
  have start : zone.offsetNodeStart ≤ zone.hdrOffset place := Nat.le_add_right _ _
  have start' : other.offsetNodeStart ≤ other.hdrOffset index := Nat.le_add_right _ _
  obtain ⟨bound, same⟩ := List.getElem?_eq_some_iff.mp found
  obtain ⟨bound', same'⟩ := List.getElem?_eq_some_iff.mp found'
  rcases Nat.lt_or_gt_of_ne distinct with before | after
  · have gap := ordered first second bound bound' before
    rw [same, same'] at gap
    left
    omega
  · have gap := ordered second first bound' bound after
    rw [same, same'] at gap
    right
    omega

theorem pool_finish {shm : MemsInfo} (wf : PoolWf shm) :
    ∀ zone ∈ shm.stMEMSZONE, zone.offsetNodeEnd = zone.hdrOffset zone.uiMemNodeTotCnt := by
  intro zone member
  obtain ⟨zoneID, found⟩ := List.getElem?_of_mem member
  exact (wf.zone zoneID zone found).finish

theorem zones_apart {shm : MemsInfo} (wf : PoolWf shm) {first second : Nat}
    {zone other : MemsZone} (found : shm.stMEMSZONE[first]? = some zone)
    (found' : shm.stMEMSZONE[second]? = some other) (distinct : first ≠ second) {place index : Nat}
    (inside : place < zone.uiMemNodeTotCnt) (inside' : index < other.uiMemNodeTotCnt) :
    zone.hdrOffset place + zone.stride ≤ other.hdrOffset index ∨
      other.hdrOffset index + other.stride ≤ zone.hdrOffset place :=
  hdrs_apart wf.order (pool_finish wf) found found' distinct inside inside'

theorem alloced_cnt_congr {shm shm' : MemsInfo} {zone : MemsZone}
    (kept : ∀ index < zone.uiMemNodeTotCnt,
      (shm'.nodeHdr (zone.hdrOffset index)).ucIsFree =
        (shm.nodeHdr (zone.hdrOffset index)).ucIsFree) :
    allocedCnt shm' zone = allocedCnt shm zone := by
  unfold allocedCnt
  congr 1
  apply Finset.filter_congr
  intro index member
  rw [kept index (Finset.mem_range.mp member)]

/-- A node that becomes ALLOCED, and nothing else that changes, is one more. -/
theorem alloced_cnt_succ {shm shm' : MemsInfo} {zone : MemsZone} {place : Nat}
    (inside : place < zone.uiMemNodeTotCnt)
    (before : (shm.nodeHdr (zone.hdrOffset place)).ucIsFree ≠ .alloced)
    (after : (shm'.nodeHdr (zone.hdrOffset place)).ucIsFree = .alloced)
    (kept : ∀ hdr, hdr ≠ zone.hdrOffset place → shm'.nodeHdr hdr = shm.nodeHdr hdr) :
    allocedCnt shm' zone = allocedCnt shm zone + 1 := by
  have more : ((Finset.range zone.uiMemNodeTotCnt).filter fun index =>
      (shm'.nodeHdr (zone.hdrOffset index)).ucIsFree = .alloced) =
      insert place ((Finset.range zone.uiMemNodeTotCnt).filter fun index =>
        (shm.nodeHdr (zone.hdrOffset index)).ucIsFree = .alloced) := by
    ext index
    simp only [Finset.mem_filter, Finset.mem_range, Finset.mem_insert]
    by_cases same : index = place
    · simp [same, inside, after]
    · have apart : zone.hdrOffset index ≠ zone.hdrOffset place :=
        fun equal => same (hdr_offset_injective zone equal)
      rw [kept _ apart]
      simp [same]
  rw [allocedCnt, more, Finset.card_insert_of_notMem, allocedCnt]
  simp [before]

/-- Every zone's counters differ by its number of ALLOCED nodes. -/
structure Accounted (pool : MemsPool) : Prop where
  wf : PoolWf pool.shm
  balance : ∀ zoneID zone, pool.shm.stMEMSZONE[zoneID]? = some zone →
    pool.createCnt zoneID - pool.delCnt zoneID = BitVec.ofNat 64 (allocedCnt pool.shm zone)

theorem counter_succ (create del : BitVec 64) {count : Nat}
    (balance : create - del = BitVec.ofNat 64 count) :
    create + 1 - del = BitVec.ofNat 64 (count + 1) := by
  bv_omega

theorem counter_pred (create del : BitVec 64) {count : Nat}
    (balance : create - del = BitVec.ofNat 64 (count + 1)) :
    create - (del + 1) = BitVec.ofNat 64 count := by
  bv_omega

theorem alloc_accounted {pool : MemsPool} (accounted : Accounted pool) (uiSize zoneID : Nat) :
    Accounted (pool.alloc uiSize zoneID).2 := by
  have step := mems_alloc_spec accounted.wf uiSize zoneID
  cases taken : memsAlloc pool.shm uiSize zoneID with
  | mk result shm =>
      rw [taken] at step
      cases result with
      | none =>
          have same : shm.nodeHdr = pool.shm.nodeHdr := step.failed rfl
          simp only [MemsPool.alloc, taken]
          refine ⟨step.wf, ?_⟩
          intro other zone found
          have found' : pool.shm.stMEMSZONE[other]? = some zone := step.zones ▸ found
          have count : allocedCnt shm zone = allocedCnt pool.shm zone :=
            alloced_cnt_congr fun index _ => by rw [same]
          rw [count]
          exact accounted.balance other zone found'
      | some node =>
          obtain ⟨⟨zone, place, found, inside, rfl⟩, before, after, kept⟩ := step.taken node rfl
          simp only [InUse, Nat.add_sub_cancel] at before after kept
          simp only [MemsPool.alloc, taken]
          refine ⟨step.wf, ?_⟩
          intro other zone' found'
          have found'' : pool.shm.stMEMSZONE[other]? = some zone' := step.zones ▸ found'
          have balance := accounted.balance other zone' found''
          by_cases same : other = zoneID
          · subst same
            obtain rfl : zone = zone' := Option.some.inj (found.symm.trans found'')
            dsimp only
            rw [alloced_cnt_succ inside before after kept, Function.update_self]
            exact counter_succ _ _ balance
          · dsimp only
            rw [Function.update_of_ne same, alloced_cnt_congr ?_]
            · exact balance
            · intro index inside'
              have apart := zones_apart accounted.wf found found'' (Ne.symm same) inside inside'
              have positive := stride_pos zone
              have positive' := stride_pos zone'
              rw [kept _ (by omega)]

theorem free_accounted {pool : MemsPool} (accounted : Accounted pool) {node : Nat}
    (proper : (∃ zoneID, NodeIn pool.shm zoneID node) ∨ memsFree pool.shm node = none) :
    Accounted (pool.free node).2 := by
  cases freed : memsFree pool.shm node with
  | none =>
      simp only [MemsPool.free, freed]
      exact accounted
  | some shm =>
      obtain ⟨zoneID, zone, place, found, inside, rfl⟩ := proper.resolve_right (by simp [freed])
      have header := accounted.wf.header zoneID zone found place inside
      simp only [memsFree, Nat.add_sub_cancel] at freed
      split at freed
      · cases freed
      · next used =>
          cases freed
          have before : (pool.shm.nodeHdr (zone.hdrOffset place)).ucIsFree = .alloced := by
            by_contra notUsed
            exact used (Or.inr notUsed)
          have kept : ∀ hdr, hdr ≠ zone.hdrOffset place →
              pool.shm.nodeHdr hdr = (pool.shm.setUse (zone.hdrOffset place) .free).nodeHdr hdr := by
            intro hdr apart
            simp [MemsInfo.setUse, apart]
          have nowFree : ((pool.shm.setUse (zone.hdrOffset place) .free).nodeHdr
              (zone.hdrOffset place)).ucIsFree ≠ .alloced := by
            simp [MemsInfo.setUse]
          have notRefused : ¬((pool.shm.nodeHdr (zone.hdrOffset place)).uiID ≠ MEMS_ID ∨
              (pool.shm.nodeHdr (zone.hdrOffset place)).ucIsFree ≠ .alloced) := used
          simp only [MemsPool.free, memsFree, Nat.add_sub_cancel, if_neg notRefused, header.2]
          refine ⟨set_use_wf accounted.wf _ _, ?_⟩
          intro other zone' found'
          have balance := accounted.balance other zone' found'
          by_cases same : other = zoneID
          · subst same
            obtain rfl : zone = zone' := Option.some.inj (found.symm.trans found')
            rw [alloced_cnt_succ inside nowFree before kept] at balance
            dsimp only
            rw [Function.update_self]
            exact counter_pred _ _ balance
          · dsimp only
            rw [Function.update_of_ne same, alloced_cnt_congr ?_]
            · exact balance
            · intro index inside'
              have apart := zones_apart accounted.wf found found' (Ne.symm same) inside inside'
              have positive := stride_pos zone
              have positive' := stride_pos zone'
              rw [← kept _ (by omega)]

end Counting

section Runs

inductive Request where
  | alloc (uiSize uiZoneID : Nat)
  | free (node : Nat)
  deriving DecidableEq, Repr

def MemsPool.serve (pool : MemsPool) : Request → MemsPool
  | .alloc uiSize uiZoneID => (pool.alloc uiSize uiZoneID).2
  | .free node => (pool.free node).2

def MemsPool.serveAll (pool : MemsPool) (requests : List Request) : MemsPool :=
  requests.foldl MemsPool.serve pool

/-- The zone of an allocation is a configured one. What is freed is a node of the pool, in
use or not, or something that `mems_free` refuses. -/
def MemsPool.Proper (pool : MemsPool) : Request → Prop
  | .alloc _ uiZoneID => uiZoneID < pool.shm.stMEMSZONE.length
  | .free node => (∃ zoneID, NodeIn pool.shm zoneID node) ∨ memsFree pool.shm node = none

def MemsPool.ProperSteps : MemsPool → List Request → Prop
  | _, [] => True
  | pool, request :: rest => pool.Proper request ∧ (pool.serve request).ProperSteps rest

theorem serve_all_accounted {pool : MemsPool} (accounted : Accounted pool)
    (requests : List Request) (proper : pool.ProperSteps requests) :
    Accounted (pool.serveAll requests) := by
  induction requests generalizing pool with
  | nil => exact accounted
  | cons request rest ih =>
      refine ih ?_ proper.2
      cases request with
      | alloc uiSize uiZoneID => exact alloc_accounted accounted uiSize uiZoneID
      | free node => exact free_accounted accounted proper.1

/-- What the allocator promises in every state of a run. -/
structure Sound (pool : MemsPool) : Prop where
  taken : ∀ uiSize zoneID zone node pool', pool.shm.stMEMSZONE[zoneID]? = some zone →
    pool.alloc uiSize zoneID = (some node, pool') →
      (zone.offsetNodeStart + stMEMSNODEHDR_SIZE ≤ node ∧
        node + zone.uiMemNodeBodySize ≤ zone.offsetNodeEnd) ∧
      NodeIn pool.shm zoneID node ∧ ¬InUse pool.shm node ∧
      ∀ otherID other, NodeIn pool.shm otherID other → InUse pool.shm other → other ≠ node
  refused : ∀ uiSize zoneID zone, pool.shm.stMEMSZONE[zoneID]? = some zone →
    ((pool.alloc uiSize zoneID).1 = none ↔
      zone.uiMemNodeBodySize < uiSize ∨
        ∀ node, NodeIn pool.shm zoneID node → InUse pool.shm node)
  boundary : ∀ zoneID zone, pool.shm.stMEMSZONE[zoneID]? = some zone →
    ∃ index < zone.uiMemNodeTotCnt, pool.shm.offsetFreeList zoneID = zone.hdrOffset index ∧
      zone.offsetNodeStart ≤ zone.hdrOffset index ∧
      zone.hdrOffset index + zone.stride ≤ zone.offsetNodeEnd
  apart : ∀ (first second : Nat) (zone other : MemsZone), first ≠ second →
    pool.shm.stMEMSZONE[first]? = some zone → pool.shm.stMEMSZONE[second]? = some other →
      ∀ place < zone.uiMemNodeTotCnt, ∀ index < other.uiMemNodeTotCnt,
        zone.hdrOffset place + zone.stride ≤ other.hdrOffset index ∨
          other.hdrOffset index + other.stride ≤ zone.hdrOffset place
  balance : ∀ zoneID zone, pool.shm.stMEMSZONE[zoneID]? = some zone →
    pool.createCnt zoneID - pool.delCnt zoneID = BitVec.ofNat 64 (allocedCnt pool.shm zone)

theorem alloc_taken {pool pool' : MemsPool} (wf : PoolWf pool.shm) {uiSize zoneID node : Nat}
    {zone : MemsZone} (found : pool.shm.stMEMSZONE[zoneID]? = some zone)
    (taken : pool.alloc uiSize zoneID = (some node, pool')) :
    (zone.offsetNodeStart + stMEMSNODEHDR_SIZE ≤ node ∧
        node + zone.uiMemNodeBodySize ≤ zone.offsetNodeEnd) ∧
      NodeIn pool.shm zoneID node ∧ ¬InUse pool.shm node := by
  have step := mems_alloc_spec wf uiSize zoneID
  have result : (memsAlloc pool.shm uiSize zoneID).1 = some node := by
    cases allocated : memsAlloc pool.shm uiSize zoneID with
    | mk result shm =>
        cases result with
        | none => simp [MemsPool.alloc, allocated] at taken
        | some fresh =>
            simp only [MemsPool.alloc, allocated, Prod.mk.injEq, Option.some.injEq] at taken
            rw [taken.1]
  obtain ⟨member, isFree, -, -⟩ := step.taken node result
  refine ⟨?_, member, isFree⟩
  obtain ⟨zone', place, found', inside, rfl⟩ := member
  obtain rfl : zone = zone' := Option.some.inj (found.symm.trans found')
  have within := hdr_within_zone (wf.zone zoneID zone found) inside
  simp only [MemsZone.stride] at within
  omega

/-- `mems_alloc` refuses a size that no node of the zone has, and when none is free. -/
theorem mems_alloc_none_iff {shm : MemsInfo} (wf : PoolWf shm) {uiSize zoneID : Nat}
    {zone : MemsZone} (found : shm.stMEMSZONE[zoneID]? = some zone) :
    (memsAlloc shm uiSize zoneID).1 = none ↔
      zone.uiMemNodeBodySize < uiSize ∨ ∀ node, NodeIn shm zoneID node → InUse shm node := by
  obtain ⟨index, bound, position⟩ := wf.scanning zoneID zone found
  have scan := scan_none_iff shm.nodeHdr (wf.zone zoneID zone found) bound
    (Nat.le_succ zone.uiMemNodeTotCnt)
  have full : (∀ place < zone.uiMemNodeTotCnt,
      (shm.nodeHdr (zone.hdrOffset place)).ucIsFree = .alloced) ↔
        ∀ node, NodeIn shm zoneID node → InUse shm node := by
    constructor
    · rintro used node ⟨zone', place, found', inside, rfl⟩
      obtain rfl : zone = zone' := Option.some.inj (found.symm.trans found')
      rw [InUse, Nat.add_sub_cancel]
      exact used place inside
    · intro used place inside
      have inUse := used _ ⟨zone, place, found, inside, rfl⟩
      rwa [InUse, Nat.add_sub_cancel] at inUse
  rw [← full, ← scan]
  by_cases large : zone.uiMemNodeBodySize < uiSize
  · simp [memsAlloc, found, large]
  · simp only [memsAlloc, found, position, large, if_false, false_or]
    cases memsScan shm.nodeHdr zone (zone.uiMemNodeTotCnt + 1) (zone.hdrOffset index) with
    | mk result freeList => cases result <;> simp

theorem alloc_refused_iff {pool : MemsPool} (wf : PoolWf pool.shm) {uiSize zoneID : Nat}
    {zone : MemsZone} (found : pool.shm.stMEMSZONE[zoneID]? = some zone) :
    (pool.alloc uiSize zoneID).1 = none ↔
      zone.uiMemNodeBodySize < uiSize ∨
        ∀ node, NodeIn pool.shm zoneID node → InUse pool.shm node := by
  have same : (pool.alloc uiSize zoneID).1 = (memsAlloc pool.shm uiSize zoneID).1 := by
    unfold MemsPool.alloc
    split <;> next allocated => rw [allocated]
  rw [same]
  exact mems_alloc_none_iff wf found

theorem accounted_sound {pool : MemsPool} (accounted : Accounted pool) : Sound pool := by
  have wf := accounted.wf
  refine ⟨?_, fun _ _ _ found => alloc_refused_iff wf found, ?_, ?_, accounted.balance⟩
  · intro uiSize zoneID zone node pool' found taken
    obtain ⟨range, member, isFree⟩ := alloc_taken wf found taken
    refine ⟨range, member, isFree, ?_⟩
    rintro otherID other - used rfl
    exact isFree used
  · intro zoneID zone found
    obtain ⟨index, bound, position⟩ := wf.scanning zoneID zone found
    exact ⟨index, bound, position, hdr_within_zone (wf.zone zoneID zone found) bound⟩
  · intro first second zone other distinct found found' place inside index inside'
    exact zones_apart wf found found' distinct inside inside'

theorem init_accounted {conf : MemsConf} {raw shm : MemsInfo} (checked : ConfWf conf)
    (created : memsInit conf raw = some shm) : Accounted (MemsPool.init shm) := by
  refine ⟨mems_init_wf conf raw checked created, ?_⟩
  intro zoneID zone found
  have none_used : allocedCnt shm zone = 0 := by
    rw [allocedCnt, Finset.card_eq_zero, Finset.filter_eq_empty_iff]
    intro index member
    rw [mems_init_hdr conf raw created found (Finset.mem_range.mp member)]
    simp [freeHdr]
  show (0 : BitVec 64) - 0 = BitVec.ofNat 64 (allocedCnt shm zone)
  rw [none_used]
  rfl

/-- The configuration has room for its zones, and each has a node. -/
structure Filled (conf : NifoConf) : Prop where
  count : conf.uiZoneCnt ≤ MAX_MEMSZONE_CNT
  populated : ∀ index < conf.uiZoneCnt, 0 < (conf.stMEMSZONECONF index).uiMemNodeTotCnt

theorem zone_allocator_run (start conf : NifoConf) (empty : start.uiZoneCnt = 0)
    (lines : List (List (List Char))) (read : zoneLines start lines = .ok conf)
    (filled : Filled conf) (raw shm : MemsInfo) (created : memsInit conf.toMemsConf raw = some shm)
    (requests : List Request) (proper : (MemsPool.init shm).ProperSteps requests) :
    Sound ((MemsPool.init shm).serveAll requests) := by
  have unread : Numbered start := by
    intro index bound
    omega
  have checked := conf_wf_of_numbered (zone_lines_numbered lines unread read) filled.populated
  exact accounted_sound (serve_all_accounted (init_accounted checked created) requests proper)

/-- What the reader starts from; the arrays hold zeros. -/
def unreadConf : NifoConf where
  uiHeadRoomSize := 0
  uiZoneCnt := 0
  stMEMSZONECONF := fun _ => ⟨⟨0, 0, 0⟩, 0, 0⟩
  uiMatrixZoneID := fun _ => INVALID_ID

def lineTokens (line : List String) : List (List Char) := line.map String.toList

def oneZoneConf : NifoConf :=
  { unreadConf with
    uiZoneCnt := 1
    stMEMSZONECONF := Function.update unreadConf.stMEMSZONECONF 0 ⟨⟨0, 72, 2⟩, 0, 1⟩ }

def oneZonePool : MemsInfo := (memsInit oneZoneConf.toMemsConf Nifo.zeroSegment).get (by decide)

theorem zone_allocator_run_one :
    Sound ((MemsPool.init oneZonePool).serveAll [.alloc 72 0, .free 4796, .free 4796]) := by
  refine zone_allocator_run unreadConf oneZoneConf rfl [lineTokens ["0", "0", "1", "72", "2"]] rfl
    ⟨by decide, by decide⟩ Nifo.zeroSegment oneZonePool (Option.some_get _).symm _ ?_
  have first : ∀ pool : MemsPool, pool.shm.stMEMSZONE = oneZonePool.stMEMSZONE →
      NodeIn pool.shm 0 4796 := by
    intro pool zones
    exact ⟨⟨0, 72, 2, 4760, 4976⟩, 0, by rw [zones]; rfl, by decide, by decide⟩
  have configured : (MemsPool.init oneZonePool).Proper (.alloc 72 0) :=
    show 0 < oneZonePool.stMEMSZONE.length by decide
  exact ⟨configured, Or.inl ⟨0, first _ rfl⟩, Or.inl ⟨0, first _ rfl⟩, trivial⟩

/-- Two zones, the first without a node. -/
def emptyZoneConf : NifoConf :=
  { unreadConf with
    uiZoneCnt := 2
    stMEMSZONECONF := Function.update
      (Function.update unreadConf.stMEMSZONECONF 0 ⟨⟨0, 72, 0⟩, 0, 1⟩) 1 ⟨⟨1, 72, 1⟩, 0, 2⟩ }

def emptyZonePool : MemsInfo :=
  (memsInit emptyZoneConf.toMemsConf Nifo.zeroSegment).get (by decide)

/-- An allocation in the zone without a node hands out the node of the zone behind it. -/
theorem empty_zone_allocates :
    zoneLines unreadConf [lineTokens ["0", "0", "1", "72", "0"],
        lineTokens ["1", "0", "2", "72", "1"]] = .ok emptyZoneConf ∧
      memsInit emptyZoneConf.toMemsConf Nifo.zeroSegment = some emptyZonePool ∧
      ((MemsPool.init emptyZonePool).alloc 72 0).1 = some 4796 ∧
      NodeIn emptyZonePool 1 4796 ∧ (∀ node, ¬NodeIn emptyZonePool 0 node) ∧
      ¬Sound (MemsPool.init emptyZonePool) := by
  have zone : emptyZonePool.stMEMSZONE[0]? = some ⟨0, 72, 0, 4760, 4760⟩ := rfl
  have nobody : ∀ node, ¬NodeIn emptyZonePool 0 node := by
    rintro node ⟨zone', index, found, inside, -⟩
    obtain rfl := Option.some.inj (zone.symm.trans found)
    exact Nat.not_lt_zero index inside
  refine ⟨rfl, (Option.some_get _).symm, by decide +kernel,
    ⟨⟨1, 72, 1, 4760, 4868⟩, 0, rfl, by decide, by decide⟩, nobody, ?_⟩
  intro sound
  obtain ⟨index, inside, -⟩ := sound.boundary 0 _ zone
  exact Nat.not_lt_zero index inside

end Runs

end Upst.Mems
