import Upst.MemsRun
import Upst.Interleave

/-!
Processes that allocate through `nifo_node_alloc` at the same time. A step is one access
of one process to the shared pool, in the order of `mems_alloc`: `P`, the move of
`offsetFreeList`, the test of `ucIsFree`, the mark, `V`. `mems_free` takes no semaphore
and is one store.
-/

namespace Upst.Procs

open Mems Interleave

set_option autoImplicit false

/-- Where a process stands in `mems_alloc`, with the locals it still needs. -/
inductive Place where
  | idle
  | scanning (iDebug : Nat)
  | testing (pFree iDebug : Nat)
  | marking (pFree : Nat)
  | leaving (pRet : Option Nat)
  deriving DecidableEq, Repr

/-- `handed` lists the nodes that `nifo_node_alloc` returned and nobody freed, each with
the process that got it. -/
structure Sys where
  shm : MemsInfo
  uiSemFlag : Nat → Nat
  iSemID : Nat → Nat
  sem : Nat → Bool
  place : Nat → Place
  handed : List (Nat × Nat)

inductive Action where
  | run (procID : Nat)
  | free (node : Nat)
  deriving DecidableEq, Repr

/-- What `mems_init` leaves, with every semaphore up and every process outside. -/
def Sys.init (semget : Nat → Nat) (conf : NifoConf) (shm : MemsInfo) : Sys where
  shm := shm
  uiSemFlag := fun zoneID => (conf.stMEMSZONECONF zoneID).uiSemFlag
  iSemID := fun zoneID =>
    memsSemInit semget (conf.stMEMSZONECONF zoneID).uiSemKey (conf.stMEMSZONECONF zoneID).uiSemFlag
  sem := fun _ => true
  place := fun _ => .idle
  handed := []

def Sys.moveTo (sys : Sys) (procID : Nat) (place : Place) : Sys :=
  { sys with place := Function.update sys.place procID place }

/-- Where `offsetFreeList` goes from a header. -/
def nextFreeList (zone : MemsZone) (freeList : Nat) : Nat :=
  if freeList + zone.stride = zone.offsetNodeEnd then zone.offsetNodeStart
  else freeList + zone.stride

/-- The next access of a process whose zone is `zone`. -/
def Sys.advance (sys : Sys) (procID uiZoneID : Nat) (zone : MemsZone) : Option Sys :=
  match sys.place procID with
  | .idle =>
      (P sys.sem (sys.iSemID uiZoneID) (sys.uiSemFlag uiZoneID)).map fun sem =>
        { sys.moveTo procID (.scanning 0) with sem := sem }
  | .scanning iDebug =>
      let pFree := sys.shm.offsetFreeList uiZoneID
      some
        { sys.moveTo procID (.testing pFree iDebug) with
          shm := sys.shm.setFreeList uiZoneID (nextFreeList zone pFree) }
  | .testing pFree iDebug =>
      if (sys.shm.nodeHdr pFree).ucIsFree = .free then some (sys.moveTo procID (.marking pFree))
      else if iDebug + 1 > zone.uiMemNodeTotCnt then some (sys.moveTo procID (.leaving none))
      else some (sys.moveTo procID (.scanning (iDebug + 1)))
  | .marking pFree =>
      some
        { sys.moveTo procID (.leaving (some (pFree + stMEMSNODEHDR_SIZE))) with
          shm := sys.shm.setUse pFree .alloced }
  | .leaving pRet =>
      some
        { sys.moveTo procID .idle with
          sem := V sys.sem (sys.iSemID uiZoneID) (sys.uiSemFlag uiZoneID)
          handed := (pRet.map fun node => (procID, node)).toList ++ sys.handed }

/-- A process without a zone gets NULL at once. One of a zone that nobody configured has
no step here. -/
def Sys.step (sys : Sys) : Action → Option Sys
  | .run procID =>
      if procID ≥ MAX_SEQ_PROC_NUM then none
      else if sys.shm.uiMatrixZoneID procID = INVALID_ID then some sys
      else
        (sys.shm.stMEMSZONE[sys.shm.uiMatrixZoneID procID]?).bind
          (sys.advance procID (sys.shm.uiMatrixZoneID procID))
  | .free node =>
      match memsFree sys.shm node with
      | none => some sys
      | some shm =>
          some { sys with shm := shm, handed := sys.handed.filter fun entry => entry.2 ≠ node }

/-- What is freed was handed out, or `mems_free` refuses it. -/
def Sys.Proper (sys : Sys) : Action → Prop
  | .run _ => True
  | .free node => node ∈ sys.handed.map Prod.snd ∨ memsFree sys.shm node = none

/-- The zone a process allocates from. -/
def Sys.zoneOf (sys : Sys) (procID : Nat) : Nat := sys.shm.uiMatrixZoneID procID

/-- No node belongs to two processes, and those of one zone take turns. -/
structure Exclusive (sys : Sys) : Prop where
  once : (sys.handed.map Prod.snd).Nodup
  inUse : ∀ node ∈ sys.handed.map Prod.snd, InUse sys.shm node
  fresh : ∀ procID node, sys.place procID = .leaving (some node) →
    InUse sys.shm node ∧ node ∉ sys.handed.map Prod.snd
  apart : ∀ first second node, sys.place first = .leaving (some node) →
    sys.place second = .leaving (some node) → first = second
  serial : ∀ first second, sys.place first ≠ .idle → sys.place second ≠ .idle →
    sys.zoneOf first = sys.zoneOf second → first = second

/-- The zone of every process is configured and has a node. -/
structure Mapped (conf : NifoConf) : Prop where
  count : conf.uiZoneCnt ≤ MAX_MEMSZONE_CNT
  filled : ∀ procID < MAX_SEQ_PROC_NUM, conf.uiMatrixZoneID procID ≠ INVALID_ID →
    conf.uiMatrixZoneID procID < conf.uiZoneCnt ∧
      0 < (conf.stMEMSZONECONF (conf.uiMatrixZoneID procID)).uiMemNodeTotCnt

section Invariant

/-- `hdr` is one of the headers of a zone. -/
def HdrIn (zones : List MemsZone) (zoneID hdr : Nat) : Prop :=
  ∃ zone index, zones[zoneID]? = some zone ∧ index < zone.uiMemNodeTotCnt ∧
    hdr = zone.hdrOffset index

/-- What a process knows of the header it works on. -/
def PlaceOk (shm : MemsInfo) (handed : List (Nat × Nat)) (zoneID : Nat) : Place → Prop
  | .idle | .scanning _ | .leaving none => True
  | .testing pFree _ => HdrIn shm.stMEMSZONE zoneID pFree
  | .marking pFree => HdrIn shm.stMEMSZONE zoneID pFree ∧ (shm.nodeHdr pFree).ucIsFree = .free
  | .leaving (some node) =>
      ∃ hdr, node = hdr + stMEMSNODEHDR_SIZE ∧ HdrIn shm.stMEMSZONE zoneID hdr ∧
        (shm.nodeHdr hdr).ucIsFree = .alloced ∧ node ∉ handed.map Prod.snd

/-- The semaphore a process holds. -/
def Sys.holds (sys : Sys) (procID : Nat) : Option Nat :=
  if sys.place procID ≠ .idle ∧ sys.uiSemFlag (sys.zoneOf procID) = MEMS_SEMA_ON then
    some (sys.iSemID (sys.zoneOf procID))
  else none

structure Inv (sys : Sys) : Prop where
  order : sys.shm.stMEMSZONE.Pairwise fun zone later =>
    zone.offsetNodeEnd ≤ later.offsetNodeStart
  finish : ∀ zone ∈ sys.shm.stMEMSZONE,
    zone.offsetNodeEnd = zone.hdrOffset zone.uiMemNodeTotCnt
  cursor : ∀ procID < MAX_SEQ_PROC_NUM, sys.zoneOf procID ≠ INVALID_ID →
    HdrIn sys.shm.stMEMSZONE (sys.zoneOf procID) (sys.shm.offsetFreeList (sys.zoneOf procID))
  alone : ∀ first < MAX_SEQ_PROC_NUM, ∀ second < MAX_SEQ_PROC_NUM,
    sys.zoneOf first = sys.zoneOf second → sys.zoneOf first ≠ INVALID_ID →
      sys.uiSemFlag (sys.zoneOf first) ≠ MEMS_SEMA_ON → first = second
  busy : ∀ procID, sys.place procID ≠ .idle →
    procID < MAX_SEQ_PROC_NUM ∧ sys.zoneOf procID ≠ INVALID_ID
  locked : Guarded sys.sem sys.holds
  place : ∀ procID, PlaceOk sys.shm sys.handed (sys.zoneOf procID) (sys.place procID)
  once : (sys.handed.map Prod.snd).Nodup
  inUse : ∀ node ∈ sys.handed.map Prod.snd, ∃ hdr, node = hdr + stMEMSNODEHDR_SIZE ∧
    (sys.shm.nodeHdr hdr).ucIsFree = .alloced

/-- The processes inside `mems_alloc` for one zone are one process. -/
theorem Inv.serial {sys : Sys} (inv : Inv sys) {first second : Nat}
    (inside : sys.place first ≠ .idle) (inside' : sys.place second ≠ .idle)
    (same : sys.zoneOf first = sys.zoneOf second) : first = second := by
  obtain ⟨bound, mapped⟩ := inv.busy first inside
  obtain ⟨bound', -⟩ := inv.busy second inside'
  by_cases locking : sys.uiSemFlag (sys.zoneOf first) = MEMS_SEMA_ON
  · have holding : sys.holds first = some (sys.iSemID (sys.zoneOf first)) :=
      if_pos ⟨inside, locking⟩
    have holding' : sys.holds second = some (sys.iSemID (sys.zoneOf first)) := by
      rw [same] at locking ⊢
      exact if_pos ⟨inside', locking⟩
    exact inv.locked.single first second _ holding holding'
  · exact inv.alone first bound second bound' same mapped locking

theorem hdr_in_ne {zones : List MemsZone}
    (order : zones.Pairwise fun zone later => zone.offsetNodeEnd ≤ later.offsetNodeStart)
    (finish : ∀ zone ∈ zones, zone.offsetNodeEnd = zone.hdrOffset zone.uiMemNodeTotCnt)
    {first second hdr hdr' : Nat} (distinct : first ≠ second) (member : HdrIn zones first hdr)
    (member' : HdrIn zones second hdr') : hdr ≠ hdr' := by
  obtain ⟨zone, place, found, inside, rfl⟩ := member
  obtain ⟨zone', index, found', inside', rfl⟩ := member'
  have apart := hdrs_apart order finish found found' distinct inside inside'
  have positive := stride_pos zone
  have positive' := stride_pos zone'
  omega

/-- A place stays right when its headers stay as they are and no node in it is handed out. -/
theorem place_ok_congr {shm shm' : MemsInfo} {handed handed' : List (Nat × Nat)} {zoneID : Nat}
    {place : Place} (ok : PlaceOk shm handed zoneID place)
    (zones : shm'.stMEMSZONE = shm.stMEMSZONE)
    (kept : ∀ hdr, HdrIn shm.stMEMSZONE zoneID hdr →
      hdr + stMEMSNODEHDR_SIZE ∉ handed.map Prod.snd →
        shm'.nodeHdr hdr = shm.nodeHdr hdr ∧ hdr + stMEMSNODEHDR_SIZE ∉ handed'.map Prod.snd)
    (unmarked : ∀ hdr, HdrIn shm.stMEMSZONE zoneID hdr → (shm.nodeHdr hdr).ucIsFree = .free →
      (shm'.nodeHdr hdr).ucIsFree = .free) :
    PlaceOk shm' handed' zoneID place := by
  match place, ok with
  | .idle, _ => trivial
  | .scanning _, _ => trivial
  | .leaving none, _ => trivial
  | .testing pFree _, ok =>
      rw [PlaceOk, zones]
      exact ok
  | .marking pFree, ok =>
      rw [PlaceOk, zones]
      exact ⟨ok.1, unmarked pFree ok.1 ok.2⟩
  | .leaving (some node), ⟨hdr, same, member, marked, fresh⟩ =>
      subst same
      have stays := kept hdr member fresh
      refine ⟨hdr, rfl, ?_, ?_, stays.2⟩
      · rw [zones]
        exact member
      · rw [stays.1]
        exact marked

theorem holds_move (sys : Sys) (procID : Nat) (place : Place) :
    (sys.moveTo procID place).holds = Function.update sys.holds procID
      (if place ≠ .idle ∧ sys.uiSemFlag (sys.zoneOf procID) = MEMS_SEMA_ON then
        some (sys.iSemID (sys.zoneOf procID)) else none) := by
  funext other
  by_cases own : other = procID
  · subst own
    have moved : (sys.moveTo other place).place other = place := Function.update_self ..
    rw [Function.update_self, Sys.holds, moved]
    rfl
  · have stays : (sys.moveTo procID place).place other = sys.place other :=
      Function.update_of_ne own ..
    rw [Function.update_of_ne own, Sys.holds, stays]
    rfl

/-- Inside `mems_alloc` a move changes nobody's semaphore. -/
theorem holds_stay (sys : Sys) {procID : Nat} {place : Place} (inside : sys.place procID ≠ .idle)
    (inside' : place ≠ .idle) : (sys.moveTo procID place).holds = sys.holds := by
  rw [holds_move, Function.update_eq_iff]
  refine ⟨?_, fun _ _ => rfl⟩
  simp [Sys.holds, inside, inside']

/-- What the other processes know when one of them works on the headers of its own zone. -/
theorem Inv.others {sys : Sys} (inv : Inv sys) {procID other : Nat} (own : other ≠ procID)
    (inside : sys.place procID ≠ .idle) {shm : MemsInfo} {handed : List (Nat × Nat)}
    (zones : shm.stMEMSZONE = sys.shm.stMEMSZONE)
    (kept : ∀ hdr, ¬HdrIn sys.shm.stMEMSZONE (sys.zoneOf procID) hdr →
      shm.nodeHdr hdr = sys.shm.nodeHdr hdr ∧
        (hdr + stMEMSNODEHDR_SIZE ∉ sys.handed.map Prod.snd →
          hdr + stMEMSNODEHDR_SIZE ∉ handed.map Prod.snd)) :
    PlaceOk shm handed (sys.zoneOf other) (sys.place other) := by
  by_cases outside : sys.place other = .idle
  · rw [outside]
    trivial
  have distinct : sys.zoneOf procID ≠ sys.zoneOf other := fun same =>
    own (inv.serial inside outside same).symm
  have foreign : ∀ hdr, HdrIn sys.shm.stMEMSZONE (sys.zoneOf other) hdr →
      ¬HdrIn sys.shm.stMEMSZONE (sys.zoneOf procID) hdr := fun hdr member member' =>
    hdr_in_ne inv.order inv.finish distinct member' member rfl
  refine place_ok_congr (inv.place other) zones ?_ ?_
  · intro hdr member fresh
    exact ⟨(kept hdr (foreign hdr member)).1, (kept hdr (foreign hdr member)).2 fresh⟩
  · intro hdr member unmarked
    rw [(kept hdr (foreign hdr member)).1]
    exact unmarked

end Invariant

section Steps

/-- A process inside that only changes its place. -/
theorem Inv.move {sys : Sys} (inv : Inv sys) {procID : Nat} {place : Place}
    (inside : sys.place procID ≠ .idle) (inside' : place ≠ .idle)
    (ok : PlaceOk sys.shm sys.handed (sys.zoneOf procID) place) : Inv (sys.moveTo procID place) := by
  refine ⟨inv.order, inv.finish, inv.cursor, inv.alone, ?_, ?_, ?_, inv.once, inv.inUse⟩
  · exact (Function.forall_update_iff sys.place fun other place => place ≠ .idle →
      other < MAX_SEQ_PROC_NUM ∧ sys.zoneOf other ≠ INVALID_ID).mpr
        ⟨fun _ => inv.busy procID inside, fun other _ => inv.busy other⟩
  · rw [holds_stay sys inside inside']
    exact inv.locked
  · exact (Function.forall_update_iff sys.place fun other place =>
      PlaceOk sys.shm sys.handed (sys.zoneOf other) place).mpr ⟨ok, fun other _ => inv.place other⟩

theorem Inv.enter {sys : Sys} (inv : Inv sys) {procID : Nat} (bound : procID < MAX_SEQ_PROC_NUM)
    (mapped : sys.zoneOf procID ≠ INVALID_ID) (outside : sys.place procID = .idle)
    {sem : Nat → Bool}
    (passed : P sys.sem (sys.iSemID (sys.zoneOf procID)) (sys.uiSemFlag (sys.zoneOf procID)) =
      some sem) : Inv { sys.moveTo procID (.scanning 0) with sem := sem } := by
  refine ⟨inv.order, inv.finish, inv.cursor, inv.alone, ?_, ?_, ?_, inv.once, inv.inUse⟩
  · exact (Function.forall_update_iff sys.place fun other place => place ≠ .idle →
      other < MAX_SEQ_PROC_NUM ∧ sys.zoneOf other ≠ INVALID_ID).mpr
        ⟨fun _ => ⟨bound, mapped⟩, fun other _ => inv.busy other⟩
  · show Guarded sem (sys.moveTo procID (.scanning 0)).holds
    rw [holds_move]
    unfold P at passed
    split at passed
    · next off =>
        cases passed
        rw [if_neg (fun holding => off holding.2), Function.update_eq_iff.mpr]
        · exact inv.locked
        · refine ⟨?_, fun _ _ => rfl⟩
          simp [Sys.holds, outside]
    · next on =>
        split at passed
        · next free =>
            cases passed
            rw [if_pos ⟨nofun, not_not.mp on⟩]
            exact inv.locked.acquire free procID
        · cases passed
  · exact (Function.forall_update_iff sys.place fun other place =>
      PlaceOk sys.shm sys.handed (sys.zoneOf other) place).mpr
        ⟨trivial, fun other _ => inv.place other⟩

/-- The turn that reads `offsetFreeList` and moves it on. -/
theorem Inv.take {sys : Sys} (inv : Inv sys) {procID iDebug : Nat} {zone : MemsZone}
    (found : sys.shm.stMEMSZONE[sys.zoneOf procID]? = some zone)
    (scanning : sys.place procID = .scanning iDebug) :
    Inv { sys.moveTo procID (.testing (sys.shm.offsetFreeList (sys.zoneOf procID)) iDebug) with
      shm := sys.shm.setFreeList (sys.zoneOf procID)
        (nextFreeList zone (sys.shm.offsetFreeList (sys.zoneOf procID))) } := by
  have inside : sys.place procID ≠ .idle := by
    rw [scanning]
    nofun
  obtain ⟨bound, mapped⟩ := inv.busy procID inside
  have here := inv.cursor procID bound mapped
  have moved := inv.move inside (nofun : Place.testing _ iDebug ≠ .idle) here
  refine ⟨inv.order, inv.finish, ?_, inv.alone, moved.busy, moved.locked, ?_, inv.once, inv.inUse⟩
  · intro other bound' mapped'
    show HdrIn _ (sys.zoneOf other) (Function.update sys.shm.offsetFreeList _ _ (sys.zoneOf other))
    by_cases same : sys.zoneOf other = sys.zoneOf procID
    · obtain ⟨zone', index, found', inside', position⟩ := here
      obtain rfl : zone = zone' := Option.some.inj (found.symm.trans found')
      have finish := inv.finish zone (List.mem_of_getElem? found)
      rw [same, Function.update_self, position]
      exact ⟨zone, _, found, Nat.mod_lt _ (by omega), scan_advance finish inside'⟩
    · rw [Function.update_of_ne same]
      exact inv.cursor other bound' mapped'
  · intro other
    exact place_ok_congr (moved.place other) rfl (fun hdr _ fresh => ⟨rfl, fresh⟩)
      fun hdr _ unmarked => unmarked

theorem Inv.mark {sys : Sys} (inv : Inv sys) {procID pFree : Nat}
    (marking : sys.place procID = .marking pFree) :
    Inv { sys.moveTo procID (.leaving (some (pFree + stMEMSNODEHDR_SIZE))) with
      shm := sys.shm.setUse pFree .alloced } := by
  have inside : sys.place procID ≠ .idle := by
    rw [marking]
    exact Place.noConfusion
  have known := inv.place procID
  rw [marking] at known
  obtain ⟨member, unmarked⟩ := known
  have elsewhere : ∀ hdr, hdr ≠ pFree →
      (sys.shm.setUse pFree .alloced).nodeHdr hdr = sys.shm.nodeHdr hdr := by
    intro hdr apart
    simp [MemsInfo.setUse, apart]
  have marked : ((sys.shm.setUse pFree .alloced).nodeHdr pFree).ucIsFree = .alloced := by
    simp [MemsInfo.setUse]
  have fresh : pFree + stMEMSNODEHDR_SIZE ∉ sys.handed.map Prod.snd := by
    intro handedOut
    obtain ⟨hdr, same, used⟩ := inv.inUse _ handedOut
    obtain rfl : pFree = hdr := Nat.add_right_cancel same
    rw [unmarked] at used
    cases used
  refine ⟨inv.order, inv.finish, inv.cursor, inv.alone, ?_, ?_, ?_, inv.once, ?_⟩
  · exact (Function.forall_update_iff sys.place fun other place => place ≠ .idle →
      other < MAX_SEQ_PROC_NUM ∧ sys.zoneOf other ≠ INVALID_ID).mpr
        ⟨fun _ => inv.busy procID inside, fun other _ => inv.busy other⟩
  · have stays := holds_stay sys inside
      (Place.noConfusion : Place.leaving (some (pFree + stMEMSNODEHDR_SIZE)) ≠ .idle)
    show Guarded sys.sem (sys.moveTo procID _).holds
    rw [stays]
    exact inv.locked
  · refine (Function.forall_update_iff sys.place fun other place =>
      PlaceOk (sys.shm.setUse pFree .alloced) sys.handed (sys.zoneOf other) place).mpr
        ⟨⟨pFree, rfl, member, marked, fresh⟩, ?_⟩
    intro other own
    refine inv.others own inside rfl ?_
    intro hdr foreign
    refine ⟨elsewhere hdr ?_, id⟩
    rintro rfl
    exact foreign member
  · intro node handedOut
    obtain ⟨hdr, same, used⟩ := inv.inUse node handedOut
    refine ⟨hdr, same, ?_⟩
    show ((sys.shm.setUse pFree .alloced).nodeHdr hdr).ucIsFree = .alloced
    by_cases own : hdr = pFree
    · rw [own]
      exact marked
    · rw [elsewhere hdr own]
      exact used

theorem Inv.leave {sys : Sys} (inv : Inv sys) {procID : Nat} {pRet : Option Nat}
    (leaving : sys.place procID = .leaving pRet) :
    Inv { sys.moveTo procID .idle with
      sem := V sys.sem (sys.iSemID (sys.zoneOf procID)) (sys.uiSemFlag (sys.zoneOf procID))
      handed := (pRet.map fun node => (procID, node)).toList ++ sys.handed } := by
  have inside : sys.place procID ≠ .idle := by
    rw [leaving]
    nofun
  have known := inv.place procID
  rw [leaving] at known
  refine ⟨inv.order, inv.finish, inv.cursor, inv.alone, ?_, ?_, ?_, ?_, ?_⟩
  · exact (Function.forall_update_iff sys.place fun other place => place ≠ .idle →
      other < MAX_SEQ_PROC_NUM ∧ sys.zoneOf other ≠ INVALID_ID).mpr
        ⟨fun working => absurd rfl working, fun other _ => inv.busy other⟩
  · show Guarded (V _ _ _) (sys.moveTo procID .idle).holds
    rw [holds_move, if_neg (fun holding => holding.1 rfl)]
    by_cases on : sys.uiSemFlag (sys.zoneOf procID) = MEMS_SEMA_ON
    · rw [V, if_neg (not_not.mpr on)]
      exact inv.locked.release (if_pos ⟨inside, on⟩)
    · rw [V, if_pos on, Function.update_eq_iff.mpr]
      · exact inv.locked
      · refine ⟨?_, fun _ _ => rfl⟩
        simp [Sys.holds, on]
  · refine (Function.forall_update_iff sys.place fun other place =>
      PlaceOk sys.shm ((pRet.map fun node => (procID, node)).toList ++ sys.handed)
        (sys.zoneOf other) place).mpr ⟨trivial, ?_⟩
    intro other own
    refine inv.others own inside rfl ?_
    intro hdr foreign
    refine ⟨rfl, ?_⟩
    intro fresh
    cases pRet with
    | none => exact fresh
    | some node =>
        obtain ⟨own, rfl, member, -, -⟩ := known
        have apart : hdr ≠ own := by
          rintro rfl
          exact foreign member
        simp only [Option.map_some, Option.toList_some, List.singleton_append, List.map_cons,
          List.mem_cons, not_or]
        exact ⟨fun same => apart (Nat.add_right_cancel same), fresh⟩
  · cases pRet with
    | none => exact inv.once
    | some node =>
        obtain ⟨own, rfl, -, -, fresh⟩ := known
        exact List.nodup_cons.mpr ⟨fresh, inv.once⟩
  · cases pRet with
    | none => exact inv.inUse
    | some node =>
        obtain ⟨own, rfl, -, marked, -⟩ := known
        intro node member
        rcases List.mem_cons.mp member with rfl | earlier
        · exact ⟨own, rfl, marked⟩
        · exact inv.inUse node earlier

theorem Inv.free {sys : Sys} (inv : Inv sys) {node : Nat} {shm : MemsInfo}
    (handedOut : node ∈ sys.handed.map Prod.snd) (freed : memsFree sys.shm node = some shm) :
    Inv { sys with
      shm := shm
      handed := sys.handed.filter fun entry => entry.2 ≠ node } := by
  obtain ⟨hdr, rfl, used⟩ := inv.inUse node handedOut
  obtain rfl : sys.shm.setUse hdr .free = shm := by
    simp only [memsFree, Nat.add_sub_cancel] at freed
    split at freed
    · cases freed
    · exact Option.some.inj freed
  have elsewhere : ∀ other, other ≠ hdr →
      (sys.shm.setUse hdr .free).nodeHdr other = sys.shm.nodeHdr other := by
    intro other apart
    simp [MemsInfo.setUse, apart]
  have fewer : ∀ node, node ∈ ((sys.handed.filter fun entry =>
      entry.2 ≠ hdr + stMEMSNODEHDR_SIZE).map Prod.snd) →
        node ∈ sys.handed.map Prod.snd ∧ node ≠ hdr + stMEMSNODEHDR_SIZE := by
    intro node member
    obtain ⟨entry, kept, rfl⟩ := List.mem_map.mp member
    obtain ⟨earlier, apart⟩ := List.mem_filter.mp kept
    exact ⟨List.mem_map_of_mem earlier, by simpa using apart⟩
  refine ⟨inv.order, inv.finish, inv.cursor, inv.alone, inv.busy, inv.locked, ?_, ?_, ?_⟩
  · intro procID
    refine place_ok_congr (inv.place procID) rfl ?_ ?_
    · intro other member fresh
      refine ⟨elsewhere other ?_, fun later => fresh (fewer _ later).1⟩
      rintro rfl
      exact fresh handedOut
    · intro other member unmarked
      by_cases same : other = hdr
      · subst same
        simp [MemsInfo.setUse]
      · rw [elsewhere other same]
        exact unmarked
  · exact inv.once.sublist (List.filter_sublist.map Prod.snd)
  · intro node member
    obtain ⟨earlier, distinct⟩ := fewer node member
    obtain ⟨other, rfl, marked⟩ := inv.inUse node earlier
    refine ⟨other, rfl, ?_⟩
    show ((sys.shm.setUse hdr .free).nodeHdr other).ucIsFree = .alloced
    rw [elsewhere other (fun same => distinct (by rw [same]))]
    exact marked

theorem Inv.advance {sys sys' : Sys} (inv : Inv sys) {procID : Nat} {zone : MemsZone}
    (bound : procID < MAX_SEQ_PROC_NUM) (mapped : sys.zoneOf procID ≠ INVALID_ID)
    (found : sys.shm.stMEMSZONE[sys.zoneOf procID]? = some zone)
    (moved : sys.advance procID (sys.zoneOf procID) zone = some sys') : Inv sys' := by
  unfold Sys.advance at moved
  split at moved
  · next outside =>
      obtain ⟨sem, passed, rfl⟩ := Option.map_eq_some_iff.mp moved
      exact inv.enter bound mapped outside passed
  · next iDebug scanning =>
      cases moved
      exact inv.take found scanning
  · next pFree iDebug testing =>
      have inside : sys.place procID ≠ .idle := by
        rw [testing]
        nofun
      have known := inv.place procID
      rw [testing] at known
      split at moved
      · next isFree =>
          cases moved
          exact inv.move inside nofun ⟨known, isFree⟩
      · split at moved
        · cases moved
          exact inv.move inside nofun trivial
        · cases moved
          exact inv.move inside nofun trivial
  · next pFree marking =>
      cases moved
      exact inv.mark marking
  · next pRet leaving =>
      cases moved
      exact inv.leave leaving

theorem Inv.step {sys sys' : Sys} (inv : Inv sys) (action : Action) (proper : sys.Proper action)
    (stepped : sys.step action = some sys') : Inv sys' := by
  cases action with
  | run procID =>
      simp only [Sys.step] at stepped
      split at stepped
      · cases stepped
      · next bound =>
          split at stepped
          · cases stepped
            exact inv
          · next mapped =>
              obtain ⟨zone, found, moved⟩ := Option.bind_eq_some_iff.mp stepped
              exact inv.advance (Nat.lt_of_not_le bound) mapped found moved
  | free node =>
      simp only [Sys.step] at stepped
      split at stepped
      · cases stepped
        exact inv
      · next shm freed =>
          cases stepped
          exact inv.free (proper.resolve_right (by rw [freed]; nofun)) freed

end Steps

section Alone

/-- The pool after a scan of `mems_alloc`. -/
def scanned (shm : MemsInfo) (uiZoneID : Nat) : Option Nat × Nat → MemsInfo
  | (none, freeList) => shm.setFreeList uiZoneID freeList
  | (some hdr, freeList) => (shm.setFreeList uiZoneID freeList).setUse hdr .alloced

theorem step_run {sys : Sys} {procID : Nat} {zone : MemsZone} (bound : procID < MAX_SEQ_PROC_NUM)
    (mapped : sys.zoneOf procID ≠ INVALID_ID)
    (found : sys.shm.stMEMSZONE[sys.zoneOf procID]? = some zone) :
    sys.step (.run procID) = sys.advance procID (sys.zoneOf procID) zone := by
  have known : sys.shm.stMEMSZONE[sys.shm.uiMatrixZoneID procID]? = some zone := found
  simp only [Sys.step, if_neg (Nat.not_le_of_lt bound), known, Option.bind_some]
  exact if_neg mapped

theorem scanned_again (shm : MemsInfo) (uiZoneID freeList : Nat) (result : Option Nat × Nat) :
    scanned (shm.setFreeList uiZoneID freeList) uiZoneID result = scanned shm uiZoneID result := by
  rcases result with ⟨_ | hdr, later⟩
  · simp [scanned, MemsInfo.setFreeList]
  · simp [scanned, MemsInfo.setFreeList, MemsInfo.setUse]

theorem scanned_zones (shm : MemsInfo) (uiZoneID : Nat) (result : Option Nat × Nat) :
    (scanned shm uiZoneID result).stMEMSZONE = shm.stMEMSZONE ∧
      (scanned shm uiZoneID result).uiMatrixZoneID = shm.uiMatrixZoneID := by
  rcases result with ⟨_ | hdr, later⟩
  · exact ⟨rfl, rfl⟩
  · exact ⟨rfl, rfl⟩

section

variable (sys : Sys) {procID : Nat} {zone : MemsZone} (bound : procID < MAX_SEQ_PROC_NUM)
  (mapped : sys.zoneOf procID ≠ INVALID_ID)
  (found : sys.shm.stMEMSZONE[sys.zoneOf procID]? = some zone)

include bound mapped found

theorem step_scanning {iDebug : Nat} (scanning : sys.place procID = .scanning iDebug) :
    sys.step (.run procID) =
      some { sys.moveTo procID (.testing (sys.shm.offsetFreeList (sys.zoneOf procID)) iDebug) with
        shm := sys.shm.setFreeList (sys.zoneOf procID)
          (nextFreeList zone (sys.shm.offsetFreeList (sys.zoneOf procID))) } := by
  rw [step_run bound mapped found, Sys.advance, scanning]

theorem step_marking {pFree : Nat} (marking : sys.place procID = .marking pFree) :
    sys.step (.run procID) =
      some { sys.moveTo procID (.leaving (some (pFree + stMEMSNODEHDR_SIZE))) with
        shm := sys.shm.setUse pFree .alloced } := by
  rw [step_run bound mapped found, Sys.advance, marking]

theorem step_testing_free {pFree iDebug : Nat} (testing : sys.place procID = .testing pFree iDebug)
    (isFree : (sys.shm.nodeHdr pFree).ucIsFree = .free) :
    sys.step (.run procID) = some (sys.moveTo procID (.marking pFree)) := by
  rw [step_run bound mapped found, Sys.advance, testing]
  exact if_pos isFree

theorem step_testing_used {pFree iDebug : Nat} (testing : sys.place procID = .testing pFree iDebug)
    (used : (sys.shm.nodeHdr pFree).ucIsFree ≠ .free) :
    sys.step (.run procID) =
      if iDebug + 1 > zone.uiMemNodeTotCnt then some (sys.moveTo procID (.leaving none))
      else some (sys.moveTo procID (.scanning (iDebug + 1))) := by
  rw [step_run bound mapped found, Sys.advance, testing]
  exact if_neg used

end

/-- The turns of a scan are `memsScan`, with the mark of the header it stopped at. -/
theorem alone_scans {zone : MemsZone} {procID : Nat} (bound : procID < MAX_SEQ_PROC_NUM)
    (tries : Nat) (sys : Sys) (mapped : sys.zoneOf procID ≠ INVALID_ID)
    (found : sys.shm.stMEMSZONE[sys.zoneOf procID]? = some zone) {iDebug : Nat}
    (left : iDebug + tries = zone.uiMemNodeTotCnt)
    (scanning : sys.place procID = .scanning iDebug) :
    Turns Sys.step (.run procID) sys
      { sys.moveTo procID (.leaving ((memsScan sys.shm.nodeHdr zone (tries + 1)
          (sys.shm.offsetFreeList (sys.zoneOf procID))).1.map (· + stMEMSNODEHDR_SIZE))) with
        shm := scanned sys.shm (sys.zoneOf procID) (memsScan sys.shm.nodeHdr zone (tries + 1)
          (sys.shm.offsetFreeList (sys.zoneOf procID))) } := by
  refine turns_cons (step_scanning sys bound mapped found scanning) ?_
  let asking : Sys :=
    { sys.moveTo procID (.testing (sys.shm.offsetFreeList (sys.zoneOf procID)) iDebug) with
      shm := sys.shm.setFreeList (sys.zoneOf procID)
        (nextFreeList zone (sys.shm.offsetFreeList (sys.zoneOf procID))) }
  have testing : asking.place procID =
      .testing (sys.shm.offsetFreeList (sys.zoneOf procID)) iDebug := Function.update_self ..
  by_cases isFree :
      (sys.shm.nodeHdr (sys.shm.offsetFreeList (sys.zoneOf procID))).ucIsFree = .free
  · refine turns_cons (step_testing_free asking bound mapped found testing isFree) ?_
    refine turns_cons (step_marking (asking.moveTo procID _) bound mapped found
      (Function.update_self ..)) ?_
    simp [asking, memsScan, isFree, scanned, Sys.moveTo, nextFreeList, turns_none]
  · have used := step_testing_used asking bound mapped found testing isFree
    cases tries with
    | zero =>
        refine turns_cons (used.trans (if_pos (by omega))) ?_
        simp [asking, memsScan, isFree, scanned, Sys.moveTo, nextFreeList, turns_none]
    | succ tries =>
        refine turns_cons (used.trans (if_neg (by omega))) ?_
        have later := alone_scans bound tries (asking.moveTo procID (.scanning (iDebug + 1))) mapped
          found (by omega) (Function.update_self ..)
        have round : memsScan sys.shm.nodeHdr zone (tries + 1 + 1)
            (sys.shm.offsetFreeList (sys.zoneOf procID)) =
          memsScan sys.shm.nodeHdr zone (tries + 1)
            (nextFreeList zone (sys.shm.offsetFreeList (sys.zoneOf procID))) := by
          rw [memsScan, if_neg isFree]
          rfl
        have position : asking.shm.offsetFreeList (sys.zoneOf procID) =
            nextFreeList zone (sys.shm.offsetFreeList (sys.zoneOf procID)) :=
          Function.update_self ..
        rw [round, ← position, ← scanned_again sys.shm (sys.zoneOf procID)
          (nextFreeList zone (sys.shm.offsetFreeList (sys.zoneOf procID)))]
        simp only [asking, Sys.moveTo, Function.update_idem] at later ⊢
        exact later

/-- A call that nobody interrupts is `memsAlloc`, and leaves the semaphores as they were. -/
theorem alone_allocates {zone : MemsZone} {procID : Nat} (bound : procID < MAX_SEQ_PROC_NUM)
    (sys : Sys) (mapped : sys.zoneOf procID ≠ INVALID_ID)
    (found : sys.shm.stMEMSZONE[sys.zoneOf procID]? = some zone)
    (outside : sys.place procID = .idle) (up : sys.sem (sys.iSemID (sys.zoneOf procID)) = true) :
    Turns Sys.step (.run procID) sys
      { sys with
        shm := (memsAlloc sys.shm zone.uiMemNodeBodySize (sys.zoneOf procID)).2
        handed := ((memsAlloc sys.shm zone.uiMemNodeBodySize (sys.zoneOf procID)).1.map
          fun node => (procID, node)).toList ++ sys.handed } := by
  obtain ⟨sem, passed, raised⟩ := sem_round sys.sem (sys.iSemID (sys.zoneOf procID))
    (sys.uiSemFlag (sys.zoneOf procID)) up
  let entered : Sys := { sys.moveTo procID (.scanning 0) with sem := sem }
  have entering : sys.step (.run procID) = some entered := by
    rw [step_run bound mapped found, Sys.advance, outside]
    exact Option.map_eq_some_iff.mpr ⟨sem, passed, rfl⟩
  obtain ⟨result, scan⟩ : ∃ result, memsScan sys.shm.nodeHdr zone (zone.uiMemNodeTotCnt + 1)
      (sys.shm.offsetFreeList (sys.zoneOf procID)) = result := ⟨_, rfl⟩
  have scans : Turns Sys.step (.run procID) entered
      { entered.moveTo procID (.leaving ((memsScan sys.shm.nodeHdr zone (zone.uiMemNodeTotCnt + 1)
          (sys.shm.offsetFreeList (sys.zoneOf procID))).1.map (· + stMEMSNODEHDR_SIZE))) with
        shm := scanned sys.shm (sys.zoneOf procID) (memsScan sys.shm.nodeHdr zone
          (zone.uiMemNodeTotCnt + 1) (sys.shm.offsetFreeList (sys.zoneOf procID))) } :=
    alone_scans bound zone.uiMemNodeTotCnt entered mapped found (Nat.zero_add _)
      (Function.update_self ..)
  have call : memsAlloc sys.shm zone.uiMemNodeBodySize (sys.zoneOf procID) =
      (result.1.map (· + stMEMSNODEHDR_SIZE), scanned sys.shm (sys.zoneOf procID) result) := by
    simp only [memsAlloc, found, Nat.lt_irrefl, if_false, scan]
    rcases result with ⟨_ | hdr, freeList⟩
    · rfl
    · rfl
  rw [scan] at scans
  rw [call]
  refine turns_cons entering (turns_trans scans ?_)
  have zones := scanned_zones sys.shm (sys.zoneOf procID) result
  let finished : Sys :=
    { entered.moveTo procID (.leaving (result.1.map (· + stMEMSNODEHDR_SIZE))) with
      shm := scanned sys.shm (sys.zoneOf procID) result }
  have same : finished.zoneOf procID = sys.zoneOf procID := congrFun zones.2 procID
  have leaving : finished.place procID = .leaving (result.1.map (· + stMEMSNODEHDR_SIZE)) :=
    Function.update_self ..
  have found' : finished.shm.stMEMSZONE[finished.zoneOf procID]? = some zone := by
    rw [same]
    exact zones.1 ▸ found
  have mapped' : finished.zoneOf procID ≠ INVALID_ID := by rwa [same]
  have left := step_run bound mapped' found'
  rw [Sys.advance, leaving, same] at left
  refine turns_cons left ?_
  have places : Function.update (Function.update (Function.update sys.place procID (.scanning 0))
      procID (.leaving (result.1.map (· + stMEMSNODEHDR_SIZE)))) procID .idle = sys.place := by
    rw [Function.update_idem, Function.update_idem, ← outside, Function.update_eq_self]
  have back : finished.moveTo procID .idle = { finished with place := sys.place } := by
    rw [← places]
    rfl
  rw [back]
  simp only [finished, entered, Sys.moveTo, raised]
  exact turns_none

end Alone

section Runs

theorem proc_cnt_le {conf : NifoConf} {zoneID : Nat} (single : procCnt conf zoneID ≤ 1)
    {first second : Nat} (bound : first < MAX_SEQ_PROC_NUM) (bound' : second < MAX_SEQ_PROC_NUM)
    (mapped : conf.uiMatrixZoneID first = zoneID) (mapped' : conf.uiMatrixZoneID second = zoneID) :
    first = second := by
  by_contra distinct
  have pair : [first, second].Subperm ((List.range MAX_SEQ_PROC_NUM).filter fun proc =>
      conf.uiMatrixZoneID proc = zoneID) := by
    refine List.Nodup.subperm (by simp [distinct]) ?_
    intro proc member
    rcases List.mem_pair.mp member with rfl | rfl
    · simp [bound, mapped]
    · simp [bound', mapped']
  have two : 2 ≤ _ := pair.length_le
  rw [procCnt, List.countP_eq_length_filter] at single
  omega

/-- What `nifo_conf_check` finds out about the zones of the processes. -/
theorem conf_check_alone {conf : NifoConf} (checked : nifoConfCheck conf = some 0) {zoneID : Nat}
    (known : zoneID < MAX_MEMSZONE_CNT)
    (unlocked : (conf.stMEMSZONECONF zoneID).uiSemFlag ≠ MEMS_SEMA_ON) :
    procCnt conf zoneID ≤ 1 := by
  unfold nifoConfCheck at checked
  split at checked
  · cases checked
  · split at checked
    · cases checked
    · next passed =>
        by_contra several
        refine passed (List.any_eq_true.mpr ⟨zoneID, List.mem_range.mpr known, ?_⟩)
        simp [unlocked]
        omega

theorem mems_zones_length (start : Nat) (confs : List MemsZoneConf) :
    (memsZones start confs).length = confs.length := by
  induction confs generalizing start with
  | nil => rfl
  | cons conf rest ih => simp [memsZones, ih]

theorem init_inv {conf : NifoConf} (checked : nifoConfCheck conf = some 0) (mapped : Mapped conf)
    {raw shm : MemsInfo} (created : memsInit conf.toMemsConf raw = some shm)
    (semget : Nat → Nat) : Inv (Sys.init semget conf shm) := by
  have layout := mems_zones_order (stMEMSINFO_SIZE + conf.uiHeadRoomSize)
    conf.toMemsConf.stMEMSZONECONF
  unfold memsInit at created
  split at created
  · cases created
  cases created
  refine ⟨layout.1, ?_, ?_, ?_, fun _ busy => absurd rfl busy, ?_, fun _ => trivial,
    List.nodup_nil, nofun⟩
  · intro zone member
    obtain ⟨zoneID, found⟩ := List.getElem?_of_mem member
    obtain ⟨entry, -, -, -, finish⟩ := mems_zones_get found
    exact finish
  · intro procID bound valid
    obtain ⟨configured, populated⟩ := mapped.filled procID bound valid
    have known : conf.uiMatrixZoneID procID < (memsZones (stMEMSINFO_SIZE + conf.uiHeadRoomSize)
        conf.toMemsConf.stMEMSZONECONF).length := by
      rw [mems_zones_length]
      simpa [NifoConf.toMemsConf] using configured
    have found := List.getElem?_eq_getElem known
    obtain ⟨entry, listed, -, count, -⟩ := mems_zones_get found
    have own : (conf.stMEMSZONECONF (conf.uiMatrixZoneID procID)).toMemsZoneConf = entry := by
      simpa [NifoConf.toMemsConf, configured] using listed
    refine ⟨_, 0, found, ?_, ?_⟩
    · rw [count, ← own]
      exact populated
    · show ((memsZones (stMEMSINFO_SIZE + conf.uiHeadRoomSize)
        conf.toMemsConf.stMEMSZONECONF)[conf.uiMatrixZoneID procID]?.map _).getD _ = _
      rw [found]
      simp [MemsZone.hdrOffset]
  · intro first bound second bound' same valid unlocked
    have known : conf.uiMatrixZoneID first < MAX_MEMSZONE_CNT :=
      Nat.lt_of_lt_of_le (mapped.filled first bound valid).1 mapped.count
    exact proc_cnt_le (conf_check_alone checked known unlocked) bound bound' rfl same.symm
  · exact (guarded_nobody _)

theorem Inv.exclusive {sys : Sys} (inv : Inv sys) : Exclusive sys := by
  refine ⟨inv.once, ?_, ?_, ?_, fun first second inside inside' => inv.serial inside inside'⟩
  · intro node handedOut
    obtain ⟨hdr, rfl, used⟩ := inv.inUse node handedOut
    rwa [InUse, Nat.add_sub_cancel]
  · intro procID node leaving
    have known := inv.place procID
    rw [leaving] at known
    obtain ⟨hdr, rfl, -, used, fresh⟩ := known
    refine ⟨?_, fresh⟩
    rwa [InUse, Nat.add_sub_cancel]
  · intro first second node leaving leaving'
    have known := inv.place first
    have known' := inv.place second
    rw [leaving] at known
    rw [leaving'] at known'
    obtain ⟨hdr, rfl, member, -, -⟩ := known
    obtain ⟨hdr', same, member', -, -⟩ := known'
    obtain rfl : hdr = hdr' := Nat.add_right_cancel same
    have inside : sys.place first ≠ .idle := by
      rw [leaving]
      exact Place.noConfusion
    have inside' : sys.place second ≠ .idle := by
      rw [leaving']
      exact Place.noConfusion
    by_contra distinct
    exact hdr_in_ne inv.order inv.finish
      (fun zones => distinct (inv.serial inside inside' zones)) member member' rfl

theorem alloc_exclusion_run (conf : NifoConf) (checked : nifoConfCheck conf = some 0)
    (mapped : Mapped conf) (raw shm : MemsInfo) (created : memsInit conf.toMemsConf raw = some shm)
    (semget : Nat → Nat) (actions : List Action)
    (proper : Meets Sys.step Sys.Proper (Sys.init semget conf shm) actions) (sys : Sys)
    (run : actions.foldlM Sys.step (Sys.init semget conf shm) = some sys) : Exclusive sys :=
  (run_invariant (fun _ action _ proper stepped inv => Inv.step inv action proper stepped)
    (init_inv checked mapped created semget) proper run).exclusive

/-- Two processes of a zone with a semaphore; the second one waits. -/
def sharedConf : NifoConf :=
  { unreadConf with
    uiZoneCnt := 1
    stMEMSZONECONF := Function.update unreadConf.stMEMSZONECONF 0 ⟨⟨0, 72, 2⟩, 1, 5⟩
    uiMatrixZoneID := fun procID => if procID < 2 then 0 else INVALID_ID }

def sharedPool : MemsInfo := (memsInit sharedConf.toMemsConf Nifo.zeroSegment).get (by decide)

theorem shared_mapped : Mapped sharedConf := by
  refine ⟨by decide, ?_⟩
  intro procID bound valid
  have member : sharedConf.uiMatrixZoneID procID = 0 := by
    by_contra outside
    exact valid (if_neg fun early => outside (if_pos early))
  rw [member]
  decide

theorem alloc_exclusion_run_shared :
    ∃ sys, [.run 0, .run 0, .run 0, .run 0, .run 0, .run 1, .free 4796, .run 1].foldlM Sys.step
      (Sys.init id sharedConf sharedPool) = some sys ∧ Exclusive sys := by
  refine ⟨_, rfl, ?_⟩
  refine alloc_exclusion_run sharedConf (by decide +kernel) shared_mapped Nifo.zeroSegment
    sharedPool (Option.some_get _).symm id
    [.run 0, .run 0, .run 0, .run 0, .run 0, .run 1, .free 4796, .run 1] ?_ _ rfl
  have handed : ∀ sys : Sys, sys.handed = [(0, 4796)] → sys.Proper (.free 4796) := by
    intro sys once
    left
    rw [once]
    simp
  exact meets_cons trivial rfl (meets_cons trivial rfl (meets_cons trivial rfl
    (meets_cons trivial rfl (meets_cons trivial rfl (meets_cons trivial rfl
      (meets_cons (handed _ rfl) rfl (meets_cons trivial rfl trivial)))))))

/-- The first process has taken all four nodes of a zone and given the last one back. -/
def wideSys : Sys :=
  let conf :=
    { sharedConf with stMEMSZONECONF := Function.update unreadConf.stMEMSZONECONF 0 ⟨⟨0, 72, 4⟩, 1, 5⟩ }
  let shm := (memsInit conf.toMemsConf Nifo.zeroSegment).get (by decide)
  let actions : List Action := List.replicate 20 (.run 0) ++ [.free 5120]
  (actions.foldlM Sys.step (Sys.init id conf shm)).get (by decide +kernel)

/-- The scan begins at the first node and passes three that are in use. -/
theorem alone_allocates_fourth : wideSys.shm.offsetFreeList 0 = 4760 ∧ ∃ sys,
    Turns Sys.step (.run 1) wideSys sys ∧ sys.handed = [(1, 5120), (0, 5012), (0, 4904), (0, 4796)] := by
  have zoned : wideSys.zoneOf 1 = 0 := by decide +kernel
  have mapped : wideSys.zoneOf 1 ≠ INVALID_ID := zoned ▸ by decide
  have found : wideSys.shm.stMEMSZONE[wideSys.zoneOf 1]? = some ⟨0, 72, 4, 4760, 5192⟩ := by
    rw [zoned]
    decide +kernel
  have outside : wideSys.place 1 = .idle := by decide +kernel
  have up : wideSys.sem (wideSys.iSemID (wideSys.zoneOf 1)) = true := by decide +kernel
  have allocated := alone_allocates (by decide) wideSys mapped found outside up
  exact ⟨by decide +kernel, _, allocated, by decide +kernel⟩

/-- Zone 0 has no node, and each zone has one process. -/
def emptyZoneProcs : NifoConf :=
  { emptyZoneConf with
    uiMatrixZoneID := fun procID => if procID < 2 then procID else INVALID_ID }

def emptyZoneProcsPool : MemsInfo :=
  (memsInit emptyZoneProcs.toMemsConf Nifo.zeroSegment).get (by decide)

/-- Both processes find the node of zone 1 free before either of them marks it. -/
theorem empty_zone_shared :
    nifoConfCheck emptyZoneProcs = some 0 ∧
      memsInit emptyZoneProcs.toMemsConf Nifo.zeroSegment = some emptyZoneProcsPool ∧
      ∃ sys, [.run 0, .run 1, .run 0, .run 1, .run 0, .run 1, .run 0, .run 1, .run 0,
          .run 1].foldlM Sys.step (Sys.init id emptyZoneProcs emptyZoneProcsPool) = some sys ∧
        sys.handed = [(1, 4796), (0, 4796)] ∧ ¬Exclusive sys := by
  refine ⟨by decide +kernel, (Option.some_get _).symm, _, rfl, rfl, ?_⟩
  intro exclusive
  have once : [4796, 4796].Nodup := exclusive.once
  simp at once

end Runs

end Upst.Procs
