import Upst.NifoAtomic
import Upst.NifoDelete
import Upst.NifoLookup
import Upst.TimernRun

/-!
`Create_Call_Session` of A_CALL: a node for the session, a timer for it, and a node each for its two
logs. The sizes and the types of the TLVs come from a file that the build generates; what `timerN_add`
does with a deadline that has passed is a call of `invoke_del_CALL`, which is left open here.
-/

namespace Upst.CallSession

open Mems Nifo Timern Bytes

set_option autoImplicit false

section State

/-- What the generated header defines. -/
structure Header where
  CALL_SESSION_HASH_DATA_DEF_NUM : UInt32
  CALL_SESSION_HASH_DATA_SIZE : UInt32
  LOG_DIALUP_SESS_DEF_NUM : UInt32
  LOG_DIALUP_SESS_SIZE : UInt32
  LOG_CALL_TRANS_DEF_NUM : UInt32
  LOG_CALL_TRANS_SIZE : UInt32
  STS_NEW_PAGE : Nat

def RADIUS_START_NUM : Nat := 14
def L4_PHONE : Nat := 15000

structure LogCommon where
  uiClientIP : Nat
  uiCallTime : Nat

structure LogSignal where
  uiNasIP : Nat
  usServiceType : Nat

/-- `CALL_SESSION_HASH_DATA`, as far as it is not left as `nifo_tlv_alloc` cleared it. -/
structure SessionData where
  PAGE_OLD_STATE : Nat
  PAGE_STATE : Nat
  PAGE_ID : Nat
  IV_PAGE_ID : Nat
  isServiceFlag : Nat
  timerNID : Option TimernKey
  pLOG_DIALUP_SESS : Option Nat
  offset_DIALUP : Nat
  uiPDSNIP : Nat
  pLOG_CALL_TRANS : Option Nat
  offset_CALL : Nat

structure LogDialupSess where
  common : LogCommon
  OpStartTime : Nat
  OpStartMTime : Nat
  usSvcL4Type : Nat

structure LogCallTrans where
  OpStartTime : Nat
  OpStartMTime : Nat

/-- The structures are kept by the pointers to them. -/
structure CallState where
  pool : MemsPool
  timer : TimernInfo
  session : Nat → SessionData
  dialup : Nat → LogDialupSess
  trans : Nat → LogCallTrans
  guiTimerValue : Nat
  CreateSessCnt : UInt64

/-- The arguments of a call, the time that it finds and the memory that the timers are given. -/
structure Request where
  procID : Nat
  pLOG_COMMON : LogCommon
  type : Nat
  data : LogSignal
  usCallTimeout : Nat
  time : Int
  tv_sec : Nat
  tv_usec : Nat
  malloc : List Nat → Option Nat

end State

section Code

def nodeAlloc (pool : MemsPool) (procID : Nat) : Option Nat × MemsPool :=
  match nifoNodeAlloc pool.shm procID with
  | (none, shm) => (none, { pool with shm := shm })
  | (some pNode, shm) =>
      let uiZoneID := pool.shm.uiMatrixZoneID procID
      (some pNode,
        { pool with
          shm := shm
          createCnt := Function.update pool.createCnt uiZoneID (pool.createCnt uiZoneID + 1) })

def tlvAlloc (pool : MemsPool) (pNode : Nat) (type len : UInt32) : Option Nat × MemsPool :=
  ((nifoTlvAlloc pool.shm pNode type len true).1,
    { pool with shm := (nifoTlvAlloc pool.shm pNode type len true).2 })

/-- `nifo_node_unlink_nont` and `nifo_cont_delete`. -/
def giveBack (pool : MemsPool) (pNode : Nat) : Option MemsPool :=
  (nifoContDelete (nifoNodeUnlinkNont pool pNode) pNode).map Prod.snd

/-- A node with a TLV, or the code of the failure: `noNode` or, after the node is given back, `noTlv`. -/
def nodeWithTlv (pool : MemsPool) (procID : Nat) (type len : UInt32) (noNode noTlv : Int) :
    Option (Except Int (Nat × Nat) × MemsPool) :=
  match nodeAlloc pool procID with
  | (none, pool) => some (.error noNode, pool)
  | (some pNode, pool) =>
      match tlvAlloc pool pNode type len with
      | (none, pool) => (giveBack pool pNode).map fun pool => (.error noTlv, pool)
      | (some ptr, pool) => some (.ok (pNode, ptr), pool)

variable (header : Header) (request : Request) (callback : CallState → Option CallState)

/-- The fields that are set before the timer. -/
def sessionStarted : SessionData where
  PAGE_OLD_STATE := 0
  PAGE_STATE := header.STS_NEW_PAGE
  PAGE_ID := 1
  IV_PAGE_ID := 1
  isServiceFlag := 0
  timerNID := none
  pLOG_DIALUP_SESS := none
  offset_DIALUP := 0
  uiPDSNIP := 0
  pLOG_CALL_TRANS := none
  offset_CALL := 0

/-- The callback and its argument. -/
def timerData : TimernData where
  invoke_func := 1
  arg := le32 request.pLOG_COMMON.uiClientIP ++ le32 request.pLOG_COMMON.uiCallTime

def addTimer (state : CallState) : Option (Option TimernKey × CallState) :=
  let timeout := request.time + state.guiTimerValue
  if timeout ≤ state.timer.uiCurrentTime then (callback state).map fun state => (none, state)
  else
    (timernAdd state.timer (timerData request) timeout request.malloc fun _ => none).map
      fun (timerNID, timer, _) => (timerNID, { state with timer := timer })

def CallState.setSession (state : CallState) (pSession : Nat) (session : SessionData) : CallState :=
  { state with session := Function.update state.session pSession session }

/-- From the allocation of the last node on. -/
def createTrans (offset pSession : Nat) (state : CallState) : Option (Int × CallState) :=
  (nodeWithTlv state.pool request.procID header.LOG_CALL_TRANS_DEF_NUM header.LOG_CALL_TRANS_SIZE
    (-5) (-6)).map fun (result, pool) =>
      let state := { state with pool := pool }
      match result with
      | .error code => (code, state)
      | .ok (pNode, pTrans) =>
          let session := { state.session pSession with
            pLOG_CALL_TRANS := some pTrans
            offset_CALL := pNode }
          ((offset : Int), { state.setSession pSession session with
            trans := Function.update state.trans pTrans ⟨request.tv_sec, request.tv_usec⟩
            CreateSessCnt := state.CreateSessCnt + 1 })

/-- What the start of an accounting says about the session and its dial-up log. -/
def radiusStart (session : SessionData) (dialup : LogDialupSess) : SessionData × LogDialupSess :=
  if request.type = RADIUS_START_NUM then
    ({ session with uiPDSNIP := request.data.uiNasIP },
      if request.data.usServiceType = header.LOG_DIALUP_SESS_DEF_NUM.toNat then
        { dialup with usSvcL4Type := L4_PHONE }
      else dialup)
  else (session, dialup)

/-- From the allocation of the second node on. -/
def createDialup (offset pSession : Nat) (state : CallState) : Option (Int × CallState) :=
  (nodeWithTlv state.pool request.procID header.LOG_DIALUP_SESS_DEF_NUM header.LOG_DIALUP_SESS_SIZE
    (-3) (-4)).bind fun (result, pool) =>
      let state := { state with pool := pool }
      match result with
      | .error code => some (code, state)
      | .ok (pNode, pDialup) =>
          let session := { state.session pSession with
            pLOG_DIALUP_SESS := some pDialup
            offset_DIALUP := pNode }
          let (session, dialup) := radiusStart header request session
            ⟨request.pLOG_COMMON, request.tv_sec, request.tv_usec, 0⟩
          createTrans header request offset pSession
            { state.setSession pSession session with
              dialup := Function.update state.dialup pDialup dialup }

def Create_Call_Session (state : CallState) : Option (Int × CallState) :=
  (nodeWithTlv state.pool request.procID header.CALL_SESSION_HASH_DATA_DEF_NUM
    header.CALL_SESSION_HASH_DATA_SIZE (-1) (-2)).bind fun (result, pool) =>
      let state := { state with pool := pool }
      match result with
      | .error code => some (code, state)
      | .ok (pNode, pSession) =>
          let state := { state.setSession pSession (sessionStarted header) with
            guiTimerValue := request.usCallTimeout }
          (addTimer request callback state).bind fun (timerNID, state) =>
            createDialup header request pNode pSession
              (state.setSession pSession { state.session pSession with timerNID := timerNID })

end Code

section Claim

def pending (timer : TimernInfo) : List (Nat × TimernKey × TimernData) :=
  timer.pstHASHGINFO.alloced.map fun p =>
    (p, (timer.pstHASHGINFO.node p).pstKey, (timer.pstHASHGINFO.node p).pstData)

/-- The nodes in use, the timers that wait and the number of sessions are the same. -/
structure Unchanged (state after : CallState) : Prop where
  nodes : ∀ node, InUse after.pool.shm node ↔ InUse state.pool.shm node
  timers : pending after.timer = pending state.timer
  count : after.CreateSessCnt = state.CreateSessCnt

/-- The process has no zone, or no node of its zone is free, or none has room for a TLV of `len`. -/
def Refused (shm : MemsInfo) (procID : Nat) (len : UInt32) : Prop :=
  ∀ zone, shm.uiMatrixZoneID procID ≠ INVALID_ID →
    shm.stMEMSZONE[shm.uiMatrixZoneID procID]? = some zone →
      (∀ node, NodeIn shm (shm.uiMatrixZoneID procID) node → InUse shm node) ∨
        zone.uiMemNodeBodySize < NIFO_SIZE + TLV_SIZE + len.toNat

/-- What `invoke_del_CALL` does with the pool: the nodes that it gives back are those of the sessions in
the lists of calls. -/
structure Careful (callback : CallState → Option CallState) (listed : Nat → Prop) : Prop where
  wf : ∀ state after, callback state = some after → PoolWf state.pool.shm → PoolWf after.pool.shm
  keeps : ∀ state after, callback state = some after →
    ∀ node, InUse state.pool.shm node → ¬listed node → InUse after.pool.shm node

end Claim

section Nodes

variable {pool pool' : MemsPool} {procID node : Nat}

/-- Without a node, the nodes in use are as they were, and all of the zone are. -/
theorem node_alloc_none (wf : PoolWf pool.shm) (refused : nodeAlloc pool procID = (none, pool'))
    (len : UInt32) : PoolWf pool'.shm ∧ pool'.shm.nodeHdr = pool.shm.nodeHdr ∧
      Refused pool.shm procID len := by
  rw [nodeAlloc] at refused
  split at refused
  · next shm result =>
      cases refused
      obtain ⟨wf', freeList, rfl⟩ := alloc_none wf result
      refine ⟨wf', rfl, fun zone valid found => .inl ?_⟩
      exact (node_alloc_none_iff wf rfl valid found).mp (congrArg Prod.fst result)
  · cases refused

theorem node_alloc_some (wf : PoolWf pool.shm) (given : nodeAlloc pool procID = (some node, pool')) :
    ∃ zone, pool.shm.uiMatrixZoneID procID ≠ INVALID_ID ∧
      pool.shm.stMEMSZONE[pool.shm.uiMatrixZoneID procID]? = some zone ∧
      Allocated pool.shm (pool.shm.uiMatrixZoneID procID) zone node pool'.shm := by
  rw [nodeAlloc] at given
  split at given
  · cases given
  · next shm result =>
      cases given
      have named := result
      rw [nifoNodeAlloc] at named
      split at named
      · next valid =>
          split at named
          · cases named
          · next zone found => exact ⟨zone, valid, found, nifo_node_alloc_spec wf rfl found result⟩
      · cases named

theorem allocated_taken {shm : MemsInfo} {zoneID : Nat} {zone : MemsZone}
    (allocated : Allocated shm zoneID zone node pool.shm) : Taken pool node := by
  obtain ⟨zone', index, found, inside, rfl⟩ := allocated.place
  refine ⟨Nat.le_add_left _ _, ?_, allocated.inUse⟩
  rw [Nat.add_sub_cancel]
  exact (allocated.pool.header zoneID zone' (by rw [allocated.zones]; exact found) index inside).1

theorem freed_wf {nodes : List Nat} (wf : PoolWf pool.shm) (freed : Freed pool pool' nodes) :
    PoolWf pool'.shm := by
  have kept (hdr : Nat) : (pool'.shm.nodeHdr hdr).uiID = (pool.shm.nodeHdr hdr).uiID ∧
      (pool'.shm.nodeHdr hdr).uiZoneID = (pool.shm.nodeHdr hdr).uiZoneID := by
    by_cases inside : ∃ node ∈ nodes, hdr = node - stMEMSNODEHDR_SIZE
    · obtain ⟨node, member, rfl⟩ := inside
      rw [freed.marked node member]
      exact ⟨rfl, rfl⟩
    · rw [freed.others hdr fun node member same => inside ⟨node, member, same⟩]
      exact ⟨rfl, rfl⟩
  have zones : pool'.shm.stMEMSZONE = pool.shm.stMEMSZONE := by rw [freed.rest]
  have lists : pool'.shm.offsetFreeList = pool.shm.offsetFreeList := by rw [freed.rest]
  refine ⟨?_, ?_, ?_, ?_⟩
  · rw [zones]
    exact wf.zone
  · rw [zones]
    exact wf.order
  · rw [zones, lists]
    exact wf.scanning
  · intro zoneID zone found index inside
    rw [zones] at found
    rw [(kept _).1, (kept _).2]
    exact wf.header zoneID zone found index inside

/-- A node that is given back is the only one that is no longer in use. -/
theorem give_back_spec (wf : PoolWf pool.shm) (taken : Taken pool node) : ∃ pool',
    giveBack pool node = some pool' ∧ PoolWf pool'.shm ∧ ¬InUse pool'.shm node ∧
      ∀ hdr, hdr ≠ node - stMEMSNODEHDR_SIZE → pool'.shm.nodeHdr hdr = pool.shm.nodeHdr hdr := by
  have same : Taken (nifoNodeUnlinkCont (nifoNodeUnlinkNont pool node) node) node :=
    taken_kept taken rfl
  obtain ⟨pool', free, freed, -, -⟩ := node_free_freed same
  refine ⟨pool', ?_, ?_, ?_, ?_⟩
  · rw [giveBack, nifoContDelete, free]
    rfl
  · have unlinked : PoolWf (nifoNodeUnlinkCont (nifoNodeUnlinkNont pool node) node).shm :=
      pool_wf_congr wf rfl rfl rfl
    exact freed_wf unlinked freed
  · rw [InUse, freed.marked node List.mem_cons_self]
    exact NodeUse.noConfusion
  · intro hdr apart
    apply freed.others
    intro other member
    rw [List.mem_singleton.mp member]
    exact apart

theorem tlv_alloc_kept (pNode : Nat) (type len : UInt32) :
    (tlvAlloc pool pNode type len).2.shm.nodeHdr = pool.shm.nodeHdr ∧
      (PoolWf pool.shm → PoolWf (tlvAlloc pool pNode type len).2.shm) := by
  rw [tlvAlloc, nifoTlvAlloc]
  dsimp only
  split
  · exact ⟨rfl, id⟩
  · exact ⟨rfl, fun wf => pool_wf_congr wf rfl rfl rfl⟩

theorem tlv_alloc_none_iff (pNode : Nat) (type len : UInt32) :
    (tlvAlloc pool pNode type len).1 = none ↔
      (pool.shm.nifo pNode).maxoffset < (pool.shm.nifo pNode).lastoffset + TLV_SIZE + len.toNat := by
  rw [tlvAlloc, nifoTlvAlloc]
  dsimp only
  split
  · next full => exact iff_of_true rfl full
  · next room => exact iff_of_false (Option.some_ne_none _) room

/-- What a failure and a success leave behind. -/
def Outcome (pool : MemsPool) (procID : Nat) (len : UInt32) (noNode noTlv : Int) (pool' : MemsPool) :
    Except Int (Nat × Nat) → Prop
  | .error code => (code = noNode ∨ code = noTlv) ∧ Refused pool.shm procID len ∧
      ∀ node, InUse pool'.shm node ↔ InUse pool.shm node
  | .ok (pNode, _) => ¬Refused pool.shm procID len ∧ ¬InUse pool.shm pNode ∧ InUse pool'.shm pNode ∧
      ∀ node, InUse pool.shm node → InUse pool'.shm node

theorem node_with_tlv_spec (wf : PoolWf pool.shm) {type len : UInt32} {noNode noTlv : Int}
    {result : Except Int (Nat × Nat)}
    (given : nodeWithTlv pool procID type len noNode noTlv = some (result, pool')) :
    PoolWf pool'.shm ∧ Outcome pool procID len noNode noTlv pool' result := by
  rw [nodeWithTlv] at given
  split at given
  · next pool₁ refused =>
      cases given
      obtain ⟨wf', headers, full⟩ := node_alloc_none wf refused len
      refine ⟨wf', .inl rfl, full, fun node => ?_⟩
      rw [InUse, headers]
      exact Iff.rfl
  · next pNode pool₁ allocation =>
      obtain ⟨zone, valid, found, allocated⟩ := node_alloc_some wf allocation
      obtain ⟨headers, kept⟩ := @tlv_alloc_kept pool₁ pNode type len
      have full := @tlv_alloc_none_iff pool₁ pNode type len
      rw [allocated.nifo, Function.update_self] at full
      dsimp only at full
      split at given
      · next pool₂ noRoom =>
          rw [noRoom] at headers kept full
          have taken : Taken pool₂ pNode := taken_kept (allocated_taken allocated) (by rw [headers])
          obtain ⟨pool₃, back, wf', unused, others⟩ := give_back_spec (kept allocated.pool) taken
          rw [back] at given
          cases given
          refine ⟨wf', .inr rfl, fun zone' _ found' => .inr ?_, fun node => ?_⟩
          · rw [← Option.some.inj (found.symm.trans found')]
            have small := full.mp rfl
            omega
          · by_cases own : node - stMEMSNODEHDR_SIZE = pNode - stMEMSNODEHDR_SIZE
            · have before := allocated.wasFree
              rw [InUse, ← own] at unused before
              exact iff_of_false unused before
            · rw [InUse, others _ own, headers, allocated.others _ own]
              exact Iff.rfl
      · next ptr pool₂ room =>
          rw [room] at headers kept full
          cases given
          have large := (not_congr full).mp (Option.some_ne_none _)
          refine ⟨kept allocated.pool, ?_, allocated.wasFree, ?_, ?_⟩
          · intro refused
            rcases refused zone valid found with used | small
            · exact allocated.wasFree (used pNode allocated.place)
            · omega
          · rw [InUse, headers]
            exact allocated.inUse
          · intro node used
            have apart : node - stMEMSNODEHDR_SIZE ≠ pNode - stMEMSNODEHDR_SIZE := by
              intro own
              apply allocated.wasFree
              rw [InUse, ← own]
              exact used
            rw [InUse, headers, allocated.others _ apart]
            exact used

end Nodes

section Session

variable {header : Header} {request : Request} {callback : CallState → Option CallState}

theorem trans_keeps {offset pSession node : Nat} {state after : CallState} {result : Int}
    (wf : PoolWf state.pool.shm) (used : InUse state.pool.shm node)
    (ran : createTrans header request offset pSession state = some (result, after)) :
    InUse after.pool.shm node := by
  rw [createTrans] at ran
  obtain ⟨⟨outcome, pool⟩, given, finish⟩ := Option.map_eq_some_iff.mp ran
  obtain ⟨wf', kept⟩ := node_with_tlv_spec wf given
  cases outcome with
  | error code =>
      cases finish
      exact (kept.2.2 node).mpr used
  | ok found =>
      cases finish
      exact kept.2.2.2 node used

theorem dialup_keeps {offset pSession node : Nat} {state after : CallState} {result : Int}
    (wf : PoolWf state.pool.shm) (used : InUse state.pool.shm node)
    (ran : createDialup header request offset pSession state = some (result, after)) :
    InUse after.pool.shm node := by
  rw [createDialup] at ran
  obtain ⟨⟨outcome, pool⟩, given, finish⟩ := Option.bind_eq_some_iff.mp ran
  obtain ⟨wf', kept⟩ := node_with_tlv_spec wf given
  cases outcome with
  | error code =>
      cases finish
      exact (kept.2.2 node).mpr used
  | ok found => exact trans_keeps wf' (kept.2.2.2 node used) finish

theorem timer_keeps {listed : Nat → Prop} (careful : Careful callback listed) {node : Nat}
    {state after : CallState} {timerNID : Option TimernKey} (wf : PoolWf state.pool.shm)
    (used : InUse state.pool.shm node) (unlisted : ¬listed node)
    (ran : addTimer request callback state = some (timerNID, after)) :
    PoolWf after.pool.shm ∧ InUse after.pool.shm node := by
  rw [addTimer] at ran
  dsimp only at ran
  split at ran
  · obtain ⟨state', called, finish⟩ := Option.map_eq_some_iff.mp ran
    cases finish
    exact ⟨careful.wf state after called wf, careful.keeps state after called node used unlisted⟩
  · obtain ⟨added, _, finish⟩ := Option.map_eq_some_iff.mp ran
    cases finish
    exact ⟨wf, used⟩

/-- A call leaves the pool, the timers and the count as they were just when it has failed to get the
node of the session itself: behind that, no exit gives the node back. -/
theorem create_call_session_atomic_iff (header : Header) (request : Request)
    (callback : CallState → Option CallState) (listed : Nat → Prop) (state after : CallState)
    (result : Int) (wf : PoolWf state.pool.shm) (careful : Careful callback listed)
    (known : ∀ node, listed node → InUse state.pool.shm node)
    (returned : Create_Call_Session header request callback state = some (result, after)) :
    Unchanged state after ↔
      Refused state.pool.shm request.procID header.CALL_SESSION_HASH_DATA_SIZE := by
  rw [Create_Call_Session] at returned
  obtain ⟨⟨outcome, pool⟩, given, finish⟩ := Option.bind_eq_some_iff.mp returned
  obtain ⟨wf', kept⟩ := node_with_tlv_spec wf given
  cases outcome with
  | error code =>
      cases finish
      exact iff_of_true ⟨kept.2.2, rfl, rfl⟩ kept.2.1
  | ok found =>
      obtain ⟨pNode, pSession⟩ := found
      obtain ⟨granted, fresh, used, -⟩ := kept
      refine iff_of_false (fun unchanged => fresh ((unchanged.nodes pNode).mp ?_)) granted
      obtain ⟨⟨timerNID, state'⟩, added, finish⟩ := Option.bind_eq_some_iff.mp finish
      obtain ⟨wf'', used'⟩ := timer_keeps careful wf' used (fun member => fresh (known pNode member)) added
      dsimp only at finish
      exact @dialup_keeps _ _ _ _ pNode (state'.setSession pSession _) _ _ wf'' used' finish

end Session

section OneNode

def sampleHeader : Header where
  CALL_SESSION_HASH_DATA_DEF_NUM := 1
  CALL_SESSION_HASH_DATA_SIZE := 2048
  LOG_DIALUP_SESS_DEF_NUM := 2
  LOG_DIALUP_SESS_SIZE := 512
  LOG_CALL_TRANS_DEF_NUM := 3
  LOG_CALL_TRANS_SIZE := 512
  STS_NEW_PAGE := 1

/-- A zone of one node. -/
def oneConf : MemsConf where
  uiHeadRoomSize := 0
  stMEMSZONECONF := [⟨0, 4096, 1⟩]
  uiMatrixZoneID := fun _ => 0

def onePool : MemsInfo := (memsInit oneConf zeroSegment).get (by decide)

theorem one_pool_wf : PoolWf onePool := by
  apply mems_init_wf oneConf zeroSegment _ (Option.some_get _).symm
  refine ⟨?_, by decide⟩
  intro index zone found
  cases index with
  | zero => simpa [oneConf] using (congrArg (Option.map MemsZoneConf.uiZoneID) found).symm
  | succ index => simp [oneConf] at found

def oneNode : CallState where
  pool := MemsPool.init onePool
  timer := timernInit 1000 blankHeap
  session := fun _ => sessionStarted sampleHeader
  dialup := fun _ => ⟨⟨0, 0⟩, 0, 0, 0⟩
  trans := fun _ => ⟨0, 0⟩
  guiTimerValue := 0
  CreateSessCnt := 0

def sampleRequest : Request where
  procID := 0
  pLOG_COMMON := ⟨0x0A000001, 1000⟩
  type := RADIUS_START_NUM
  data := ⟨0x0A000002, 2⟩
  usCallTimeout := 600
  time := 1000
  tv_sec := 1000
  tv_usec := 0
  malloc := nextBlock

/-- The session takes the only node, and keeps it when there is none for its first log. -/
theorem session_node_lost : ∃ after,
    Create_Call_Session sampleHeader sampleRequest some oneNode = some (-3, after) ∧
      ¬InUse oneNode.pool.shm 4796 ∧ InUse after.pool.shm 4796 ∧ ¬Unchanged oneNode after := by
  have ran : (Create_Call_Session sampleHeader sampleRequest some oneNode).map
      (fun r => (r.1, (r.2.pool.shm.nodeHdr 4760).ucIsFree)) = some (-3, .alloced) := by
    decide +kernel
  obtain ⟨⟨result, after⟩, returned, fields⟩ := Option.map_eq_some_iff.mp ran
  cases congrArg Prod.fst fields
  have unused : ¬InUse oneNode.pool.shm 4796 := by
    have free : (oneNode.pool.shm.nodeHdr 4760).ucIsFree = .free := by decide +kernel
    intro use
    exact NodeUse.noConfusion (free.symm.trans use)
  have used : InUse after.pool.shm 4796 := congrArg Prod.snd fields
  exact ⟨after, returned, unused, used, fun same => unused ((same.nodes 4796).mp used)⟩

theorem careful_some : Careful some fun _ => False where
  wf := by
    intro state after called wf
    cases called
    exact wf
  keeps := by
    intro state after called node used _
    cases called
    exact used

theorem one_node_atomic_iff : ∃ result after,
    Create_Call_Session sampleHeader sampleRequest some oneNode = some (result, after) ∧
      (Unchanged oneNode after ↔
        Refused onePool sampleRequest.procID sampleHeader.CALL_SESSION_HASH_DATA_SIZE) := by
  have runs : (Create_Call_Session sampleHeader sampleRequest some oneNode).isSome = true := by
    decide +kernel
  obtain ⟨⟨result, after⟩, returned⟩ := Option.isSome_iff_exists.mp runs
  refine ⟨result, after, returned, ?_⟩
  exact create_call_session_atomic_iff sampleHeader sampleRequest some (fun _ => False) oneNode after
    result one_pool_wf careful_some (fun _ member => member.elim) returned

end OneNode

end Upst.CallSession
