import Upst.HttpTrans

/-!
`A_HTTP` when every call is granted: what is collected of a message, and what is left of the world
by the calls that hand over no log.
-/

namespace Upst.Http

set_option autoImplicit false

/-- The log that an event hands over, whether or not there is a destination for it. -/
def Event.logged : Event → Option LogHttp
  | .written _ (.log _ record _) => some record
  | .dropped (.log _ record _) => some record
  | _ => none

/-- The logs that are handed over, with the chains linked to them. -/
def World.handed (world : World) : List Event :=
  world.events.filter fun event => event.logged.isSome

theorem handed_emit (world : World) (event : Event) :
    (world.emit event).handed = world.handed ++ if event.logged.isSome then [event] else [] := by
  rw [World.handed, World.emit, List.filter_append, World.handed, List.filter_singleton]
  cases event.logged.isSome <;> rfl

/-- Only nodes were allocated or deleted. -/
structure Quiet (world after : World) : Prop where
  tcp : after.tcp = world.tcp
  http : after.http = world.http
  count : after.curSessCnt = world.curSessCnt
  handed : after.handed = world.handed

theorem Quiet.refl (world : World) : Quiet world world :=
  ⟨rfl, rfl, rfl, rfl⟩

theorem Quiet.trans_quiet {world after final : World} (quiet : Quiet world after)
    (next : Quiet after final) : Quiet world final :=
  ⟨next.tcp.trans quiet.tcp, next.http.trans quiet.http, next.count.trans quiet.count,
    next.handed.trans quiet.handed⟩

theorem quiet_emit (world : World) {event : Event} (silent : event.logged = none) :
    Quiet world (world.emit event) where
  tcp := rfl
  http := rfl
  count := rfl
  handed := by
    rw [handed_emit, silent]
    exact List.append_nil _

theorem quiet_called (world : World) (client : TSessKey) : Quiet world (world.called client) :=
  ⟨rfl, rfl, rfl, rfl⟩

theorem quiet_deleteChain (world : World) (chain : Option Chain) :
    Quiet world (world.deleteChain chain) := by
  cases chain with
  | none => exact .refl world
  | some chain => exact quiet_emit world rfl

theorem quiet_deleteChains (world : World) (sess : TSess) :
    Quiet world (world.deleteChains sess) :=
  (((quiet_deleteChain _ _).trans_quiet (quiet_deleteChain _ _)).trans_quiet
    (quiet_deleteChain _ _)).trans_quiet (quiet_deleteChain _ _)

structure Granting (env : Env) : Prop where
  all : ∀ call client number, env.grants call client number = true

/-- A chain as `pAllocDataNode` returns it. -/
def Blank (env : Env) (type : DataType) (chain : Chain) : Prop :=
  chain.type = type ∧ chain.conts = [] ∧ chain.bytes = [] ∧ chain.room = env.headRoom

/-- The chain is the same with more bytes in it. -/
def Extends (chain : Chain) (bytes : List UInt8) (after : Chain) : Prop :=
  after.type = chain.type ∧ after.bytes = chain.bytes ++ bytes

section Granted

variable {env : Env} (granting : Granting env) (client : TSessKey) (world : World)

include granting

theorem granted_eq (call : Call) :
    granted env client call world = (true, world.called client) := by
  rw [granted, granting.all]

theorem nifoNodeAlloc_granted (call : Call) : ∃ node after,
    nifoNodeAlloc env client call world = (some node, after) ∧ Quiet world after := by
  refine ⟨.alloc client (world.calls client),
    (world.called client).emit (.alloc (.alloc client (world.calls client))), ?_, ?_⟩
  · rw [nifoNodeAlloc, granted_eq granting]
  · apply (quiet_called world client).trans_quiet
    apply quiet_emit
    rfl

theorem pAllocDataNode_granted (caller : Caller) (isNotREQ body : Bool) : ∃ chain after,
    pAllocDataNode env client caller isNotREQ body world = (some chain, after) ∧
      Blank env (dataType isNotREQ body) chain ∧ Quiet world after := by
  obtain ⟨node, middle, alloc, quiet⟩ :=
    nifoNodeAlloc_granted granting client world (.node caller isNotREQ body)
  refine ⟨⟨dataType isNotREQ body, node, [], [], env.headRoom⟩, middle.called client, ?_, ?_,
    quiet.trans_quiet (quiet_called middle client)⟩
  · rw [pAllocDataNode, alloc]
    dsimp only
    rw [granted_eq granting]
  · exact ⟨rfl, rfl, rfl, rfl⟩

end Granted

/-- The bytes of a header that have been collected. -/
structure HdrTaken (msg : MsgInfo) (data : List UInt8) (after : MsgInfo) : Prop where
  rest : after = { msg with
    ucEndStatus := after.ucEndStatus
    hdr := after.hdr
    uiHdrLen := after.uiHdrLen
    uiLimitLen := after.uiLimitLen }
  state : data.foldlM EndState.header msg.ucEndStatus = some after.ucEndStatus
  hdr : ∀ chain, msg.hdr = some chain →
    ∃ chain', after.hdr = some chain' ∧ Extends chain (data.map toLower) chain'
  len : after.uiHdrLen % 2 ^ 32 = (msg.uiHdrLen + data.length) % 2 ^ 32

theorem HdrTaken.nil (msg : MsgInfo) : HdrTaken msg [] msg where
  rest := rfl
  state := rfl
  hdr chain found := ⟨chain, found, rfl, (List.append_nil _).symm⟩
  len := rfl

theorem HdrTaken.append {msg middle after : MsgInfo} {data more : List UInt8}
    (taken : HdrTaken msg data middle) (next : HdrTaken middle more after) :
    HdrTaken msg (data ++ more) after where
  rest := by
    rw [next.rest, taken.rest]
  state := by
    rw [List.foldlM_append, taken.state]
    exact next.state
  hdr chain found := by
    obtain ⟨chain', found', type, bytes⟩ := taken.hdr chain found
    obtain ⟨chain'', found'', type', bytes'⟩ := next.hdr chain' found'
    refine ⟨chain'', found'', type'.trans type, ?_⟩
    rw [bytes', bytes, List.map_append, List.append_assoc]
  len := by
    have first := taken.len
    have second := next.len
    rw [List.length_append]
    omega

section Collect

variable {env : Env} (granting : Granting env) (client : TSessKey)

include granting

end Collect

/-! ## The cases of a node of data -/

/-- The session has been told of the node: its counters, and the next sequence number. -/
def TSess.told (sess : TSess) (info : TcpInfo) (isNotREQ : Bool) : TSess :=
  (updateHttpTsess info sess).setMsg isNotREQ ((sess.msg isNotREQ).nextSeq info)

/-- The event that hands over a log to a destination, or drops it for want of one. -/
def handOver (dest : Nat) (parcel : Parcel) : Event :=
  if 0 < dest then .written dest parcel else .dropped parcel

section Transactions

variable {env : Env} (granting : Granting env) (client : TSessKey)

include granting

theorem pCreateTcpSess_granted (info : TcpInfo) (world : World) :
    ∃ reqHdr reqBody resHdr resBody after,
      pCreateTcpSess env client info world =
        replaceSess env client (newSess info (newMsg info.uiSeqNum reqHdr reqBody)
          (newMsg info.uiAckNum resHdr resBody)) after ∧
      Blank env .reqHdr reqHdr ∧ Blank env .reqBody reqBody ∧ Blank env .resHdr resHdr ∧
      Blank env .resBody resBody ∧ Quiet world after := by
  obtain ⟨reqHdr, first, reqHdrAlloc, reqHdrBlank, quiet1⟩ :=
    pAllocDataNode_granted granting client world .create false false
  obtain ⟨reqBody, second, reqBodyAlloc, reqBodyBlank, quiet2⟩ :=
    pAllocDataNode_granted granting client first .create false true
  obtain ⟨resHdr, third, resHdrAlloc, resHdrBlank, quiet3⟩ :=
    pAllocDataNode_granted granting client second .create true false
  obtain ⟨resBody, fourth, resBodyAlloc, resBodyBlank, quiet4⟩ :=
    pAllocDataNode_granted granting client third .create true true
  refine ⟨reqHdr, reqBody, resHdr, resBody, fourth, ?_, reqHdrBlank, reqBodyBlank, resHdrBlank,
    resBodyBlank, ((quiet1.trans_quiet quiet2).trans_quiet quiet3).trans_quiet quiet4⟩
  rw [pCreateTcpSess, reqHdrAlloc]
  dsimp only
  rw [reqBodyAlloc]
  dsimp only
  rw [resHdrAlloc]
  dsimp only
  rw [resBodyAlloc]

theorem addSess_granted (sess : TSess) {world : World}
    (absent : world.tcp.lookup client = none) :
    addSess env client sess world =
      (true, { world.called client with tcp := world.tcp.insert client sess }) := by
  rw [addSess, absent]
  dsimp only
  rw [granted_eq granting]
  rfl

theorem sendNode_granted (call : Call) (dest : Nat) (node : NodeId) (world : World) : ∃ after,
    dSendHTTPData env client call dest (.node node) world = (true, after) ∧
      Quiet world after := by
  rw [dSendHTTPData]
  by_cases served : 0 < dest
  · rw [if_pos served, granted_eq granting]
    exact ⟨_, rfl, (quiet_called world client).trans_quiet (quiet_emit _ rfl)⟩
  · rw [if_neg served]
    exact ⟨_, rfl, quiet_emit _ rfl⟩

end Transactions

/-- A session without a transaction, between two messages in both directions. -/
structure Idle (sess : TSess) : Prop where
  req : sess.req.ucStatus = .hdrWait
  res : sess.res.ucStatus = .hdrWait
  none : sess.usCurTransCnt = 0

theorem dCloseTcpSess_idle (env : Env) (client : TSessKey) {sess : TSess} (idle : Idle sess)
    (world : World) :
    dCloseTcpSess env client sess world = some { world.deleteChains sess with
      tcp := (world.deleteChains sess).tcp.erase client } := by
  have req : closeMsg env client false HTTP_UERR_EMPTY sess world = (sess, world) := by
    rw [closeMsg, show (sess.msg false).ucStatus = .hdrWait from idle.req]
  have res : closeMsg env client true HTTP_UERR_EMPTY sess world = (sess, world) := by
    rw [closeMsg, show (sess.msg true).ucStatus = .hdrWait from idle.res]
  rw [dCloseTcpSess, dCloseAllHttpTrans, req]
  dsimp only
  rw [res]
  dsimp only
  rw [idle.none]
  rfl

end Upst.Http
