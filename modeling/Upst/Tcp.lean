import Upst.Hasho
import Upst.Timern

/-!
The sessions of `A_TCP`: a table of offsets from the key of a connection to its session, a
timer for each session, and the count of sessions that the process reports. The payload, the
log records and the statistics of a session take no part in when it is opened and closed.
-/

namespace Upst.Tcp

open Bytes Word Hasho Hashg Timern

set_option autoImplicit false

def TCP_FIN : Nat := 0x01
def TCP_SYN : Nat := 0x02
def TCP_RST : Nat := 0x04
def TCP_ACK : Nat := 0x10
def TCP_SYNACK : Nat := 0x12
def TCP_SESS_KEY_SIZE : Nat := 12

section Session

/-- `DEF_FROM_NONE`, `DEF_FROM_CLIENT` and `DEF_FROM_SERVER`. -/
inductive Rtx where
  | none
  | client
  | server
  deriving DecidableEq, Repr

inductive Control where
  | syn
  | synAck
  | rst
  | fin
  | ack
  | other
  deriving DecidableEq, Repr

inductive Status where
  | syn
  | synAck
  | data
  | ack
  deriving DecidableEq, Repr

inductive FinStatus where
  | fin0
  | fin1
  | fin2
  | fin3
  deriving DecidableEq, Repr

inductive EndStatus where
  | open
  | normal
  | abnormal
  | longLast
  | rst
  deriving DecidableEq, Repr

structure TcpSessKey where
  uiSIP : Nat
  uiDIP : Nat
  usSPort : Nat
  usDPort : Nat
  deriving DecidableEq, Repr

def le16 (x : Nat) : List UInt8 := [UInt8.ofNat (x % 256), UInt8.ofNat (x / 256 % 256)]

def TcpSessKey.bytes (key : TcpSessKey) : List UInt8 :=
  le32 key.uiSIP ++ le32 key.uiDIP ++ le16 key.usSPort ++ le16 key.usDPort

/-- The fields that decide when a session is opened and closed. `uiFinChkSeq` and `uiFinChkAck`
are arrays over the directions. -/
structure TcpSess where
  ucStatus : Status
  ucFinStatus : FinStatus
  ucEndStatus : EndStatus
  ucSynRtx : Rtx
  ucFinRtx : Rtx
  ucRstRtx : Rtx
  ucRcvSyn : Bool
  uiSynSeq : Nat
  uiSynAckSeq : Nat
  uiSynAckAck : Nat
  uiFinChkSeq : Rtx → Nat
  uiFinChkAck : Rtx → Nat
  timerNID : Option TimernKey

structure Packet where
  bRtxType : Rtx
  dwSrcIP : Nat
  dwDestIP : Nat
  wSrcPort : Nat
  wDestPort : Nat
  nControlType : Nat
  seq : Nat
  ack : Nat
  wDataLen : Nat

def makeTCPHashKey (packet : Packet) : TcpSessKey :=
  if packet.bRtxType = .client then
    { uiSIP := packet.dwSrcIP
      uiDIP := packet.dwDestIP
      usSPort := packet.wSrcPort
      usDPort := packet.wDestPort }
  else
    { uiSIP := packet.dwDestIP
      uiDIP := packet.dwSrcIP
      usSPort := packet.wDestPort
      usDPort := packet.wSrcPort }

def getTCPControl (control : Nat) : Control :=
  if control &&& TCP_SYNACK = TCP_SYNACK then .synAck
  else if control &&& TCP_SYN = TCP_SYN then .syn
  else if control &&& TCP_RST = TCP_RST then .rst
  else if control &&& TCP_FIN = TCP_FIN then .fin
  else if control &&& TCP_ACK = TCP_ACK then .ack
  else .other

/-- `ucSubRtxType`, the direction against that of the packet. -/
def Rtx.sub (rtx : Rtx) : Rtx := if rtx = .server then .client else .server

/-- The record `pCreateSession` adds. It is called for SYN and SYNACK only. -/
def newSession (packet : Packet) (control : Control) : TcpSess where
  ucStatus := if control = .syn then .syn else .synAck
  ucFinStatus := .fin0
  ucEndStatus := .open
  ucSynRtx := if control = .syn then packet.bRtxType else packet.bRtxType.sub
  ucFinRtx := .none
  ucRstRtx := .none
  ucRcvSyn := control = .syn
  uiSynSeq := if control = .syn then packet.seq else u32Pred packet.ack
  uiSynAckSeq := if control = .syn then 0 else packet.seq
  uiSynAckAck := if control = .syn then 0 else packet.ack
  uiFinChkSeq := fun _ => 0
  uiFinChkAck := fun _ => 0
  timerNID := none

/-- What the switch over the control does with a session: it goes on, a new one takes its
place, or the packet is dropped. -/
inductive Verdict where
  | keep (sess : TcpSess)
  | renew
  | strange

def TcpSess.onSyn (sess : TcpSess) (packet : Packet) : Verdict :=
  if sess.ucRcvSyn then .keep sess
  else if sess.uiSynAckAck = u32 (packet.seq + 1) then .keep { sess with ucRcvSyn := true }
  else .renew

def TcpSess.onSynAck (sess : TcpSess) (packet : Packet) : Verdict :=
  if sess.uiSynAckSeq = 0 ∧ u32 (sess.uiSynSeq + 1) = packet.ack then
    .keep
      { sess with
        ucStatus := .synAck
        uiSynAckSeq := packet.seq
        uiSynAckAck := packet.ack }
  else if sess.uiSynAckSeq = packet.seq then .keep sess
  else .renew

def TcpSess.onRst (sess : TcpSess) (packet : Packet) : TcpSess :=
  { sess with
    ucEndStatus := .rst
    ucRstRtx := if packet.bRtxType = .server then .server else .client }

/-- The number that acknowledges a FIN. -/
def finAck (packet : Packet) : Nat := u32 (packet.seq + packet.wDataLen + 1)

/-- A FIN that is sent again under another number is not acknowledged yet. -/
def TcpSess.refin (sess : TcpSess) (packet : Packet) : TcpSess :=
  if sess.uiFinChkAck packet.bRtxType ≠ finAck packet then
    { sess with
      uiFinChkAck := Function.update sess.uiFinChkAck packet.bRtxType (finAck packet)
      uiFinChkSeq := Function.update sess.uiFinChkSeq packet.bRtxType 0 }
  else sess

/-- The packet acknowledges the FIN of the other direction. -/
def TcpSess.finAcked (sess : TcpSess) (packet : Packet) : Prop :=
  0 < sess.uiFinChkAck packet.bRtxType.sub ∧ sess.uiFinChkAck packet.bRtxType.sub ≤ packet.ack

instance (sess : TcpSess) (packet : Packet) : Decidable (sess.finAcked packet) :=
  inferInstanceAs (Decidable (_ ∧ _))

def TcpSess.setFinAcked (sess : TcpSess) (packet : Packet) : TcpSess :=
  { sess with
    uiFinChkSeq := Function.update sess.uiFinChkSeq packet.bRtxType.sub packet.seq }

def TcpSess.onFin (sess : TcpSess) (packet : Packet) : TcpSess :=
  match sess.ucFinStatus with
  | .fin0 =>
      { sess with
        ucFinStatus := .fin1
        uiFinChkAck := Function.update sess.uiFinChkAck packet.bRtxType (finAck packet)
        ucFinRtx := if packet.bRtxType = .server then .server else .client }
  | .fin1 =>
      if sess.ucFinRtx = packet.bRtxType then sess.refin packet
      else
        let sess :=
          { sess with
            ucFinStatus := .fin2
            uiFinChkAck := Function.update sess.uiFinChkAck packet.bRtxType (finAck packet) }
        if sess.finAcked packet then sess.setFinAcked packet else sess
  | .fin2 => sess.refin packet
  | .fin3 => sess

def TcpSess.onAck (sess : TcpSess) (packet : Packet) : TcpSess :=
  if sess.ucStatus = .syn ∨ sess.ucStatus = .synAck then
    { sess with
      ucStatus := .ack
      uiSynAckSeq :=
        if sess.uiSynAckSeq = 0 then
          if sess.ucSynRtx = packet.bRtxType then u32Pred packet.ack else packet.seq
        else sess.uiSynAckSeq }
  else if sess.ucFinStatus ≠ .fin0 ∧ sess.finAcked packet then
    let sess := sess.setFinAcked packet
    if 0 < sess.uiFinChkSeq .client ∧ 0 < sess.uiFinChkSeq .server then
      { sess with
        ucEndStatus := .normal
        ucFinStatus := .fin3 }
    else sess
  else sess

def TcpSess.verdict (sess : TcpSess) (packet : Packet) : Verdict :=
  match getTCPControl packet.nControlType with
  | .syn => sess.onSyn packet
  | .synAck => sess.onSynAck packet
  | .rst => .keep (sess.onRst packet)
  | .fin => .keep (sess.onFin packet)
  | .ack => .keep (sess.onAck packet)
  | .other => .strange

end Session

section Process

/-- What a call gets from outside: the deadlines `time(NULL) + guiTimerValue` as they are when
they are set, the results of `malloc`, whether `nifo_node_alloc` and `nifo_tlv_alloc` succeed,
and whether `dCheckSessKeyList` does. -/
structure Supply where
  updateTimeout : Int
  createTimeout : Int
  rstTimeout : Int
  malloc : List Nat → Option Nat
  logNode : Bool
  logTlv : Bool
  keyListed : Bool

/-- `sess` is the record in the data of a node of the table, by node; a node keeps it when it
is freed. -/
structure TcpState where
  pTCPHASH : HashoInfo
  sess : Nat → TcpSess
  pTIMER : TimernInfo
  curSessCnt : Nat

def TcpState.setSess (state : TcpState) (p : Nat) (sess : TcpSess) : TcpState :=
  { state with sess := Function.update state.sess p sess }

def TcpState.setTimer (state : TcpState) (timer : TimernInfo) : TcpState :=
  { state with pTIMER := timer }

/-- The table is on a new segment. -/
def dInitTcp (rawHash : HashoInfo) (rawSess : Nat → TcpSess) (TCP_SESS_SIZE TCP_SESS_CNT : Nat)
    (clock : Int) (heap : Nat → HashgNode TimernKey TimernData) : TcpState where
  pTCPHASH := hashoInit rawHash TCP_SESS_KEY_SIZE TCP_SESS_SIZE TCP_SESS_CNT
  sess := rawSess
  pTIMER := timernInit clock heap
  curSessCnt := 0

/-- A timer id of 0 is that of the key which is 0. -/
def timerKey (timerNID : Option TimernKey) : TimernKey := timerNID.getD ⟨0, 0⟩

/-- The key bytes a `TCP_COMMON` begins with. -/
def commonKey (arg : List UInt8) : List UInt8 := readBytes (fun place => arg.getD place 0) 0 TCP_SESS_KEY_SIZE

/-- The callback of a session's timer. -/
def invokeDelData (key : List UInt8) : TimernData where
  invoke_func := 1
  arg := key

variable (hash : List UInt8 → Nat)

def dCloseSession (state : TcpState) (key : List UInt8) : Option TcpState := do
  let table ← hashoDel hash state.pTCPHASH key
  some { state with
    curSessCnt := u64Pred state.curSessCnt
    pTCPHASH := table }

def invokeDel (state : TcpState) (arg : List UInt8) : Option TcpState := do
  let key := commonKey arg
  match ← hashoFind hash state.pTCPHASH key with
  | none => some state
  | some p =>
      let sess := state.sess p
      let sess := if sess.ucEndStatus ≠ .rst then { sess with ucEndStatus := .longLast } else sess
      dCloseSession hash (state.setSess p sess) key

/-- The callbacks that the timers have run, in turn. A callback makes no call to the timers. -/
def runInvoked (state : TcpState) (events : List TimerEvent) : Option TcpState :=
  events.foldlM (fun state event => match event.invoked with
    | some data => invokeDel hash state data.arg
    | none => some state) state

def timerUpdate (state : TcpState) (p : Nat) (timeout : Int) : Option TcpState := do
  let (timerNID, timer, events) ← timernUpdate state.pTIMER (timerKey (state.sess p).timerNID) timeout
    fun timer => some (timer, [])
  let state ← runInvoked hash (state.setTimer timer) events
  some (state.setSess p { state.sess p with timerNID := timerNID })

def timerDel (state : TcpState) (p : Nat) : Option TcpState := do
  let (timer, _) ← timernDel state.pTIMER (timerKey (state.sess p).timerNID)
  some (state.setTimer timer)

/-- The node of the new session. -/
def pCreateSession (state : TcpState) (key : List UInt8) (packet : Packet) (control : Control)
    (supply : Supply) : Option (Option Nat × TcpState) := do
  let state := { state with curSessCnt := u64 (state.curSessCnt + 1) }
  if ¬ supply.logNode then some (none, state)
  else if ¬ supply.logTlv then some (none, state)
  else do
    let (node, table) ← hashoAdd hash state.pTCPHASH key (List.replicate state.pTCPHASH.usDataLen 0)
    let state := { state with pTCPHASH := table }
    match node with
    | none => some (none, state)
    | some p => do
        let state := state.setSess p (newSession packet control)
        let (timerNID, timer, events) ← timernAdd state.pTIMER (invokeDelData key) supply.createTimeout
          supply.malloc fun timer => some (timer, [])
        let state ← runInvoked hash (state.setTimer timer) events
        some (some p, state.setSess p { state.sess p with timerNID := timerNID })

/-- The end of `dProcTcpSess`: a session that has ended is closed. -/
def procEnd (state : TcpState) (key : List UInt8) (p : Nat) (supply : Supply) : Option TcpState :=
  match (state.sess p).ucEndStatus with
  | .normal => do
      let state ← dCloseSession hash state key
      timerDel state p
  | .rst => timerUpdate hash state p supply.rstTimeout
  | _ => some state

/-- A session is created, entered into the list of its client, and goes through the end of
`dProcTcpSess`. -/
def procNew (state : TcpState) (key : List UInt8) (packet : Packet) (control : Control)
    (supply : Supply) : Option TcpState := do
  match ← pCreateSession hash state key packet control supply with
  | (none, state) => some state
  | (some p, state) => if supply.keyListed then procEnd hash state key p supply else some state

def dProcTcpSess (state : TcpState) (packet : Packet) (supply : Supply) : Option TcpState := do
  let key := (makeTCPHashKey packet).bytes
  let control := getTCPControl packet.nControlType
  match ← hashoFind hash state.pTCPHASH key with
  | none =>
      if control = .syn ∨ control = .synAck then procNew hash state key packet control supply
      else some state
  | some p => do
      let state ← timerUpdate hash state p supply.updateTimeout
      match (state.sess p).verdict packet with
      | .keep sess => procEnd hash (state.setSess p sess) key p supply
      | .strange => some state
      | .renew => do
          let state := state.setSess p { state.sess p with ucEndStatus := .abnormal }
          let state ← dCloseSession hash state key
          let state ← timerDel state p
          procNew hash state key packet control supply

/-- A session that `dDelSessKeyList` comes to, after CLEAR_CALL. -/
def delSessKey (state : TcpState) (key : List UInt8) : Option TcpState := do
  match ← hashoFind hash state.pTCPHASH key with
  | none => some state
  | some p => do
      let state := state.setSess p { state.sess p with ucEndStatus := .longLast }
      let state ← dCloseSession hash state key
      timerDel state p

/-- `clock` is `time(0)`. -/
def invokeTimers (state : TcpState) (clock : Int) : Option TcpState := do
  let (timer, events) ← timernInvoke clock (fun _ _ => .done) state.pTIMER
  runInvoked hash (state.setTimer timer) events

/-- What the main loop does. -/
inductive Step where
  | invoke (clock : Int)
  | packet (packet : Packet) (supply : Supply)
  | clearCall (keys : List TcpSessKey)

def TcpState.step (state : TcpState) : Step → Option TcpState
  | .invoke clock => invokeTimers hash state clock
  | .packet packet supply => dProcTcpSess hash state packet supply
  | .clearCall keys => keys.foldlM (fun state key => delSessKey hash state key.bytes) state

end Process

end Upst.Tcp
