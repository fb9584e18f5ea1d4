import Mathlib.Data.List.AList
import Mathlib.Algebra.Order.Ring.Int

/-!
`A_HTTP`: the sessions it keeps for the connections of `A_TCP`, the transactions of their
requests, and the nodes it holds for both. A node is named by the client it is allocated for and
the number of the call, so that a name is never given out twice; whether a call is granted is up
to the environment. Header and body bytes are collected in chains of nodes.

The scanners of the header are parameters: they see the bytes they are given, and those that `flex`
makes with start conditions go on in the one that they were left in, for whichever connection that was.
The clock of the analyser itself (`uiOpStartTime`, `uiOpEndTime`) is left out.
-/

namespace Upst.Http

set_option autoImplicit false

def SEQ_PROC_A_WAP20 : Nat := 9
def SEQ_PROC_A_VOD : Nat := 13
def SEQ_PROC_A_WIDGET : Nat := 19
def SEQ_PROC_A_CALL : Nat := 34

/-- `HTTP_TSESS_KEY` -/
structure TSessKey where
  uiCliIP : Nat
  usCliPort : Nat
  usReserved : Nat
  deriving DecidableEq, Repr

/-- `HTTP_TRANS_KEY` -/
structure TransKey where
  uiCliIP : Nat
  usCliPort : Nat
  usHttpTransID : Nat
  deriving DecidableEq, Repr

structure Stamp where
  sec : Nat
  usec : Nat
  deriving DecidableEq, Repr

def Stamp.zero : Stamp := ⟨0, 0⟩

def Stamp.micros (stamp : Stamp) : Nat := stamp.sec * 1000000 + stamp.usec

/-- The sixteen packet, retransmission and size counters, in the order of the record. -/
abbrev Counts := Vector Nat 16

def Counts.zero : Counts := Vector.replicate 16 0

def Counts.add (counts more : Counts) : Counts :=
  Vector.zipWith (fun count other => (count + other) % 2 ^ 32) counts more

inductive NodeId
  | read (number : Nat)
  | alloc (client : TSessKey) (call : Nat)
  deriving DecidableEq, Repr

/-- The TLV types of the data nodes. -/
inductive DataType
  | reqHdr | reqBody | resHdr | resBody
  deriving DecidableEq, Repr

def dataType : Bool → Bool → DataType
  | false, false => .reqHdr
  | false, true => .reqBody
  | true, false => .resHdr
  | true, true => .resBody

/-- A data node with the nodes continuing it; `room` is what is left in the last of them. -/
structure Chain where
  type : DataType
  head : NodeId
  conts : List NodeId
  bytes : List UInt8
  room : Nat
  deriving DecidableEq, Repr

def Chain.nodes (chain : Chain) : List NodeId := chain.head :: chain.conts

inductive TcpFlag
  | start
  | data
  | finish
  | other
  deriving DecidableEq, Repr

/-- `DEF_FROM_CLIENT` and `DEF_FROM_SERVER` are values of `ucRtx`. -/
structure TcpInfo where
  cTcpFlag : TcpFlag
  uiCliIP : Nat
  usCliPort : Nat
  uiSrvIP : Nat
  usSrvPort : Nat
  ucRtx : Nat
  uiSeqNum : Nat
  uiAckNum : Nat
  capTime : Stamp
  ackTime : Stamp
  usL4FailCode : Nat
  usAppCode : Nat
  usL4Code : Nat
  usL7Code : Nat
  ucTcpClientStatus : Nat
  ucTcpServerStatus : Nat
  counts : Counts
  /-- The `uiDataSize` bytes at `uiSOffset`. -/
  payload : List UInt8

def makeTcpHashKey (info : TcpInfo) : TSessKey where
  uiCliIP := info.uiCliIP
  usCliPort := info.usCliPort
  usReserved := 0

def makeHttpHashKey (key : TSessKey) (usTransID : Nat) : TransKey where
  uiCliIP := key.uiCliIP
  usCliPort := key.usCliPort
  usHttpTransID := usTransID % 2 ^ 16

inductive Method
  | get | post | head | options | put | delete | trace | connect | result
  | describe | setup | play | pause | announce | getParameter | record | redirect
  | setParameter | teardown
  | response
  deriving DecidableEq, Repr

inductive UrlType
  | hostPort | hostNoport | nohostNoport | connect
  deriving DecidableEq, Repr

/-- What `httpheader` finds: `urlType` is `none` for a response. -/
structure HeaderLine where
  method : Method
  url : List UInt8
  urlType : Option UrlType
  resCode : Nat

/-- What `httphdrinfo` finds; `zip` is not written when there is no `Content-Encoding`. -/
structure HdrInfo where
  host : List UInt8
  ctype : List UInt8
  clen : Int
  chunked : Bool
  zip : Option Nat
  pktCnt : Int

/-- What `httpctype` finds; the key of a multipart body is not written when there is none. -/
structure CType where
  ctype : Nat
  multi : Option (List UInt8)

/-- The start conditions of `httphdrinfo`. -/
inductive HdrStart
  | initial | host | ctype | clen | cenco | pcnt
  deriving DecidableEq

/-- The start conditions of `httpctype`. -/
inductive CTypeStart
  | initial | multipart | boundary
  deriving DecidableEq

/-- The start conditions that the two scanners were left in. -/
structure Starts where
  hdr : HdrStart
  ctype : CTypeStart
  deriving DecidableEq

/-- The scanners. `httphdrinfo` is given the bytes in the first node and the length of the whole
header, `platformType` is `dGetPlatformType`. -/
structure Parsers where
  httpheader : List UInt8 → Option HeaderLine
  httphdrinfo : HdrStart → List UInt8 → Nat → HdrInfo × HdrStart
  httpctype : CTypeStart → List UInt8 → CType × CTypeStart
  httphost : List UInt8 → List UInt8
  platformType : Nat → Nat → Nat

inductive EndState
  | empty | s0D | s0D0A | s0D0A0D | s0D0A0D0A | s30
  deriving DecidableEq, Repr

inductive Status
  | hdrWait | hdrDoing | bodyWait | bodyDoing
  deriving DecidableEq, Repr

inductive LenType
  | none | contentLength | chunked | multipart | packetCounter
  deriving DecidableEq, Repr

structure MultiKey where
  key : List UInt8
  state : Nat
  deriving DecidableEq, Repr

/-- `st_MSG_INFO`. The current node of a chain is its last one. -/
structure MsgInfo where
  uiLastSeq : Nat
  uiNextSeq : Nat
  startTime : Stamp
  lastUpdateTime : Stamp
  ackTime : Stamp
  uiHdrLen : Nat
  uiBodyLen : Nat
  uiLimitLen : Nat
  ucLenType : LenType
  uiLen : Nat
  uiMaxLen : Nat
  buffering : Bool
  ucStatus : Status
  ucEndStatus : EndState
  hdr : Option Chain
  body : Option Chain
  dZip : Nat
  dChunked : Nat
  multiKey : MultiKey
  deriving DecidableEq, Repr

/-- `HTTP_TSESS`; `req` and `res` are `MSGINFO[0]` and `MSGINFO[1]`. -/
structure TSess where
  uiSrvIP : Nat
  usSrvPort : Nat
  tcpSynTime : Stamp
  usNextTransID : Nat
  usFirstTransID : Nat
  usLastTransID : Nat
  usCurTransCnt : Nat
  usTotTransCnt : Nat
  ucSynRtx : Nat
  usL4FailCode : Nat
  usAppCode : Nat
  usL4Code : Nat
  usL7Code : Nat
  ucMethod : Option Method
  usResCode : Nat
  szHostName : List UInt8
  urlType : Option UrlType
  szUrl : List UInt8
  usContentsType : Nat
  ucTcpClientStatus : Nat
  ucTcpServerStatus : Nat
  req : MsgInfo
  res : MsgInfo
  counts : Counts
  deriving DecidableEq

def TSess.msg (sess : TSess) : Bool → MsgInfo
  | false => sess.req
  | true => sess.res

def TSess.setMsg (sess : TSess) (isNotREQ : Bool) (msg : MsgInfo) : TSess :=
  match isNotREQ with
  | false => { sess with req := msg }
  | true => { sess with res := msg }

inductive TransStatus
  | reqHdring | reqHdr | reqBodying | reqBody
  | resHdring | resHdr | resBodying | resBody
  deriving DecidableEq, Repr

inductive LogStatus
  | reqDoing | reqDone | reqAck | resDoing | resDone | resAck
  deriving DecidableEq, Repr

/-- `LOG_HTTP_TRANS`; the fields not listed stay as `nifo_tlv_alloc` cleared them. -/
structure LogHttp where
  callTime : Stamp
  uiClientIP : Nat
  usClientPort : Nat
  uiServerIP : Nat
  usServerPort : Nat
  tcpSynTime : Stamp
  usTransID : Nat
  usPlatformType : Nat
  usSvcL4Type : Nat
  usSvcL7Type : Nat
  usContentsType : Nat
  ucMethod : Option Method
  reqStartTime : Stamp
  reqEndTime : Stamp
  reqAckTime : Stamp
  resStartTime : Stamp
  resEndTime : Stamp
  mnAckTime : Stamp
  lastPktTime : Stamp
  llTransGapTime : Int
  usResCode : Nat
  ucTcpClientStatus : Nat
  ucTcpServerStatus : Nat
  ucStatus : LogStatus
  usUserErrorCode : Nat
  usL4FailCode : Nat
  usL7FailCode : Nat
  szLOGURL : List UInt8
  szURL : List UInt8
  counts : Counts
  uiTcpUpBodySize : Nat
  uiTcpDnBodySize : Nat
  uiUpHeaderSize : Nat
  uiDnHeaderSize : Nat
  uiUpBodySize : Nat
  uiDnBodySize : Nat
  uiContentLength : Nat
  uiLimitDataSize : Nat
  szHostName : List UInt8
  dChunked : Nat
  dReqZip : Nat
  szReqMulti : List UInt8
  dResZip : Nat
  szResMulti : List UInt8
  deriving DecidableEq

/-- `HTTP_TRANS` with the node of its log. The two chains for an ack message are always empty. -/
structure Trans where
  usL4FailCode : Nat
  usL7FailCode : Nat
  usL4Code : Nat
  usL7Code : Nat
  ucStatus : TransStatus
  dSndMsgQ : Nat
  reqHdr : Option Chain
  reqBody : Option Chain
  resHdr : Option Chain
  resBody : Option Chain
  logNode : NodeId
  log : LogHttp
  deriving DecidableEq

/-- What goes to the next process: a node as it was read, or a log with the chains linked to it. -/
inductive Parcel
  | node (node : NodeId)
  | log (node : NodeId) (record : LogHttp) (linked : List Chain)
  deriving DecidableEq

/-- The functions that allocate nodes. -/
inductive Caller
  | create | init | cont | status
  deriving DecidableEq, Repr

/-- The calls that may fail: a data node is for the request or the response and for its header or
its body. -/
inductive Call
  | node (caller : Caller) (isNotREQ body : Bool)
  | tlv (caller : Caller) (isNotREQ body : Bool)
  | logNode
  | logTlv
  | addSess
  | addTrans
  | writeTcp
  | writeLog
  deriving DecidableEq, Repr

structure Env where
  grants : Call → TSessKey → Nat → Bool
  /-- Whether `gifo_write` to `A_VOD` takes the node read as the `n`-th. -/
  writesVod : Nat → Bool
  headRoom : Nat
  contRoom : Nat
  gACALLCnt : Nat
  parsers : Parsers

/-- What is printed on entry to `dProcStatus`. -/
structure StatusLine where
  isNotREQ : Bool
  usNextTransID : Nat
  usFirstTransID : Nat
  usLastTransID : Nat
  usCurTransCnt : Nat
  usTotTransCnt : Nat
  deriving DecidableEq, Repr

inductive Event
  | read (node : NodeId)
  | alloc (node : NodeId)
  | delete (nodes : List NodeId)
  | written (dest : Nat) (parcel : Parcel)
  /-- Deleted in place of a write, for want of a destination. -/
  | dropped (parcel : Parcel)
  | status (client : TSessKey) (line : StatusLine)
  | entered (key : TransKey)
  /-- A transaction of that key is still there. -/
  | refused (key : TransKey)
  | attached (key : TransKey) (hdr body : Option Chain)
  | left (key : TransKey)
  deriving DecidableEq

structure World where
  tcp : AList fun _ : TSessKey => TSess
  http : AList fun _ : TransKey => Trans
  curSessCnt : Int
  calls : TSessKey → Nat
  reads : Nat
  starts : Starts
  events : List Event

def World.start : World where
  tcp := ∅
  http := ∅
  curSessCnt := 0
  calls := fun _ => 0
  reads := 0
  starts := ⟨.initial, .initial⟩
  events := []

def World.emit (world : World) (event : Event) : World :=
  { world with events := world.events ++ [event] }

def World.called (world : World) (client : TSessKey) : World :=
  { world with calls := Function.update world.calls client (world.calls client + 1) }

/-- `nifo_node_delete` of a chain, nothing for the offset 0. -/
def World.deleteChain (world : World) (chain : Option Chain) : World :=
  match chain with
  | none => world
  | some chain => world.emit (.delete chain.nodes)

section Calls

variable (env : Env) (client : TSessKey)

def granted (call : Call) (world : World) : Bool × World :=
  (env.grants call client (world.calls client), world.called client)

def nifoNodeAlloc (call : Call) (world : World) : Option NodeId × World :=
  match granted env client call world with
  | (false, after) => (none, after)
  | (true, after) =>
      (some (.alloc client (world.calls client)),
        after.emit (.alloc (.alloc client (world.calls client))))

def pAllocDataNode (caller : Caller) (isNotREQ body : Bool) (world : World) :
    Option Chain × World :=
  match nifoNodeAlloc env client (.node caller isNotREQ body) world with
  | (none, world) => (none, world)
  | (some node, world) =>
      match granted env client (.tlv caller isNotREQ body) world with
      | (false, world) => (none, world.emit (.delete [node]))
      | (true, world) =>
          (some {
            type := dataType isNotREQ body
            head := node
            conts := []
            bytes := []
            room := env.headRoom }, world)

/-- Returns whether it succeeds. A node without a destination is deleted. -/
def dSendHTTPData (call : Call) (dSeqProcID : Nat) (parcel : Parcel) (world : World) :
    Bool × World :=
  if 0 < dSeqProcID then
    match granted env client call world with
    | (false, world) => (false, world)
    | (true, world) => (true, world.emit (.written dSeqProcID parcel))
  else (true, world.emit (.dropped parcel))

/-! ## Collecting a message -/

def toLower (byte : UInt8) : UInt8 :=
  if 65 ≤ byte ∧ byte ≤ 90 then byte + 32 else byte

def getGapTime (endTime startTime : Stamp) : Nat := endTime.micros - startTime.micros

/-- Within ten seconds of the start of the message. -/
def MsgInfo.limit (msg : MsgInfo) : Bool :=
  getGapTime msg.lastUpdateTime msg.startTime ≤ 10 * 1000000

/-- The states in which `dGetData` looks for the end of the header. -/
def EndState.header (state : EndState) (byte : UInt8) : Option EndState :=
  match state with
  | .empty => some (if byte = 0x0D then .s0D else .empty)
  | .s0D => some (if byte = 0x0A then .s0D0A else if byte = 0x0D then .s0D else .empty)
  | .s0D0A => some (if byte = 0x0D then .s0D0A0D else .empty)
  | .s0D0A0D => some (if byte = 0x0A then .s0D0A0D0A else if byte = 0x0D then .s0D else .empty)
  | .s0D0A0D0A => none
  | .s30 => none

/-- The states in which `dGetChunkedData` looks for the last chunk. -/
def EndState.chunk (state : EndState) (byte : UInt8) : Option EndState :=
  match state with
  | .empty => some (if byte = 0x30 then .s30 else .empty)
  | .s30 => some (if byte = 0x0D then .s0D else if byte = 0x30 then .s30 else .empty)
  | .s0D => some (if byte = 0x0A then .s0D0A else if byte = 0x30 then .s30 else .empty)
  | .s0D0A => some (if byte = 0x0D then .s0D0A0D else if byte = 0x30 then .s30 else .empty)
  | .s0D0A0D => some (if byte = 0x0A then .s0D0A0D0A else if byte = 0x30 then .s30 else .empty)
  | .s0D0A0D0A => none

/-- One byte at the end of a chain; a chain that is full is continued by a new node. -/
def putByte (isNotREQ body : Bool) (chain : Chain) (byte : UInt8) (world : World) :
    Option Chain × World :=
  if chain.room = 0 then
    match nifoNodeAlloc env client (.node .cont isNotREQ body) world with
    | (none, world) => (none, world)
    | (some node, world) =>
        (some { chain with
          conts := chain.conts ++ [node]
          bytes := chain.bytes ++ [byte]
          room := env.contRoom - 1 }, world)
  else
    (some { chain with bytes := chain.bytes ++ [byte], room := chain.room - 1 }, world)

/-- The return values 0, `END_STATE_0D0A0D0A` and those below 0. -/
inductive Got
  | more
  | ended
  | failed
  deriving DecidableEq, Repr

def MsgInfo.countHdr (msg : MsgInfo) (limit : Bool) (chain : Chain) : MsgInfo :=
  { msg with
    hdr := some chain
    uiHdrLen := (msg.uiHdrLen + 1) % 2 ^ 32
    uiLimitLen := (msg.uiLimitLen + limit.toNat) % 2 ^ 32 }

/-- `count` bytes of the body. -/
def MsgInfo.countBody (msg : MsgInfo) (limit : Bool) (count : Nat) : MsgInfo :=
  { msg with
    uiBodyLen := (msg.uiBodyLen + count) % 2 ^ 32
    uiLimitLen := (msg.uiLimitLen + limit.toNat * count) % 2 ^ 32 }

/-- Returns the bytes behind the header as well. `none` where the chain to write to is gone. -/
def dGetData (isNotREQ limit : Bool) :
    List UInt8 → MsgInfo → World → Option ((Got × List UInt8 × MsgInfo) × World)
  | [], msg, world => some ((.more, [], msg), world)
  | byte :: rest, msg, world =>
      match msg.ucEndStatus.header byte with
      | none => some ((.failed, byte :: rest, msg), world)
      | some state =>
          match msg.hdr with
          | none => none
          | some chain =>
              match putByte env client isNotREQ false chain (toLower byte) world with
              | (none, world) =>
                  some ((.failed, byte :: rest, { msg with ucEndStatus := state }), world)
              | (some chain, world) =>
                  if state = .s0D0A0D0A then
                    some ((.ended, rest, { msg with ucEndStatus := state }.countHdr limit chain),
                      world)
                  else
                    dGetData isNotREQ limit rest
                      ({ msg with ucEndStatus := state }.countHdr limit chain) world

/-- One byte of the body into its chain, in small letters unless it is compressed. -/
def putBody (isNotREQ : Bool) (msg : MsgInfo) (byte : UInt8) (world : World) :
    Option (Option MsgInfo × World) :=
  match msg.body with
  | none => none
  | some chain =>
      match putByte env client isNotREQ true chain
        (if 0 < msg.dZip then byte else toLower byte) world with
      | (none, world) => some (none, world)
      | (some chain, world) => some (some { msg with body := some chain }, world)

/-- `uiMaxLen` bytes are enough. -/
def MsgInfo.stopBuffering (msg : MsgInfo) : MsgInfo :=
  if 0 < msg.uiMaxLen ∧ msg.uiMaxLen = msg.uiBodyLen then { msg with buffering := false } else msg

/-- The bytes of one node are all buffered, also those behind the one that ends the buffering. -/
def lengthLoop (isNotREQ limit : Bool) :
    List UInt8 → MsgInfo → World → Option ((Got × MsgInfo) × World)
  | [], msg, world => some ((.more, msg), world)
  | byte :: rest, msg, world =>
      match putBody env client isNotREQ msg byte world with
      | none => none
      | some (none, world) => some ((.failed, msg), world)
      | some (some msg, world) =>
          if msg.uiLen = (msg.countBody limit 1).uiBodyLen then
            some ((.ended, { msg.countBody limit 1 with ucEndStatus := .s0D0A0D0A }), world)
          else
            lengthLoop isNotREQ limit rest (msg.countBody limit 1).stopBuffering world

def dGetLengthData (isNotREQ limit : Bool) (data : List UInt8) (msg : MsgInfo) (world : World) :
    Option ((Got × MsgInfo) × World) :=
  if msg.buffering then lengthLoop env client isNotREQ limit data msg world
  else if msg.uiLen = (msg.uiBodyLen + data.length) % 2 ^ 32 then
    some ((.ended, { msg.countBody limit data.length with ucEndStatus := .s0D0A0D0A }), world)
  else if msg.uiLen < (msg.uiBodyLen + data.length) % 2 ^ 32 then
    some ((.ended, { msg.countBody limit
      ((data.length + 2 ^ 32 - ((msg.uiBodyLen + data.length) % 2 ^ 32 - msg.uiLen)) % 2 ^ 32)
      with ucEndStatus := .s0D0A0D0A }), world)
  else some ((.more, msg.countBody limit data.length), world)

/-- A byte that is not buffered is only counted. -/
def putChunked (isNotREQ : Bool) (msg : MsgInfo) (byte : UInt8) (world : World) :
    Option (Option MsgInfo × World) :=
  if msg.buffering then putBody env client isNotREQ msg byte world else some (some msg, world)

def dGetChunkedData (isNotREQ limit : Bool) :
    List UInt8 → MsgInfo → World → Option ((Got × MsgInfo) × World)
  | [], msg, world => some ((.more, msg), world)
  | byte :: rest, msg, world =>
      match msg.ucEndStatus.chunk byte with
      | none => some ((.failed, msg), world)
      | some state =>
          match putChunked env client isNotREQ { msg with ucEndStatus := state } byte world with
          | none => none
          | some (none, world) => some ((.failed, { msg with ucEndStatus := state }), world)
          | some (some msg, world) =>
              if state = .s0D0A0D0A then some ((.ended, msg.countBody limit 1), world)
              else
                dGetChunkedData isNotREQ limit rest (msg.countBody limit 1).stopBuffering world

/-- The bytes of a multipart body are kept as they are. -/
def putMulti (isNotREQ : Bool) (msg : MsgInfo) (byte : UInt8) (world : World) :
    Option (Option MsgInfo × World) :=
  match msg.body with
  | none => none
  | some chain =>
      match putByte env client isNotREQ true chain byte world with
      | (none, world) => some (none, world)
      | (some chain, world) => some (some { msg with body := some chain }, world)

def MultiKey.next (multi : MultiKey) (byte : UInt8) : MultiKey :=
  { multi with
    state := if multi.key[multi.state]? = some (toLower byte) then multi.state + 1 else 0 }

def dGetMultiData (isNotREQ limit : Bool) :
    List UInt8 → MsgInfo → World → Option ((Got × MsgInfo) × World)
  | [], msg, world => some ((.more, msg), world)
  | byte :: rest, msg, world =>
      if msg.multiKey.key.length - 1 ≤ msg.multiKey.state then
        some ((.ended, { msg with ucEndStatus := .s0D0A0D0A }), world)
      else
        match putMulti env client isNotREQ { msg with multiKey := msg.multiKey.next byte } byte
          world with
        | none => none
        | some (none, world) =>
            some ((.failed, { msg with multiKey := msg.multiKey.next byte }), world)
        | some (some msg, world) => dGetMultiData isNotREQ limit rest (msg.countBody limit 1) world

/-- When a node is missing, the message stays as it is but for its two chains. -/
def initBuffer (isNotREQ : Bool) (msg : MsgInfo) (world : World) : MsgInfo × World :=
  match pAllocDataNode env client .init isNotREQ false
    ((world.deleteChain msg.hdr).deleteChain msg.body) with
  | (none, world) => ({ msg with hdr := none, body := none }, world)
  | (some hdr, world) =>
      match pAllocDataNode env client .init isNotREQ true world with
      | (none, world) =>
          ({ msg with hdr := none, body := none }, world.deleteChain (some hdr))
      | (some body, world) =>
          ({ msg with
            hdr := some hdr
            body := some body
            ucStatus := .hdrWait
            ucEndStatus := .empty
            startTime := .zero
            lastUpdateTime := .zero
            ackTime := .zero
            multiKey := { key := [], state := 0 }
            dZip := 0
            dChunked := 0 }, world)

end Calls

end Upst.Http
