import Upst.TimedTable
import Upst.HashoTables

/-!
A_DNS over UDP. A query opens a session in a table of offsets and gives it a timer, a reply that
answers it sends its log and closes it, and a timer that runs closes it too. The records are kept by
the nodes that hold them, also after the node is given back.
-/

namespace Upst.Adns

open Bytes Hasho Hashg Timern TimedTable

set_option autoImplicit false

def DEF_FROM_CLIENT : Nat := 1
def DEF_FROM_SERVER : Nat := 2
def DEF_PROTOCOL_DNS_PORT : Nat := 53
def DEF_PLATFORM_ETC : UInt16 := 12000
def DEF_CHECK_QR : UInt8 := 0x80
def DEF_CHECK_RCODE : UInt8 := 0x0F
def DNS_SESS_CNT : Nat := 5003
def DNS_SESS_KEY_SIZE : Nat := 12

section Records

structure DnsSessKey where
  SIP : UInt32
  DIP : UInt32
  usSPort : UInt16
  usDPort : UInt16
  deriving DecidableEq, Repr

def le16 (x : Nat) : List UInt8 := [UInt8.ofNat (x % 256), UInt8.ofNat (x / 256 % 256)]

def DnsSessKey.bytes (key : DnsSessKey) : List UInt8 :=
  le32 key.SIP.toNat ++ le32 key.DIP.toNat ++ le16 key.usSPort.toNat ++ le16 key.usDPort.toNat

/-- The key that is read from its bytes. -/
def keyOf (p : List UInt8) : DnsSessKey where
  SIP := UInt32.ofNat (fromLe (p.take 4))
  DIP := UInt32.ofNat (fromLe ((p.drop 4).take 4))
  usSPort := UInt16.ofNat (fromLe ((p.drop 8).take 2))
  usDPort := UInt16.ofNat (fromLe ((p.drop 10).take 2))

/-- `DNS_SESS` without the lengths that only DNS over TCP uses. A timer id of 0 is `none`. -/
structure DnsSess where
  usPlatformType : UInt16
  usSvcL4Type : UInt16
  usSvcL7Type : UInt16
  timerNID : Option TimernKey
  usIdentification : UInt16
  ucErrorCode : UInt8
  dRequestTime : UInt32
  dRequestMTime : UInt32
  dResponseTime : UInt32
  dResponseMTime : UInt32
  usRequestCnt : UInt16
  usResponseCnt : UInt16
  uiRequestSize : UInt32
  uiResponseSize : UInt32
  deriving DecidableEq, Repr

/-- Everything is cleared but the id of the timer. -/
def InitDNSSESS (session : DnsSess) : DnsSess where
  usPlatformType := 0
  usSvcL4Type := 0
  usSvcL7Type := 0
  timerNID := session.timerNID
  usIdentification := 0
  ucErrorCode := 0
  dRequestTime := 0
  dRequestMTime := 0
  dResponseTime := 0
  dResponseMTime := 0
  usRequestCnt := 0
  usResponseCnt := 0
  uiRequestSize := 0
  uiResponseSize := 0

structure LogDns where
  uiClientIP : UInt32
  uiCallTime : UInt32
  uiCallMTime : UInt32
  usPlatformType : UInt16
  usSvcL4Type : UInt16
  usSvcL7Type : UInt16
  usIdentification : UInt16
  ucErrorCode : UInt8
  usSPort : UInt16
  DIP : UInt32
  dRequestTime : UInt32
  dRequestMTime : UInt32
  dResponseTime : UInt32
  dResponseMTime : UInt32
  usRequestCnt : UInt16
  usResponseCnt : UInt16
  uiRequestSize : UInt32
  uiResponseSize : UInt32
  deriving DecidableEq, Repr

def logOf (key : DnsSessKey) (session : DnsSess) : LogDns where
  uiClientIP := key.SIP
  uiCallTime := session.dRequestTime
  uiCallMTime := session.dRequestMTime
  usPlatformType := session.usPlatformType
  usSvcL4Type := session.usSvcL4Type
  usSvcL7Type := session.usSvcL7Type
  usIdentification := session.usIdentification
  ucErrorCode := session.ucErrorCode
  usSPort := key.usSPort
  DIP := key.DIP
  dRequestTime := session.dRequestTime
  dRequestMTime := session.dRequestMTime
  dResponseTime := session.dResponseTime
  dResponseMTime := session.dResponseMTime
  usRequestCnt := session.usRequestCnt
  usResponseCnt := session.usResponseCnt
  uiRequestSize := session.uiRequestSize
  uiResponseSize := session.uiResponseSize

/-- What the capture header and `INFO_ETH` say of a message; `pDATA` are the bytes from its Ethernet
header on. -/
structure Message where
  bRtxType : Nat
  curtime : UInt32
  ucurtime : UInt32
  dwSrcIP : UInt32
  dwDestIP : UInt32
  wSrcPort : UInt16
  wDestPort : UInt16
  wIPHeaderLen : Nat
  wHeaderLen : Nat
  wTotalLength : UInt32
  usL4Code : UInt16
  usL7Code : UInt16
  pDATA : Nat → UInt8

/-- The offset of the DNS header. -/
def Message.pDNS (message : Message) : Nat := 14 + message.wIPHeaderLen + message.wHeaderLen

def Message.Ident (message : Message) : UInt16 :=
  UInt16.ofNat (fromLe (readBytes message.pDATA message.pDNS 2))

def Message.Param (message : Message) (index : Nat) : UInt8 :=
  message.pDATA (message.pDNS + 2 + index)

def Message.ucRCode (message : Message) : UInt8 := message.Param 1 &&& DEF_CHECK_RCODE

/-- The key of the session, or the code of the failure. -/
def Message.key (message : Message) : Except Int DnsSessKey :=
  if message.bRtxType = DEF_FROM_CLIENT then
    if message.wDestPort.toNat ≠ DEF_PROTOCOL_DNS_PORT then .error (-1)
    else .ok ⟨message.dwSrcIP, message.dwDestIP, message.wSrcPort, message.wDestPort⟩
  else if message.bRtxType = DEF_FROM_SERVER then
    if message.wSrcPort.toNat ≠ DEF_PROTOCOL_DNS_PORT then .error (-2)
    else .ok ⟨message.dwDestIP, message.dwSrcIP, message.wDestPort, message.wSrcPort⟩
  else .error (-3)

end Records

section State

/-- What `dSend_DNSLog` gets from `nifo_node_alloc`, from `nifo_tlv_alloc` and from `gifo_write`. -/
structure Send where
  pstNode : Option Nat
  pLOGDNS : Bool
  dRet : Int

/-- What a call gets from outside: `time(NULL)`, the timeout that is set, the results of `malloc`, what
the record on the stack holds, and the results for the log that a callback sends and for its own. -/
structure Supply where
  time : Int
  guiTimerValue : Nat
  malloc : List Nat → Option Nat
  DNSSESS : DnsSess
  late : Send
  send : Send

def Supply.timeout (supply : Supply) : Int := supply.time + supply.guiTimerValue

/-- A log that `gifo_write` took: its node, the number of its session, and the receiver. -/
structure Written where
  pstNode : Nat
  session : Nat
  uiRProcID : Nat
  log : LogDns

/-- Sessions are numbered as they are added; `number` is that of the session in a node. `strayed` are
the nodes whose record was used while the node was free, `removed` the sessions that were deleted and
`nodes` the nodes that were taken for logs. No path gives such a node back. -/
structure DnsState where
  pDNSSESSHASH : HashoInfo
  pDNSSESS : Nat → DnsSess
  pTIMERNINFO : TimernInfo
  count : Nat
  number : Nat → Nat
  strayed : List Nat
  removed : List Nat
  nodes : List Nat
  written : List Written

/-- The node is marked as allocated. -/
def InUse (table : HashoInfo) (p : Nat) : Prop :=
  (table.memg.nodeHdr (p + stMEMGINFO_SIZE - stMEMGNODEHDR_SIZE)).ucIsFree = .alloced

instance (table : HashoInfo) (p : Nat) : Decidable (InUse table p) :=
  inferInstanceAs (Decidable (_ = _))

/-- A use of the record in a node. -/
def DnsState.touch (state : DnsState) (p : Nat) : DnsState :=
  if InUse state.pDNSSESSHASH p then state else { state with strayed := state.strayed ++ [p] }

def DnsState.change (state : DnsState) (p : Nat) (f : DnsSess → DnsSess) : DnsState :=
  { state.touch p with pDNSSESS := Function.update state.pDNSSESS p (f (state.pDNSSESS p)) }

def DnsState.setTimer (state : DnsState) (timer : TimernInfo) : DnsState :=
  { state with pTIMERNINFO := timer }

/-- What the process has from its start. -/
structure Conf where
  SEQ_PROC_A_CALL : Nat
  gACALLCnt : Nat
  DNS_SESS_SIZE : Nat

def Conf.sizes (conf : Conf) : HashoSizes := ⟨DNS_SESS_KEY_SIZE, conf.DNS_SESS_SIZE, DNS_SESS_CNT⟩

/-- The table has the hash function that is used where none is given. -/
def Conf.hash (conf : Conf) : List UInt8 → Nat := hashoFuncDefault conf.sizes

/-- A table in a new segment. -/
def initState (conf : Conf) (rawHash : HashoInfo) (rawSess : Nat → DnsSess) (clock : Int)
    (heap : Nat → HashgNode TimernKey TimernData) : DnsState where
  pDNSSESSHASH := hashoInit rawHash DNS_SESS_KEY_SIZE conf.DNS_SESS_SIZE DNS_SESS_CNT
  pDNSSESS := rawSess
  pTIMERNINFO := timernInit clock heap
  count := 0
  number := fun _ => 0
  strayed := []
  removed := []
  nodes := []
  written := []

/-- A timer id of 0 is that of the key which is 0. -/
def timerKey (timerNID : Option TimernKey) : TimernKey := timerNID.getD ⟨0, 0⟩

/-- The timer of a session: `invoke_del_DNS` with its key. -/
def delDns (key : List UInt8) : TimernData where
  invoke_func := 1
  arg := key

end State

section Code

variable (conf : Conf)

def dGetCALLProcID (uiClientIP : UInt32) : Nat :=
  conf.SEQ_PROC_A_CALL + uiClientIP.toNat % conf.gACALLCnt

/-- The node is not given back where the TLV or the write is refused. -/
def dSend_DNSLog (state : DnsState) (key : DnsSessKey) (p : Nat) (send : Send) : Int × DnsState :=
  match send.pstNode with
  | none => (-1, state)
  | some pstNode =>
      let state := { state with nodes := state.nodes ++ [pstNode] }
      if send.pLOGDNS = false then (-2, state)
      else
        let state := state.touch p
        if send.dRet < 0 then (-3, state)
        else
          (1, { state with
            written := state.written ++
              [⟨pstNode, state.number p, dGetCALLProcID conf key.SIP, logOf key (state.pDNSSESS p)⟩] })

/-- `hasho_del` for the session in `p`. -/
def removeSession (state : DnsState) (key : List UInt8) (p : Nat) : Option DnsState :=
  (hashoDel conf.hash state.pDNSSESSHASH key).map fun table =>
    { state with pDNSSESSHASH := table, removed := state.removed ++ [state.number p] }

/-- `timerN_del` and `hasho_del`. -/
def closeSession (state : DnsState) (key : List UInt8) (p : Nat) : Option DnsState :=
  let state := state.touch p
  (timernDel state.pTIMERNINFO (timerKey (state.pDNSSESS p).timerNID)).bind fun (timer, _) =>
    removeSession conf (state.setTimer timer) key p

def invoke_del_DNS (send : Send) (state : DnsState) (p : TimernData) : Option DnsState :=
  let key := p.arg.take DNS_SESS_KEY_SIZE
  (hashoFind conf.hash state.pDNSSESSHASH key).bind fun found =>
    match found with
    | none => some state
    | some node =>
        let state := state.change node fun session => { session with ucErrorCode := 22 }
        removeSession conf (dSend_DNSLog conf state (keyOf key) node send).2 key node

/-- `timerN_update` of the session's timer. A deadline that has passed runs the callback. -/
def updateTimer (state : DnsState) (p : Nat) (supply : Supply) : Option DnsState :=
  let state := state.touch p
  (timernUpdate state.pTIMERNINFO (timerKey (state.pDNSSESS p).timerNID) supply.timeout
    fun timer => some (timer, [])).bind fun (timerNID, timer, events) =>
      (runCallbacks (invoke_del_DNS conf supply.late) (state.setTimer timer) events).map fun state =>
        state.change p fun session => { session with timerNID := timerNID }

/-- The session for a key that has none. `none` inside is NULL. -/
def openSession (state : DnsState) (key : List UInt8) (supply : Supply) :
    Option (Option Nat × DnsState) :=
  (hashoAdd conf.hash state.pDNSSESSHASH key
    (List.replicate state.pDNSSESSHASH.usDataLen 0)).bind fun (node, table) =>
      match node with
      | none => some (none, { state with pDNSSESSHASH := table })
      | some p =>
          let state := { state with
            pDNSSESSHASH := table
            pDNSSESS := Function.update state.pDNSSESS p supply.DNSSESS
            count := state.count + 1
            number := Function.update state.number p state.count }
          (timernAdd state.pTIMERNINFO (delDns key) supply.timeout supply.malloc
            fun timer => some (timer, [])).bind fun (timerNID, timer, events) =>
              (runCallbacks (invoke_del_DNS conf supply.late) (state.setTimer timer) events).map
                fun state =>
                  (some p, state.change p fun session =>
                    InitDNSSESS { session with timerNID := timerNID })

/-- A reply whose identification is that of the session. -/
def answered (state : DnsState) (key : DnsSessKey) (p : Nat) (message : Message) (supply : Supply) :
    Option (Int × DnsState) :=
  let noQuery := (state.pDNSSESS p).dRequestTime = 0 ∧ (state.pDNSSESS p).dRequestMTime = 0
  let first :=
    if noQuery then closeSession conf state key.bytes p
    else some (state.change p fun session => { session with
      dResponseTime := message.curtime
      dResponseMTime := message.ucurtime })
  first.bind fun state =>
    let state := state.change p fun session => { session with
      usResponseCnt := session.usResponseCnt + 1
      uiResponseSize := session.uiResponseSize + message.wTotalLength }
    if message.ucRCode = 0 then
      let (dRet, state) := dSend_DNSLog conf state key p supply.send
      if dRet < 0 then some (-8, state)
      else (closeSession conf state key.bytes p).map fun state => (1, state)
    else some (1, state.change p fun session => { session with ucErrorCode := message.ucRCode })

def reply (state : DnsState) (key : DnsSessKey) (p : Nat) (message : Message) (supply : Supply) :
    Option (Int × DnsState) :=
  if message.bRtxType ≠ DEF_FROM_SERVER then some (-6, state)
  else
    (updateTimer conf state p supply).bind fun state =>
      if message.Ident ≠ (state.pDNSSESS p).usIdentification then some (-7, state)
      else answered conf state key p message supply

/-- The times of a query that was seen are not 0, so that another one is a retry. -/
def DnsSess.retry (session : DnsSess) : Prop :=
  session.dRequestTime ≠ 0 ∧ session.dRequestMTime ≠ 0

instance (session : DnsSess) : Decidable session.retry := inferInstanceAs (Decidable (_ ∧ _))

def query (state : DnsState) (p : Nat) (message : Message) (supply : Supply) :
    Option (Int × DnsState) :=
  if message.bRtxType ≠ DEF_FROM_CLIENT then some (-9, state)
  else
    let first :=
      if (state.pDNSSESS p).retry then updateTimer conf state p supply
      else some (state.change p fun session => { session with
        dRequestTime := message.curtime
        dRequestMTime := message.ucurtime
        usPlatformType := DEF_PLATFORM_ETC
        usSvcL4Type := message.usL4Code
        usSvcL7Type := message.usL7Code
        usIdentification := message.Ident
        ucErrorCode := 0 })
    first.map fun state =>
      (1, state.change p fun session => { session with
        usRequestCnt := session.usRequestCnt + 1
        uiRequestSize := session.uiRequestSize + message.wTotalLength })

/-- From the DNS header on. -/
def analyze (state : DnsState) (key : DnsSessKey) (p : Nat) (message : Message) (supply : Supply) :
    Option (Int × DnsState) :=
  if message.Param 0 &&& DEF_CHECK_QR = DEF_CHECK_QR then reply conf state key p message supply
  else if message.Param 0 &&& DEF_CHECK_QR = 0 then query conf state p message supply
  else some (-10, state)

def dUDPDNSProcess (state : DnsState) (message : Message) (supply : Supply) :
    Option (Int × DnsState) :=
  match message.key with
  | .error code => some (code, state)
  | .ok key =>
      (hashoFind conf.hash state.pDNSSESSHASH key.bytes).bind fun found =>
        match found with
        | some p => analyze conf state key p message supply
        | none =>
            if message.bRtxType = DEF_FROM_CLIENT then
              (openSession conf state key.bytes supply).bind fun (node, state) =>
                match node with
                | none => some (-4, state)
                | some p => analyze conf state key p message supply
            else some (-5, state)

/-- `timerN_invoke` of the main loop; `sends` are the results for the logs of its callbacks, by the
nodes that were taken before. -/
def invokeTimers (state : DnsState) (clock : Int) (sends : List Nat → Send) : Option DnsState :=
  (timernInvoke clock (fun _ _ => .done) state.pTIMERNINFO).bind fun (timer, events) =>
    runCallbacks (fun state => invoke_del_DNS conf (sends state.nodes) state) (state.setTimer timer)
      events

inductive Step where
  | message (message : Message) (supply : Supply)
  | invoke (clock : Int) (sends : List Nat → Send)

def DnsState.step (state : DnsState) : Step → Option DnsState
  | .message message supply => (dUDPDNSProcess conf state message supply).map Prod.snd
  | .invoke clock sends => invokeTimers conf state clock sends

end Code

end Upst.Adns
