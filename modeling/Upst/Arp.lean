import Upst.GreentryTree
import Upst.Psess
import Upst.Slots
import Upst.Tcp

/-!
`A_RP`: the sessions of the A11 messages. A session is a record of the PSESS table, the keys of its GRE
flows are in the GREENTRY table, and the call hash holds for each subscriber the PCF and the create time
of the call. What is only reported of a session, its PPP records and the trace are left out. The search
trees, the hash and an overlapping `memcpy` decide what stands in a `Choice`.
-/

namespace Upst.Arp

open Greentry Psess Slots Tcp

set_option autoImplicit false

section Constants

def DEF_A11_REG_ACCT : UInt8 := 0x00
def DEF_A11_REG_REQ : UInt8 := 0x01
def DEF_A11_REG_REP : UInt8 := 0x03
def DEF_A11_REG_UP : UInt8 := 0x14
def DEF_A11_REG_ACK : UInt8 := 0x15
def DEF_A11_SESS_UP : UInt8 := 0x16
def DEF_A11_SESS_ACK : UInt8 := 0x17

def DEF_A11_REQUEST : UInt8 := 0x01
def DEF_A11_RESPONSE : UInt8 := 0x02
def DEF_A11_PAIR : UInt8 := 0x03

def CONN_SETUP : UInt8 := 0x01
def ACTIVE_START : UInt8 := 0x02
def ACTIVE_STOP : UInt8 := 0x04

def MAX_MIN_SIZE : Nat := 16

end Constants

section Records

structure PsessKey where
  uiServingPCF : UInt32
  uiKey : UInt32
  deriving DecidableEq, Repr

/-- The order of `memcmp`; the key has the layout of that of the GREENTRY table. -/
def PsessKey.rank (key : PsessKey) : Nat := Greentry.rank ⟨key.uiServingPCF, key.uiKey⟩

/-- `st_A11INFO`: a request and its reply. -/
structure StA11Info where
  Start : Stamp
  End : Stamp
  uiSrcIP : UInt32
  uiDestIP : UInt32
  ucFlag : UInt8
  ucReqMsgCode : UInt8
  ucRepMsgCode : UInt8
  ucReqCount : UInt8
  ucRejCount : UInt8
  ucAirlink : UInt8
  ucRegiReply : UInt8
  usLifetime : UInt16
  usA11Flag : UInt16
  uiUpdateReason : UInt32
  deriving DecidableEq, Repr

def StA11Info.zero : StA11Info where
  Start := Stamp.zero
  End := Stamp.zero
  uiSrcIP := 0
  uiDestIP := 0
  ucFlag := 0
  ucReqMsgCode := 0
  ucRepMsgCode := 0
  ucReqCount := 0
  ucRejCount := 0
  ucAirlink := 0
  ucRegiReply := 0
  usLifetime := 0
  usA11Flag := 0
  uiUpdateReason := 0

/-- `uiStopFlag`, from 0 on. -/
inductive StopFlag where
  | call
  | dormant
  | recallWait
  deriving DecidableEq, Repr

/-- `uiCallType`, from `DEF_CALL_NORMAL` on. -/
inductive CallType where
  | normal
  | recall
  | recall1
  deriving DecidableEq, Repr

/-- `T_PPP_BUF` without the buffers. -/
structure PppBuf where
  cFlag : Bool
  LastUpdateTime : Nat
  uiServingPCF : UInt32
  uiKey : UInt32
  deriving DecidableEq, Repr

/-- `PSESS_DATA`; `szMIN` is the string that begins there. -/
structure Session where
  key : PsessKey
  Create : Stamp
  LastUpdate : Stamp
  RegA11 : StA11Info
  UpA11 : StA11Info
  SessA11 : StA11Info
  RPT : Stamp
  szMIN : List UInt8
  uiStopFlag : StopFlag
  uiCallType : CallType
  szNetOption : String
  uiSvcOption : UInt32
  uiFMux : UInt32
  uiRMux : UInt32
  uiNASIP : UInt32
  uiHomeAgent : UInt32
  ucAppType : UInt8
  ucAlwaysOn : UInt8
  stBSMSC : List UInt8
  ucRegiReqCount : UInt8
  ucRegiSuccCount : UInt8
  ucUpdateReqCount : UInt8
  ucUpdateAckCount : UInt8
  ucAStartCount : UInt8
  ucAStopCount : UInt8
  ucSvcOptChange : UInt8
  uiRPUpTime : Nat
  uiIdleDuration : Nat
  uiActiveDuration : Nat
  uiSeq : UInt32
  stPPPBuf : PppBuf
  deriving DecidableEq, Repr

/-- `memset( &PSessData, 0x00, sizeof(PSESS_DATA) )` with its key. -/
def Session.zero (key : PsessKey) : Session where
  key := key
  Create := Stamp.zero
  LastUpdate := Stamp.zero
  RegA11 := StA11Info.zero
  UpA11 := StA11Info.zero
  SessA11 := StA11Info.zero
  RPT := Stamp.zero
  szMIN := []
  uiStopFlag := .call
  uiCallType := .normal
  szNetOption := ""
  uiSvcOption := 0
  uiFMux := 0
  uiRMux := 0
  uiNASIP := 0
  uiHomeAgent := 0
  ucAppType := 0
  ucAlwaysOn := 0
  stBSMSC := []
  ucRegiReqCount := 0
  ucRegiSuccCount := 0
  ucUpdateReqCount := 0
  ucUpdateAckCount := 0
  ucAStartCount := 0
  ucAStopCount := 0
  ucSvcOptChange := 0
  uiRPUpTime := 0
  uiIdleDuration := 0
  uiActiveDuration := 0
  uiSeq := 0
  stPPPBuf := { cFlag := false, LastUpdateTime := 0, uiServingPCF := 0, uiKey := 0 }

structure GreentryData where
  key : GreentryKey
  uiMainGREKey : UInt32
  deriving DecidableEq, Repr

/-- `st_CallHashData`. -/
structure CallData where
  uiPCFIP : UInt32
  stCreateTime : Stamp
  deriving DecidableEq, Repr

/-- The keys of `g_FirstPSessData` and `g_LastPSessData`, of the two records that the start inserts. -/
def firstKey : PsessKey := ⟨0, 0⟩

def lastKey : PsessKey := ⟨0xFFFFFFFF, 0xFFFFFFFF⟩

structure State where
  psess : Table Session
  greentry : Table GreentryData
  callhash : Int → Option CallData
  first : PsessKey
  checkTime : Nat

/-- `INFO_A11`, with the announced keys alone in `dwKeyEntry`. -/
structure InfoA11 where
  bA11 : Bool
  ucMsg : UInt8
  ucCode : UInt8
  usLifetime : UInt16
  dwKey : UInt32
  dwServiceOption : UInt32
  szMDN : List UInt8
  dwForwardMux : UInt32
  dwReverseMux : UInt32
  ucHomeAgentAddr : UInt32
  dwUpdateReason : UInt32
  ucAirlinkType : UInt8
  ucApplicationType : UInt8
  szSublink : List UInt8
  AlwaysOn : UInt8
  dwKeyEntry : List UInt32

/-- A packet; `info` is what `Analyze_A11` makes of it, if it does not fail. The addresses are in the
order of `htonl`. -/
structure Message where
  bRtxType : Rtx
  dwSrcIP : UInt32
  dwDestIP : UInt32
  time : Stamp
  info : Option InfoA11

/-- The slots whose records move at the deletions from the two tables, whether the hash has a node left,
and what is behind a number that fills `szMIN`. -/
structure Choice where
  psess : Option Nat
  greentry : Nat → Option Nat
  added : Bool
  trace : List UInt8

end Records

section Tables

/-- The digits in front as a number. -/
def digitsValue (text : List UInt8) : Nat :=
  (text.takeWhile fun c => 48 ≤ c ∧ c ≤ 57).foldl (fun value c => 10 * value + (c.toNat - 48)) 0

def atoll (text : List UInt8) : Int :=
  match text.dropWhile fun c => c = 32 ∨ 9 ≤ c ∧ c ≤ 13 with
  | [] => 0
  | c :: rest =>
      if c = 45 then max (-(digitsValue rest : Int)) (-2 ^ 63)
      else if c = 43 then min (digitsValue rest : Int) (2 ^ 63 - 1)
      else min (digitsValue (c :: rest) : Int) (2 ^ 63 - 1)

variable {δ κ : Type} [DecidableEq κ]

/-- 1 is `eNotFound`. -/
def deleteKey (keyOf : δ → κ) (table : Table δ) (key : κ) (moved : Option Nat) : Int × Table δ :=
  match table.search keyOf key with
  | none => (1, table)
  | some slot => (0, table.delete slot moved)

def selectKey (keyOf : δ → κ) (rank : κ → Nat) (table : Table δ) (first last : κ) : Option Nat :=
  (table.next keyOf rank (rank first)).filter fun slot => rank (keyOf (table.tuple slot)) < rank last

def Search_PSESS (table : Table Session) (key : PsessKey) : Option Nat := table.search Session.key key

def Insert_PSESS (table : Table Session) (data : Session) : Option (Table Session) :=
  table.insert Session.key data

def Delete_PSESS (table : Table Session) (key : PsessKey) (moved : Option Nat) : Int × Table Session :=
  deleteKey Session.key table key moved

def Select_PSESS (table : Table Session) (first last : PsessKey) : Option Nat :=
  selectKey Session.key PsessKey.rank table first last

def Search_GREENTRY (table : Table GreentryData) (key : GreentryKey) : Option Nat :=
  table.search GreentryData.key key

def Insert_GREENTRY (table : Table GreentryData) (data : GreentryData) : Option (Table GreentryData) :=
  table.insert GreentryData.key data

def Delete_GREENTRY (table : Table GreentryData) (key : GreentryKey) (moved : Option Nat) :
    Int × Table GreentryData :=
  deleteKey GreentryData.key table key moved

def Select_GREENTRY (table : Table GreentryData) (first last : GreentryKey) : Option Nat :=
  selectKey GreentryData.key Greentry.rank table first last

def State.put (state : State) (slot : Nat) (session : Session) : State :=
  { state with psess := state.psess.set slot session }

end Tables

section Sessions

def InitPSESS (session : Session) : Session :=
  { session with
    RegA11 := StA11Info.zero
    UpA11 := StA11Info.zero
    SessA11 := StA11Info.zero }

/-- The names of `DEF_1X_NUM`, `DEF_EVDO_NUM`, `DEF_IS95A_NUM` and `DEF_IS95B_NUM`. -/
def netOption (uiSvcOption : UInt32) : String :=
  if uiSvcOption = 33 then "1X"
  else if uiSvcOption = 59 then "EV-DO"
  else if uiSvcOption = 15 then "IS-95A"
  else if uiSvcOption = 25 then "IS-95B"
  else "ETC"

/-- `sprintf( pPSessData->szMIN, "%s", g_A11.szMDN )`; `szTraceMIN` is behind. -/
def minText (szMDN trace : List UInt8) : List UInt8 :=
  if szMDN.length < MAX_MIN_SIZE then szMDN else szMDN.take MAX_MIN_SIZE ++ trace

def sublinkBSMSC (info : InfoA11) (stBSMSC : List UInt8) : List UInt8 :=
  if info.szSublink[0]? = some 0x01 ∧ info.szSublink[19]? = some 0x02 then (info.szSublink.drop 31).take 6
  else stBSMSC

/-- What `CreateA10` sets in a record that is new or registered again. -/
def setupA10 (session : Session) (message : Message) (info : InfoA11) (choice : Choice) : Session :=
  { session with
    uiStopFlag := .call
    szMIN := minText info.szMDN choice.trace
    stBSMSC := sublinkBSMSC info session.stBSMSC
    ucAppType := info.ucApplicationType
    uiSvcOption := info.dwServiceOption
    szNetOption := netOption info.dwServiceOption
    uiFMux := info.dwForwardMux
    uiRMux := info.dwReverseMux
    uiHomeAgent := info.ucHomeAgentAddr
    uiNASIP := message.dwDestIP
    RegA11 := { session.RegA11 with ucAirlink := info.ucAirlinkType }
    RPT := message.time
    LastUpdate := message.time
    stPPPBuf :=
      { cFlag := true
        LastUpdateTime := message.time.Time
        uiServingPCF := session.key.uiServingPCF
        uiKey := session.key.uiKey } }

/-- A registration that is not answered yet comes again. -/
def regiRetry (session : Session) (info : InfoA11) : Prop :=
  session.RegA11.usA11Flag &&& 0x0003 = 0x0001 ∧ session.szMIN = info.szMDN

instance (session : Session) (info : InfoA11) : Decidable (regiRetry session info) :=
  inferInstanceAs (Decidable (_ ∧ _))

/-- A known session before the common part of `CreateA10`. -/
def renewA10 (session : Session) (message : Message) : Session :=
  let session :=
    if session.uiStopFlag = .recallWait then InitPSESS { session with Create := message.time } else session
  if session.uiCallType = .recall then { session with uiCallType := .recall1 } else session

/-- The create time of the subscriber's call, and the hash with the PCF of the new session. -/
def callEntry (callhash : Int → Option CallData) (llIMSI : Int) (uiPCFIP : UInt32) (time : Stamp)
    (added : Bool) : Stamp × (Int → Option CallData) :=
  match callhash llIMSI with
  | none =>
      (time, if added then Function.update callhash llIMSI (some ⟨uiPCFIP, time⟩) else callhash)
  | some data =>
      (data.stCreateTime, Function.update callhash llIMSI (some { data with uiPCFIP := uiPCFIP }))

def CreateA10 (state : State) (key : PsessKey) (message : Message) (info : InfoA11) (choice : Choice) :
    Int × State :=
  match Search_PSESS state.psess key with
  | some slot =>
      let session := state.psess.tuple slot
      if regiRetry session info then
        let RegA11 := { session.RegA11 with usA11Flag := session.RegA11.usA11Flag ||| 0x0008 }
        (1, state.put slot { session with RegA11 := RegA11 })
      else (0, state.put slot (setupA10 (renewA10 session message) message info choice))
  | none =>
      let entry := callEntry state.callhash (atoll info.szMDN) key.uiServingPCF message.time choice.added
      let session := InitPSESS { Session.zero key with Create := entry.1, uiCallType := .normal }
      let state := { state with callhash := entry.2 }
      match Insert_PSESS state.psess (setupA10 session message info choice) with
      | none => (-2, state)
      | some table => (0, { state with psess := table })

/-- The loop of `RemoveA10` over the GRE keys of a PCF. The slot is read again behind the deletion. -/
def removeEntries (moved : Nat → Option Nat) : Nat → Table GreentryData → GreentryKey → GreentryKey →
    Table GreentryData
  | 0, table, _, _ => table
  | count + 1, table, first, last =>
      match Select_GREENTRY table first last with
      | none => table
      | some slot =>
          let after := (Delete_GREENTRY table (table.tuple slot).key (moved count)).2
          removeEntries moved count after (after.tuple slot).key last

/-- The record with its buffer given back. -/
def closeBuf (session : Session) : Session :=
  if session.stPPPBuf.cFlag ∧ session.stPPPBuf.uiServingPCF = session.key.uiServingPCF ∧
      session.stPPPBuf.uiKey = session.key.uiKey then
    { session with stPPPBuf := { session.stPPPBuf with cFlag := false } }
  else session

/-- Whether the hash has the subscriber's call at the PCF of the session. -/
def ourCall (state : State) (session : Session) : Bool :=
  (state.callhash (atoll session.szMIN)).map CallData.uiPCFIP = some session.key.uiServingPCF

def forgetCall (state : State) (session : Session) : State :=
  if ourCall state session then
    { state with callhash := Function.update state.callhash (atoll session.szMIN) none }
  else state

def RemoveA10 (state : State) (slot : Nat) (choice : Choice) : Int × State :=
  let session := state.psess.tuple slot
  let state := forgetCall (state.put slot (closeBuf session)) session
  let deleted := Delete_PSESS state.psess session.key choice.psess
  let state := { state with psess := deleted.2 }
  if deleted.1 < 0 then (-1, state)
  else
    let uiPCFIP := (state.psess.tuple slot).key.uiServingPCF
    (0,
      { state with
        greentry :=
          removeEntries choice.greentry state.greentry.used.length state.greentry ⟨uiPCFIP, 0⟩
            ⟨uiPCFIP, 0xFFFFFFFF⟩ })

end Sessions

section Handlers

def StA11Info.request (record : StA11Info) (message : Message) (info : InfoA11) : StA11Info :=
  { record with
    ucFlag := record.ucFlag ||| DEF_A11_REQUEST
    Start := message.time
    uiSrcIP := message.dwSrcIP
    uiDestIP := message.dwDestIP
    ucReqMsgCode := info.ucMsg
    ucReqCount := record.ucReqCount + 1 }

def StA11Info.response (record : StA11Info) (message : Message) (info : InfoA11) : StA11Info :=
  { record with
    ucFlag := record.ucFlag ||| DEF_A11_RESPONSE
    End := message.time
    ucRepMsgCode := info.ucMsg
    ucRegiReply := info.ucCode
    ucRejCount := if info.ucCode = DEF_A11_REG_ACCT then record.ucRejCount else record.ucRejCount + 1 }

/-- A complete pair is cleared. -/
def StA11Info.paired (record : StA11Info) : StA11Info :=
  if record.ucFlag = DEF_A11_PAIR then StA11Info.zero else record

def requestLifetime (session : Session) (message : Message) (info : InfoA11) : Session :=
  let RegA11 := { session.RegA11 with usLifetime := info.usLifetime }
  let flag := RegA11.usA11Flag
  if 0 < info.usLifetime then
    if info.ucAirlinkType &&& CONN_SETUP ≠ 0 then
      { session with RegA11 := { RegA11 with usA11Flag := flag ||| 0x0001 } }
    else { session with RegA11 := { RegA11 with usA11Flag := flag &&& 0xf0ff ||| 0x0100 } }
  else
    { session with
      RegA11 := { RegA11 with usA11Flag := flag ||| 0x0010 }
      RPT := message.time }

def activeStart (session : Session) (message : Message) (info : InfoA11) : Session :=
  if info.ucAirlinkType &&& ACTIVE_START ≠ 0 then
    let session :=
      if session.RegA11.ucAirlink &&& ACTIVE_STOP ≠ 0 then
        { session with
          uiIdleDuration := (session.uiIdleDuration + GetUpTime session.RPT message.time) % 2 ^ 32
          RPT := message.time }
      else session
    { session with ucAStartCount := session.ucAStartCount + 1 }
  else session

def activeStop (session : Session) (message : Message) (info : InfoA11) : Session :=
  if info.ucAirlinkType &&& ACTIVE_STOP ≠ 0 then
    let session :=
      if session.RegA11.ucAirlink &&& ACTIVE_START ≠ 0 then
        { session with
          uiActiveDuration := (session.uiActiveDuration + GetUpTime session.RPT message.time) % 2 ^ 32
          RPT := message.time }
      else session
    { session with ucAStopCount := session.ucAStopCount + 1 }
  else session

def requestOption (session : Session) (info : InfoA11) : Session :=
  if 0 < info.dwServiceOption then
    { session with
      ucSvcOptChange :=
        if 0 < session.uiSvcOption ∧ session.uiSvcOption ≠ info.dwServiceOption then
          session.ucSvcOptChange + 1
        else session.ucSvcOptChange
      uiSvcOption := info.dwServiceOption
      szNetOption := netOption info.dwServiceOption
      uiFMux := info.dwForwardMux
      uiRMux := info.dwReverseMux }
  else session

def requestFields (session : Session) (info : InfoA11) : Session :=
  { session with
    RegA11 := { session.RegA11 with ucAirlink := info.ucAirlinkType }
    ucAppType := info.ucApplicationType
    stBSMSC := sublinkBSMSC info session.stBSMSC }

/-- `DEF_A11_REG_REQ`. -/
def regReq (session : Session) (message : Message) (info : InfoA11) : Session :=
  let session := { session with ucRegiReqCount := session.ucRegiReqCount + 1 }
  let session := activeStop (activeStart (requestLifetime session message info) message info) message info
  let session := requestOption (requestFields session info) info
  { session with RegA11 := (session.RegA11.request message info).paired }

def replyAccepted (session : Session) (message : Message) (info : InfoA11) : Session :=
  let session := { session with ucRegiSuccCount := session.ucRegiSuccCount + 1 }
  let flag := session.RegA11.usA11Flag
  if 0 < info.usLifetime ∧ flag &&& 0xfff3 = 0x0001 then
    { session with
      uiRPUpTime := GetUpTime session.Create message.time
      RegA11 := { session.RegA11 with usA11Flag := flag ||| 0x0002 } }
  else if info.usLifetime = 0 then
    { session with RegA11 := { session.RegA11 with usA11Flag := flag ||| 0x0020 } }
  else { session with RegA11 := { session.RegA11 with usA11Flag := flag ||| 0x0200 } }

def replyRejected (session : Session) (info : InfoA11) : Session :=
  let flag := session.RegA11.usA11Flag
  if 0 < info.usLifetime ∧ flag &&& 0xfff3 = 0x0001 then
    { session with RegA11 := { session.RegA11 with usA11Flag := flag ||| 0x0004 } }
  else if info.usLifetime = 0 then
    { session with RegA11 := { session.RegA11 with usA11Flag := flag ||| 0x0040 } }
  else if flag &&& 0x0700 = 0x0100 then
    { session with RegA11 := { session.RegA11 with usA11Flag := flag ||| 0x0400 } }
  else session

/-- `DEF_A11_REG_REP` up to the report of the pair. -/
def regRep (session : Session) (message : Message) (info : InfoA11) : Session :=
  let session := { session with RegA11 := { session.RegA11 with usLifetime := info.usLifetime } }
  let session :=
    if info.ucCode = DEF_A11_REG_ACCT then replyAccepted session message info
    else replyRejected session info
  { session with
    RegA11 := session.RegA11.response message info
    ucAlwaysOn := if info.AlwaysOn = 0 then session.ucAlwaysOn else info.AlwaysOn }

/-- The clearing at the end of a reply, also where the record is removed. -/
def clearPair (state : State) (slot : Nat) : State :=
  let session := state.psess.tuple slot
  if session.RegA11.ucFlag = DEF_A11_PAIR then state.put slot { session with RegA11 := StA11Info.zero }
  else state

/-- The rest of `DEF_A11_REG_REP`. -/
def replyEnd (state : State) (slot : Nat) (info : InfoA11) (choice : Choice) : State :=
  let session := state.psess.tuple slot
  let state :=
    if 0 < info.usLifetime then
      if session.RegA11.ucAirlink = ACTIVE_STOP then state.put slot { session with uiStopFlag := .dormant }
      else state
    else if session.RegA11.ucAirlink &&& ACTIVE_STOP ≠ 0 then (RemoveA10 state slot choice).2
    else state
  clearPair state slot

/-- `DEF_A11_REG_UP`. -/
def regUp (session : Session) (message : Message) (info : InfoA11) : Session :=
  let UpA11 :=
    { session.UpA11 with
      uiUpdateReason := info.dwUpdateReason
      usA11Flag := session.UpA11.usA11Flag ||| 0x1000 }
  { session with
    ucUpdateReqCount := session.ucUpdateReqCount + 1
    UpA11 := (UpA11.request message info).paired }

/-- `DEF_A11_REG_ACK`. The record is cleared by the size of a `T_SESS`, which ends before the reason. -/
def regAck (session : Session) (message : Message) (info : InfoA11) : Session :=
  let accepted := info.ucCode = DEF_A11_REG_ACCT
  let flag := session.UpA11.usA11Flag
  let record := { session.UpA11 with usA11Flag := if accepted then flag ||| 0x2000 else flag ||| 0xc000 }
  let UpA11 := record.response message info
  { session with
    ucUpdateAckCount := if accepted then session.ucUpdateAckCount + 1 else session.ucUpdateAckCount
    UpA11 :=
      if UpA11.ucFlag = DEF_A11_PAIR then { StA11Info.zero with uiUpdateReason := UpA11.uiUpdateReason }
      else UpA11 }

/-- `DEF_A11_SESS_UP`. -/
def sessUp (session : Session) (message : Message) (info : InfoA11) : Session :=
  { session with SessA11 := (session.SessA11.request message info).paired }

/-- `DEF_A11_SESS_ACK`. -/
def sessAck (session : Session) (message : Message) (info : InfoA11) : Session :=
  { session with SessA11 := (session.SessA11.response message info).paired }

/-- The record before the switch over the message. -/
def touch (session : Session) (message : Message) : Session :=
  { session with
    LastUpdate := message.time
    uiSeq := if session.uiSeq = 0xffffffff then 0 else session.uiSeq + 1 }

def switchMsg (state : State) (slot : Nat) (message : Message) (info : InfoA11) (choice : Choice) :
    State :=
  let session := touch (state.psess.tuple slot) message
  if info.ucMsg = DEF_A11_REG_REQ then state.put slot (regReq session message info)
  else if info.ucMsg = DEF_A11_REG_REP then
    replyEnd (state.put slot (regRep session message info)) slot info choice
  else if info.ucMsg = DEF_A11_REG_UP then state.put slot (regUp session message info)
  else if info.ucMsg = DEF_A11_REG_ACK then state.put slot (regAck session message info)
  else if info.ucMsg = DEF_A11_SESS_UP then state.put slot (sessUp session message info)
  else if info.ucMsg = DEF_A11_SESS_ACK then state.put slot (sessAck session message info)
  else state.put slot session

/-- The session of a key, or of the main key that its GREENTRY names. -/
def findPSESS (state : State) (key : PsessKey) : Option Nat :=
  match Search_PSESS state.psess key with
  | some slot => some slot
  | none =>
      (Search_GREENTRY state.greentry ⟨key.uiServingPCF, key.uiKey⟩).bind fun entry =>
        Search_PSESS state.psess ⟨key.uiServingPCF, (state.greentry.tuple entry).uiMainGREKey⟩

/-- An announced key that is not known yet; without room it is not inserted. -/
def announce (main : PsessKey) (table : Table GreentryData) (uiGREKey : UInt32) : Table GreentryData :=
  let data := { key := ⟨main.uiServingPCF, uiGREKey⟩, uiMainGREKey := main.uiKey }
  match Search_GREENTRY table data.key with
  | none => (Insert_GREENTRY table data).getD table
  | some _ => table

def servingPCF (message : Message) : Option UInt32 :=
  match message.bRtxType with
  | .client => some message.dwSrcIP
  | .server => some message.dwDestIP
  | .none => none

def setsUp (info : InfoA11) : Prop :=
  info.ucMsg = DEF_A11_REG_REQ ∧ 0 < info.usLifetime ∧ info.ucAirlinkType &&& ACTIVE_START ≠ 0

instance (info : InfoA11) : Decidable (setsUp info) :=
  inferInstanceAs (Decidable (_ ∧ _ ∧ _))

/-- `ProcA11` behind the check of the direction. -/
def procKey (state : State) (key : PsessKey) (message : Message) (info : InfoA11) (choice : Choice) :
    Int × State :=
  let created := if setsUp info then CreateA10 state key message info choice else (0, state)
  let state := created.2
  if created.1 < 0 then (-3, state)
  else
    match findPSESS state key with
    | none => (-4, state)
    | some slot =>
        let main := (state.psess.tuple slot).key
        let state := { state with greentry := info.dwKeyEntry.foldl (announce main) state.greentry }
        (0, switchMsg state slot message info choice)

def ProcA11 (state : State) (message : Message) (choice : Choice) : Int × State :=
  match message.info with
  | none => (-1, state)
  | some info =>
      if info.bA11 then
        match servingPCF message with
        | none => (1, state)
        | some uiServingPCF => procKey state ⟨uiServingPCF, info.dwKey⟩ message info choice
      else (1, state)

end Handlers

section Timer

/-- `usTimerInfo` of the filter information. -/
structure Timers where
  RP_CALL_TIMEOUT : Nat
  RP_DORM_TIMEOUT : Nat
  RP_RCALL_TIMEOUT : Nat
  RP_RCALL_SIGWAIT : Nat

/-- A call of `RP_CheckTimer` with what the trees decide in each of its turns. -/
structure Call where
  tCheckTime : Nat
  timers : Timers
  choices : Nat → Choice

/-- A session that the loop looks at, and whether the hash names its PCF then. -/
structure Visit where
  session : Session
  ours : Bool

def uiTimerValue (timers : Timers) (session : Session) : Nat :=
  if session.uiCallType = .recall then timers.RP_RCALL_SIGWAIT
  else
    match session.uiStopFlag with
    | .call => timers.RP_CALL_TIMEOUT
    | .dormant => timers.RP_DORM_TIMEOUT
    | .recallWait => timers.RP_RCALL_TIMEOUT

def Call.expired (call : Call) (session : Session) : Prop :=
  session.LastUpdate.Time + uiTimerValue call.timers session < call.tCheckTime

instance (call : Call) (session : Session) : Decidable (call.expired session) :=
  inferInstanceAs (Decidable (_ < _))

def callNormal (session : Session) : Session := { session with uiCallType := .normal }

/-- The branch of an expired timer; whether it ends the call. -/
def timeOut (state : State) (slot : Nat) (choice : Choice) : Bool × State :=
  let session := state.psess.tuple slot
  if ourCall state session ∧ session.uiStopFlag = .recallWait ∧ session.uiCallType = .recall then
    (true, state.put slot (callNormal session))
  else
    match session.uiStopFlag with
    | .call | .recallWait => (false, (RemoveA10 (state.put slot (callNormal session)) slot choice).2)
    | .dormant => (false, state.put slot { callNormal session with uiStopFlag := .recallWait })

/-- The loop of `RP_CheckTimer`, with the sessions that it looks at. -/
def checkLoop (call : Call) : Nat → State → State × List Visit
  | 0, state => (state, [])
  | count + 1, state =>
      match Select_PSESS state.psess state.first lastKey with
      | none => ({ state with first := firstKey, checkTime := call.tCheckTime }, [])
      | some slot =>
          let session := state.psess.tuple slot
          let visit := { session := session, ours := ourCall state session }
          let state := { state with first := session.key }
          let ended := if call.expired session then timeOut state slot (call.choices count) else (false, state)
          if ended.1 then (ended.2, [visit])
          else
            let rest := checkLoop call count ended.2
            (rest.1, visit :: rest.2)

def RP_CheckTimer (state : State) (call : Call) : State × List Visit := checkLoop call 50 state

end Timer

section Runs

/-- `A_GRE`: data for a session that waits for a recall. -/
def recallPSESS (state : State) (key : PsessKey) : State :=
  match Search_PSESS state.psess key with
  | none => state
  | some slot =>
      let session := state.psess.tuple slot
      if session.uiStopFlag = .recallWait ∧ session.uiCallType = .normal then
        state.put slot { session with uiCallType := .recall }
      else state

inductive Event where
  | message (message : Message) (choice : Choice)
  | checkTimer (call : Call)
  | recallPSESS (key : PsessKey)

def step (state : State) : Event → State
  | .message message choice => (ProcA11 state message choice).2
  | .checkTimer call => (RP_CheckTimer state call).1
  | .recallPSESS key => recallPSESS state key

def run (state : State) (events : List Event) : State := events.foldl step state

def State.record (state : State) (key : PsessKey) : Option Session := state.psess.record Session.key key

/-- The state behind the start: the two border records, and an empty hash and GREENTRY table. -/
structure Started (state : State) : Prop where
  wf : Wf Session.key state.psess
  borders : ∀ key session, state.record key = some session →
    (key = firstKey ∨ key = lastKey) ∧ session.RegA11.ucFlag ≠ DEF_A11_PAIR
  callhash : ∀ llIMSI, state.callhash llIMSI = none
  greentry : state.greentry.used = []
  first : state.first = firstKey

end Runs

end Upst.Arp
