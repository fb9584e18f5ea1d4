import Upst.Slots
import Upst.Word

/-!
A_FTP. A signal session is a TCP session with port 21, and a `PORT` command on it makes the record of a
data session, which knows its signal session by the key; the signal session knows the last data session
that it asked for. The records are in slots of one table. A function that keeps the pointer to a record
keeps its slot here, whatever a deletion moves into it. The shape of the search tree, which decides on
that, is in a `TermSupply`.
-/

namespace Upst.Aftp

open Slots Word

set_option autoImplicit false

def PORT_FTPDATA : UInt16 := 20
def PORT_FTPSIG : UInt16 := 21
def DEF_FROM_CLIENT : Nat := 1
def DEF_FROM_SERVER : Nat := 2
def TCP_NOERR_FIN_E1 : UInt16 := 1
def TCP_NOERR_FIN_E2 : UInt16 := 2

section Records

structure SessKey where
  uiSrcIP : UInt32
  uiDestIP : UInt32
  usSrcPort : UInt16
  usDestPort : UInt16
  uiReserved : UInt32
  deriving DecidableEq, Repr

def SessKey.zero : SessKey := ⟨0, 0, 0, 0, 0⟩

/-- All bits are set. -/
def SessKey.last : SessKey := ⟨0xFFFFFFFF, 0xFFFFFFFF, 0xFFFF, 0xFFFF, 0xFFFFFFFF⟩

structure LogFtpInfo where
  usPlatformType : UInt16
  usSvcL4Type : UInt16
  usSvcL7Type : UInt16
  uiServerIP : UInt32
  uiClientIP : UInt32
  uiFTPLogonDuration : UInt32
  uiEndTime : UInt32
  uiEndMTime : UInt32
  uiEndDuration : UInt32
  uiTcpSynTime : UInt32
  uiTcpSynMTime : UInt32
  uiTcpSynAckTime : UInt32
  uiUpFrames : UInt32
  uiDownFrames : UInt32
  uiUpBytes : UInt32
  uiDownBytes : UInt32
  uiUpRetranBytes : UInt32
  uiDownRetranBytes : UInt32
  uiFTPSynTime : UInt32
  uiFTPSynMTime : UInt32
  uiFTPFinTime : UInt32
  uiFTPFinMTime : UInt32
  uiFTPUpFirstSeq : UInt32
  uiFTPUpLastSeq : UInt32
  uiFTPDownFirstSeq : UInt32
  uiFTPDownLastSeq : UInt32
  uiLastUpdateTime : UInt32
  uiFTPTimeDuration : UInt32
  usCliFTPStatus : UInt16
  usSvrFTPStatus : UInt16
  deriving DecidableEq, Repr

def LogFtpInfo.zero : LogFtpInfo :=
  ⟨0, 0, 0, 0, 0, 0, 0, 0, 0, 0, 0, 0, 0, 0, 0, 0, 0, 0, 0, 0, 0, 0, 0, 0, 0, 0, 0, 0, 0, 0⟩

structure SessData where
  stKey : SessKey
  dTimeOutTime : Int
  stFTPSTAT : LogFtpInfo
  stSignalKey : SessKey
  stDataKey : SessKey
  deriving DecidableEq, Repr

/-- A cleared record with its key. -/
def newSess (stKey : SessKey) : SessData := ⟨stKey, 0, .zero, .zero, .zero⟩

/-- `LOG_FTP`: what is taken from either session, and the start and the end of the operation. -/
structure LogFtp where
  info : LogFtpInfo
  OpStartTime : UInt32
  OpStartMTime : UInt32
  OpEndTime : UInt32
  OpEndMTime : UInt32
  deriving DecidableEq, Repr

/-- Everything is that of the data session but for four times of the signal session. -/
def copyLOGFTP (pLOG_SIG pLOG_DATA : LogFtpInfo) : LogFtp where
  info := { pLOG_DATA with
    uiFTPLogonDuration := pLOG_SIG.uiFTPLogonDuration
    uiTcpSynTime := pLOG_SIG.uiTcpSynTime
    uiTcpSynMTime := pLOG_SIG.uiTcpSynMTime
    uiTcpSynAckTime := pLOG_SIG.uiTcpSynAckTime }
  OpStartTime := pLOG_SIG.uiTcpSynTime
  OpStartMTime := pLOG_SIG.uiTcpSynMTime
  OpEndTime := pLOG_DATA.uiEndTime
  OpEndMTime := pLOG_DATA.uiEndMTime

def micros (time mtime : UInt32) : UInt32 := time * 1000000 + mtime

/-- The log of a data session that ends. -/
def termLog (signal data : LogFtpInfo) : LogFtp :=
  let log := copyLOGFTP signal data
  { log with
    info := { log.info with
      uiEndDuration :=
        micros data.uiEndTime data.uiEndMTime - micros data.uiFTPFinTime data.uiFTPFinMTime
      uiFTPTimeDuration :=
        micros data.uiFTPFinTime data.uiFTPFinMTime - micros data.uiFTPSynTime data.uiFTPSynMTime } }

/-- What is read of `TCP_INFO`. -/
structure TcpInfo where
  uiCliIP : UInt32
  uiSrvIP : UInt32
  usCliPort : UInt16
  usSrvPort : UInt16
  uiCapTime : UInt32
  uiCapMTime : UInt32
  usL4Code : UInt16
  usL7Code : UInt16
  uiIPTotUpPktSize : UInt32
  uiIPTotUpPktCnt : UInt32
  uiIPTotUpRetransSize : UInt32
  uiIPTotDnPktSize : UInt32
  uiIPTotDnPktCnt : UInt32
  uiIPTotDnRetransSize : UInt32
  uiSeqNum : UInt32
  usL4FailCode : UInt16
  ucTcpClientStatus : UInt8
  ucTcpServerStatus : UInt8
  deriving DecidableEq, Repr

def TcpInfo.key (info : TcpInfo) : SessKey :=
  ⟨info.uiCliIP, info.uiSrvIP, info.usCliPort, info.usSrvPort, 0⟩

/-- The packets and bytes of a message of a data session. -/
def LogFtpInfo.count (stat : LogFtpInfo) (info : TcpInfo) : LogFtpInfo :=
  { stat with
    uiDownBytes := stat.uiDownBytes + info.uiIPTotDnPktSize
    uiDownFrames := stat.uiDownFrames + info.uiIPTotDnPktCnt
    uiUpBytes := stat.uiUpBytes + info.uiIPTotUpPktSize
    uiUpFrames := stat.uiUpFrames + info.uiIPTotUpPktCnt }

end Records

section Mmdb

abbrev SessTable := Table SessData

def SessTable.search (tbl : SessTable) (key : SessKey) : Option Nat := Table.search SessData.stKey tbl key

def SessTable.record (tbl : SessTable) (key : SessKey) : Option SessData :=
  Table.record SessData.stKey tbl key

def SessTable.change (tbl : SessTable) (slot : Nat) (f : SessData → SessData) : SessTable :=
  tbl.set slot (f (tbl.tuple slot))

def dInsertMMDB (tbl : SessTable) (pstSrc : SessData) : Except Int (Nat × SessTable) :=
  match tbl.search pstSrc.stKey with
  | some _ => .error (-100)
  | none =>
      match Table.insert SessData.stKey tbl pstSrc with
      | none => .error (-2)
      | some tbl =>
          match SessTable.search tbl pstSrc.stKey with
          | none => .error (-3)
          | some slot => .ok (slot, tbl)

/-- The slot that a deletion empties loses its key. -/
def deleteSess (tbl : SessTable) (slot : Nat) (moved : Option Nat) : SessTable :=
  SessTable.change (tbl.delete slot moved) (emptied slot (tbl.moves slot moved)) fun data =>
    { data with stKey := .zero }

/-- The record that is deleted is that of the key which stands in the slot. -/
def dFreeMMDB (tbl : SessTable) (slot : Nat) (moved : Option Nat) : Int × SessTable :=
  let key := (tbl.tuple slot).stKey
  if key = .zero ∨ key = .last then (-2, tbl)
  else
    match tbl.search key with
    | none => (1, tbl)
    | some place => (0, deleteSess tbl place moved)

end Mmdb

section Term

/-- What a call of `dTermTCP` gets: the time, the results of `nifo_node_alloc`, `nifo_tlv_alloc` and
`gifo_write`, and the slots whose records the two deletions move. -/
structure TermSupply where
  g_lCurTime : Int
  pstNode : Option Nat
  pstFTPLog : Bool
  dWrite : Int
  movedSig : Option Nat
  movedOwn : Option Nat

/-- What a call leaves: the logs that were accepted and the nodes that were given back. -/
structure Outcome where
  dRet : Int
  tbl : SessTable
  logs : List LogFtp
  freed : List Nat

/-- The end of `dTermTCP`. -/
def freeOwn (tbl : SessTable) (pstMMDB : Nat) (supply : TermSupply) (logs : List LogFtp)
    (freed : List Nat) : Outcome :=
  let (dRet, tbl) := dFreeMMDB tbl pstMMDB supply.movedOwn
  ⟨if dRet < 0 then -2 else 1, tbl, logs, freed⟩

/-- A data session and the signal session that asked for it. -/
def termPair (tbl : SessTable) (pstMMDB pstFTPSIG : Nat) (supply : TermSupply) : Outcome :=
  match supply.pstNode with
  | none => ⟨-1, tbl, [], []⟩
  | some pstNode =>
      if supply.pstFTPLog = false then ⟨-2, tbl, [], [pstNode]⟩
      else
        let log := termLog (tbl.tuple pstFTPSIG).stFTPSTAT (tbl.tuple pstMMDB).stFTPSTAT
        let tbl := SessTable.change tbl pstFTPSIG fun data => { data with stDataKey := .zero }
        let (dRet, tbl) :=
          if 0 < (tbl.tuple pstFTPSIG).dTimeOutTime then dFreeMMDB tbl pstFTPSIG supply.movedSig
          else (0, tbl)
        if dRet < 0 then ⟨-2, tbl, [], [pstNode]⟩
        else if supply.dWrite < 0 then freeOwn tbl pstMMDB supply [] [pstNode]
        else freeOwn tbl pstMMDB supply [log] []

def dTermTCP (tbl : SessTable) (pstKey : SessKey) (supply : TermSupply) : Outcome :=
  match tbl.search pstKey with
  | none => ⟨-1, tbl, [], []⟩
  | some pstMMDB =>
      if pstKey.usDestPort = PORT_FTPSIG then
        if (tbl.tuple pstMMDB).stDataKey.uiSrcIP ≠ 0 ∧ (tbl.tuple pstMMDB).dTimeOutTime = 0 then
          ⟨0, SessTable.change tbl pstMMDB fun data =>
            { data with dTimeOutTime := supply.g_lCurTime + 3 }, [], []⟩
        else freeOwn tbl pstMMDB supply [] []
      else
        match tbl.search (tbl.tuple pstMMDB).stSignalKey with
        | none => ⟨-1, tbl, [], []⟩
        | some pstFTPSIG =>
            if (tbl.tuple pstFTPSIG).stDataKey ≠ (tbl.tuple pstMMDB).stKey then
              freeOwn tbl pstMMDB supply [] []
            else termPair tbl pstMMDB pstFTPSIG supply

/-- A call of `dTermTCP` on a data session whose record is in the table. -/
structure Term where
  before : SessTable
  pstKey : SessKey
  supply : TermSupply
  outcome : Outcome

structure State where
  tbl : SessTable
  terms : List Term

/-- A call is noted where it is about a data session. -/
def State.term (state : State) (pstKey : SessKey) (supply : TermSupply) : Int × State :=
  let outcome := dTermTCP state.tbl pstKey supply
  let data := pstKey.usDestPort ≠ PORT_FTPSIG ∧ (state.tbl.search pstKey).isSome
  (outcome.dRet,
    { tbl := outcome.tbl
      terms := if data then state.terms ++ [⟨state.tbl, pstKey, supply, outcome⟩] else state.terms })

def State.change (state : State) (slot : Nat) (f : SessData → SessData) : State :=
  { state with tbl := SessTable.change state.tbl slot f }

end Term

section Commands

def isSpace (byte : UInt8) : Bool := byte = 0x20 ∨ 9 ≤ byte ∧ byte ≤ 13

def isDigit (byte : UInt8) : Bool := 0x30 ≤ byte ∧ byte ≤ 0x39

def digitsValue (digits : List UInt8) : Nat :=
  digits.foldl (fun value digit => value * 10 + (digit.toNat - 0x30)) 0

/-- The `int` that `%d` makes of a number, which `strtol` keeps inside a `long`. -/
def toInt (value : Int) : Int := s32 (max (-2 ^ 63) (min (2 ^ 63 - 1) value))

/-- `%d`: white space, a sign and digits. -/
def scanInt (str : List UInt8) : Option (Int × List UInt8) :=
  let str := str.dropWhile isSpace
  let (negative, str) :=
    match str with
    | 0x2D :: rest => (true, rest)
    | 0x2B :: rest => (false, rest)
    | _ => (false, str)
  let digits := str.takeWhile isDigit
  if digits.isEmpty then none
  else
    let value : Int := digitsValue digits
    some (toInt (if negative then -value else value), str.dropWhile isDigit)

/-- As many `%d` with commas between them as are read. -/
def scanInts : Nat → List UInt8 → List Int
  | 0, _ => []
  | count + 1, str =>
      match scanInt str with
      | none => []
      | some (value, 0x2C :: rest) => value :: scanInts count rest
      | some (value, _) => [value]

/-- The data session that a `PORT` command names; what is not read is what the stack holds. -/
def portKey (uiDestIP : UInt32) (str : List UInt8) (stack : Nat → Int) : SessKey :=
  let values := scanInts 6 str
  let value (index : Nat) : Int := values.getD index (stack index)
  { uiSrcIP := UInt32.ofNat
      ((((value 0 * 256 + value 1) * 256 + value 2) * 256 + value 3) % 2 ^ 32).toNat
    uiDestIP := uiDestIP
    usSrcPort := UInt16.ofNat ((value 4 * 256 + value 5) % 2 ^ 16).toNat
    usDestPort := PORT_FTPDATA
    uiReserved := 0 }

/-- The record of the signal session is written through its slot also after `dTermTCP`. -/
def portCommand (state : State) (pstTcp : Nat) (str : List UInt8) (stack : Nat → Int)
    (supply : TermSupply) : Int × State :=
  let own := (state.tbl.tuple pstTcp).stDataKey
  let state :=
    if own.uiSrcIP ≠ 0 ∧ own.usSrcPort ≠ 0 ∧ (state.tbl.search own).isSome then
      (state.term own supply).2
    else state
  let key := portKey (state.tbl.tuple pstTcp).stKey.uiDestIP str stack
  let state := state.change pstTcp fun data => { data with stDataKey := key }
  match dInsertMMDB state.tbl (newSess key) with
  | .error _ => (-1, state)
  | .ok (pstMMDB, tbl) =>
      (0, State.change { state with tbl := tbl } pstMMDB fun data =>
        { data with stSignalKey := (tbl.tuple pstTcp).stKey })

def cmds : List (List UInt8 × Int) :=
  [([0x52, 0x45, 0x54, 0x52], 1), ([0x53, 0x54, 0x4F, 0x52], 2), ([0x50, 0x4F, 0x52, 0x54], 0),
    ([0x55, 0x53, 0x45, 0x52], 3)]

/-- `szData` is the string that begins at the data. -/
def CmdParse (state : State) (pstTcp : Nat) (szData : List UInt8) (stack : Nat → Int)
    (supply : TermSupply) : Int × State :=
  match cmds.find? fun cmd => szData.take 4 = cmd.1 with
  | none => (0, state)
  | some (_, 0) =>
      match szData.dropWhile fun byte => byte ≠ 0x20 with
      | [] => (0, state)
      | _ :: str => portCommand state pstTcp str stack supply
  | some (_, usValue) => (usValue, state)

/-- The logon is done with the reply 230. -/
def replyParse (stat : LogFtpInfo) (szData : List UInt8) (uiTime uiMTime : UInt32) : LogFtpInfo :=
  match szData with
  | first :: second :: third :: 0x20 :: _ =>
      if isDigit first ∧ isDigit second ∧ isDigit third ∧
          digitsValue [first, second, third] = 230 then
        { stat with
          uiFTPLogonDuration :=
            micros uiTime uiMTime - (stat.uiTcpSynTime * 1000000 + stat.uiTcpSynMTime) }
      else stat
  | _ => stat

end Commands

section Messages

/-- `platformType` is `dGetPlatformType`, whose codes are in tables of other programs. -/
structure Conf where
  platformType : UInt16 → UInt16 → UInt16

variable (conf : Conf)

/-- What a message of a data session adds to its record. -/
def dataMessage (stat : LogFtpInfo) (info : TcpInfo) (bRtxType : Nat) : LogFtpInfo :=
  if bRtxType = DEF_FROM_SERVER then
    let stat := stat.count info
    { stat with
      uiDownRetranBytes := stat.uiDownRetranBytes + info.uiIPTotDnRetransSize
      uiFTPDownFirstSeq := if stat.uiFTPDownFirstSeq = 0 then info.uiSeqNum else stat.uiFTPDownFirstSeq
      uiFTPDownLastSeq := info.uiSeqNum }
  else if bRtxType = DEF_FROM_CLIENT then
    let stat := stat.count info
    { stat with
      uiUpRetranBytes := stat.uiUpRetranBytes + info.uiIPTotUpRetransSize
      uiFTPUpFirstSeq := if stat.uiFTPUpFirstSeq = 0 then info.uiSeqNum else stat.uiFTPUpFirstSeq
      uiFTPUpLastSeq := info.uiSeqNum }
  else stat

def dFTPMessage (state : State) (info : TcpInfo) (bRtxType : Nat) (szData : List UInt8)
    (stack : Nat → Int) (supply : TermSupply) : Int × State :=
  let key := info.key
  if key.usSrcPort ≠ PORT_FTPSIG ∧ key.usDestPort ≠ PORT_FTPSIG ∧ key.usSrcPort ≠ PORT_FTPDATA ∧
      key.usDestPort ≠ PORT_FTPDATA then (1, state)
  else
    match state.tbl.search key with
    | none => (-1, state)
    | some pstMMDB =>
        let state := state.change pstMMDB fun data =>
          { data with stFTPSTAT := { data.stFTPSTAT with uiLastUpdateTime := info.uiCapTime } }
        if key.usDestPort = PORT_FTPSIG then
          if bRtxType = DEF_FROM_SERVER then
            (0, state.change pstMMDB fun data =>
              { data with
                stFTPSTAT := replyParse data.stFTPSTAT szData info.uiCapTime info.uiCapMTime })
          else if bRtxType = DEF_FROM_CLIENT then (0, (CmdParse state pstMMDB szData stack supply).2)
          else (0, state)
        else
          (0, state.change pstMMDB fun data =>
            { data with stFTPSTAT := dataMessage data.stFTPSTAT info bRtxType })

/-- What the start of either session writes into its record. -/
def LogFtpInfo.start (stat : LogFtpInfo) (info : TcpInfo) : LogFtpInfo :=
  { stat with
    uiTcpSynTime := info.uiCapTime
    uiTcpSynMTime := info.uiCapMTime
    uiServerIP := info.uiSrvIP
    uiClientIP := info.uiCliIP
    usPlatformType := conf.platformType info.usL4Code info.usL7Code
    usSvcL4Type := info.usL4Code
    usSvcL7Type := info.usL7Code
    uiLastUpdateTime := info.uiCapTime }

/-- A signal session whose key is known is first freed. -/
def startSignal (state : State) (info : TcpInfo) (supply : TermSupply) : Int × State :=
  let state :=
    match state.tbl.search info.key with
    | none => state
    | some pstMMDB =>
        ((state.change pstMMDB fun data => { data with dTimeOutTime := 1 }).term info.key supply).2
  match dInsertMMDB state.tbl (newSess info.key) with
  | .error dRet => (dRet, state)
  | .ok (pstMMDB, tbl) =>
      (0, State.change { state with tbl := tbl } pstMMDB fun data =>
        { data with stFTPSTAT := data.stFTPSTAT.start conf info })

def dSessStartMessage (state : State) (info : TcpInfo) (supply : TermSupply) : Int × State :=
  if info.usSrvPort = PORT_FTPSIG then startSignal conf state info supply
  else
    match state.tbl.search info.key with
    | none => (-1, state)
    | some pstMMDB =>
        (0, state.change pstMMDB fun data =>
          { data with
            stFTPSTAT := LogFtpInfo.count
              { data.stFTPSTAT.start conf info with
                uiFTPSynTime := info.uiCapTime
                uiFTPSynMTime := info.uiCapMTime } info })

/-- What the end of a session writes into its record. -/
def LogFtpInfo.stop (stat : LogFtpInfo) (info : TcpInfo) : LogFtpInfo :=
  let stat := { stat with uiLastUpdateTime := info.uiCapTime }
  let stat :=
    if info.usSrvPort = PORT_FTPDATA then
      let stat := stat.count info
      if info.usL4FailCode = TCP_NOERR_FIN_E1 ∨ info.usL4FailCode = TCP_NOERR_FIN_E2 then
        { stat with
          uiFTPFinTime := info.uiCapTime
          uiFTPFinMTime := info.uiCapMTime }
      else stat
    else stat
  { stat with
    uiEndTime := info.uiCapTime
    uiEndMTime := info.uiCapMTime
    usCliFTPStatus := info.ucTcpClientStatus.toUInt16
    usSvrFTPStatus := info.ucTcpServerStatus.toUInt16 }

def dSessStopMessage (state : State) (info : TcpInfo) (supply : TermSupply) : Int × State :=
  match state.tbl.search info.key with
  | none => (0, state)
  | some pstMMDB =>
      (state.change pstMMDB fun data => { data with stFTPSTAT := data.stFTPSTAT.stop info }).term
        info.key supply

/-- `term` is a call of `dTermTCP` by `dTimeOutSess`. -/
inductive Step where
  | start (info : TcpInfo) (supply : TermSupply)
  | message (info : TcpInfo) (bRtxType : Nat) (szData : List UInt8) (stack : Nat → Int)
      (supply : TermSupply)
  | stop (info : TcpInfo) (supply : TermSupply)
  | term (pstKey : SessKey) (supply : TermSupply)

def State.step (state : State) : Step → State
  | .start info supply => (dSessStartMessage conf state info supply).2
  | .message info bRtxType szData stack supply =>
      (dFTPMessage state info bRtxType szData stack supply).2
  | .stop info supply => (dSessStopMessage state info supply).2
  | .term pstKey supply => (state.term pstKey supply).2

def runSteps (tbl : SessTable) (steps : List Step) : State :=
  steps.foldl (State.step conf) ⟨tbl, []⟩

end Messages

end Upst.Aftp
