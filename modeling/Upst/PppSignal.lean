import Upst.Psess
import Mathlib.Logic.Function.Basic

/-!
`A_GRE`: the PPP control frames of a session. Each transaction has a record with a flag for its request
and one for its reply and the identifier of the last of them. When both are there the signal log is
reported and the record is cleared.
-/

namespace Upst.PppSignal

open Psess

set_option autoImplicit false

section Constants

def PPP_IPCP : Nat := 0x8021
def PPP_LCP : Nat := 0xC021
def PPP_PAP : Nat := 0xC023
def PPP_CHAP : Nat := 0xC223

def DEF_LCP_CONF_REQ : Nat := 0x01
def DEF_LCP_CONF_ACK : Nat := 0x02
def DEF_LCP_CONF_NAK : Nat := 0x03
def DEF_LCP_CONF_REJ : Nat := 0x04
def DEF_LCP_TERM_REQ : Nat := 0x05
def DEF_LCP_TERM_ACK : Nat := 0x06
def DEF_LCP_ECHO_REQ : Nat := 0x09
def DEF_LCP_ECHO_REP : Nat := 0x0A

def DEF_CHAP_CHAL : Nat := 0x01
def DEF_CHAP_RESP : Nat := 0x02
def DEF_CHAP_SUCC : Nat := 0x03
def DEF_CHAP_FAIL : Nat := 0x04

def DEF_PAP_AUTH_REQ : Nat := 0x01
def DEF_PAP_AUTH_ACK : Nat := 0x02
def DEF_PAP_AUTH_NAK : Nat := 0x03

def DEF_IPCP_CONF_REQ : Nat := 0x01
def DEF_IPCP_CONF_ACK : Nat := 0x02
def DEF_IPCP_CONF_NAK : Nat := 0x03
def DEF_IPCP_CONF_REJ : Nat := 0x04

def NUM_CHAP : Nat := 24
def NUM_PAP : Nat := 25
def NUM_UP_LCP : Nat := 31
def NUM_DOWN_LCP : Nat := 32
def NUM_UP_IPCP : Nat := 33
def NUM_DOWN_IPCP : Nat := 34

end Constants

section State

/-- `bRtxType`. The frames of other types are dropped before. -/
inductive Direction where
  | client
  | server
  deriving DecidableEq, Repr

def Direction.opposite : Direction → Direction
  | client => server
  | server => client

/-- A frame with what `Analyze_PPP` finds in it. -/
structure Frame where
  bRtxType : Direction
  time : Stamp
  wProtocol : Nat
  ucCode : Nat
  ucID : Nat
  ucIPAddr : Nat
  szUserName : List UInt8
  deriving DecidableEq, Repr

/-- `T_SESS`. -/
structure TSess where
  Start : Stamp
  End : Stamp
  uiID : Nat
  ucFlag : Nat
  ucReqMsgCode : Nat
  ucRepMsgCode : Nat
  ucReqCount : Nat
  ucNakCount : Nat
  ucRejCount : Nat
  deriving DecidableEq, Repr

def TSess.zero : TSess where
  Start := .zero
  End := .zero
  uiID := 0
  ucFlag := 0
  ucReqMsgCode := 0
  ucRepMsgCode := 0
  ucReqCount := 0
  ucNakCount := 0
  ucRejCount := 0

/-- The records of a session. -/
inductive Transaction where
  | UpLCP
  | DownLCP
  | UpLCPEcho
  | DownLCPEcho
  | CHAPAP
  | UpIPCP
  | DownIPCP
  | LCPTerm
  deriving DecidableEq, Repr

/-- The fields of `PSESS_DATA` that the frames of these protocols are used for. -/
structure PSession where
  sess : Transaction → TSess
  UpLCPStart : Stamp
  DownLCPStart : Stamp
  AuthReq : Stamp
  CHAPRes : Stamp
  AuthEnd : Stamp
  IPCPStart : Stamp
  PPPSetup : Stamp
  PPPTerm : Stamp
  uiIPAddr : Nat
  usPPPFlag : Nat
  ucAuthResultCode : Nat
  ucUpLCPReqCount : Nat
  ucDownLCPReqCount : Nat
  ucUpIPCPReqCount : Nat
  ucDownIPCPReqCount : Nat
  ucPPPSetupCount : Nat
  szAuthUserName : List UInt8
  uiLCPDuration : Nat
  uiIPCPDuration : Nat

/-- A new session. -/
def PSession.zero : PSession where
  sess := fun _ => .zero
  UpLCPStart := .zero
  DownLCPStart := .zero
  AuthReq := .zero
  CHAPRes := .zero
  AuthEnd := .zero
  IPCPStart := .zero
  PPPSetup := .zero
  PPPTerm := .zero
  uiIPAddr := 0
  usPPPFlag := 0
  ucAuthResultCode := 0
  ucUpLCPReqCount := 0
  ucDownLCPReqCount := 0
  ucUpIPCPReqCount := 0
  ucDownIPCPReqCount := 0
  ucPPPSetupCount := 0
  szAuthUserName := []
  uiLCPDuration := 0
  uiIPCPDuration := 0

/-- A call of `Report_SIGLog`, with the record that the log is filled from. -/
structure Report where
  ucProtoType : Nat
  ucMsgType : Nat
  record : TSess
  deriving DecidableEq, Repr

/-- The record that `Report_SIGLog` fills the log from. -/
def loggedRecord (ucProtoType ucMsgType : Nat) : Option Transaction :=
  if ucProtoType = NUM_UP_LCP then
    if ucMsgType = DEF_LCP_CONF_REQ then some .UpLCP
    else if ucMsgType = DEF_LCP_TERM_REQ then some .LCPTerm
    else if ucMsgType = DEF_LCP_ECHO_REQ then some .UpLCPEcho
    else none
  else if ucProtoType = NUM_DOWN_LCP then
    if ucMsgType = DEF_LCP_CONF_REQ then some .DownLCP
    else if ucMsgType = DEF_LCP_TERM_REQ then some .LCPTerm
    else if ucMsgType = DEF_LCP_ECHO_REQ then some .DownLCPEcho
    else none
  else if ucProtoType = NUM_UP_IPCP then some .UpIPCP
  else if ucProtoType = NUM_DOWN_IPCP then some .DownIPCP
  else if ucProtoType = NUM_CHAP ∨ ucProtoType = NUM_PAP then some .CHAPAP
  else none

end State

section Record

def u8 (value : Nat) : Nat := value % 2 ^ 8

/-- What every request does to its record. -/
def TSess.asked (record : TSess) (frame : Frame) : TSess :=
  { record with
    Start := if record.Start.Time = 0 then frame.time else record.Start
    ucFlag := record.ucFlag ||| 0x01
    uiID := frame.ucID
    ucReqMsgCode := frame.ucCode }

def TSess.counted (record : TSess) : TSess := { record with ucReqCount := u8 (record.ucReqCount + 1) }

/-- What every reply that ends a transaction does to its record. -/
def TSess.answered (record : TSess) (frame : Frame) : TSess :=
  { record with
    End := frame.time
    ucFlag := record.ucFlag ||| 0x02
    uiID := frame.ucID
    ucRepMsgCode := frame.ucCode }

/-- With both flags the log is reported and the record is cleared. -/
def TSess.closed (record : TSess) (ucProtoType : Nat) : TSess × List Report :=
  if record.ucFlag = 0x03 then (.zero, [⟨ucProtoType, record.ucReqMsgCode, record⟩]) else (record, [])

def PSession.setSess (session : PSession) (transaction : Transaction) (record : TSess) : PSession :=
  { session with sess := Function.update session.sess transaction record }

def PSession.close (session : PSession) (transaction : Transaction) (record : TSess) (ucProtoType : Nat) :
    PSession × List Report :=
  (session.setSess transaction (record.closed ucProtoType).1, (record.closed ucProtoType).2)

/-- A request that is counted. -/
def PSession.request (session : PSession) (transaction : Transaction) (ucProtoType : Nat) (frame : Frame) :
    PSession × List Report :=
  session.close transaction ((session.sess transaction).asked frame).counted ucProtoType

def PSession.reply (session : PSession) (transaction : Transaction) (ucProtoType : Nat) (frame : Frame) :
    PSession × List Report :=
  session.close transaction ((session.sess transaction).answered frame) ucProtoType

/-- A reply is looked at only under the identifier of the record. -/
def PSession.checked (session : PSession) (transaction : Transaction) (frame : Frame)
    (reply : PSession × List Report) : PSession × List Report :=
  if (session.sess transaction).uiID ≠ frame.ucID then (session, []) else reply

/-- The code of a refusal is kept under the identifier of the record. -/
def TSess.refused (record : TSess) (frame : Frame) : TSess :=
  if record.uiID ≠ frame.ucID then record else { record with ucRepMsgCode := frame.ucCode }

def TSess.nak (record : TSess) (frame : Frame) : TSess :=
  TSess.refused { record with ucNakCount := u8 (record.ucNakCount + 1) } frame

def TSess.rej (record : TSess) (frame : Frame) : TSess :=
  TSess.refused { record with ucRejCount := u8 (record.ucRejCount + 1) } frame

end Record

section ProcPPP

/-- The start of the setup is kept from the first request. -/
def firstStamp (stamp : Stamp) (record : TSess) (frame : Frame) : Stamp :=
  if record.Start.Time = 0 then frame.time else stamp

/-- The duration from the first of the two LCP requests. -/
def lcpDuration (session : PSession) (frame : Frame) : PSession :=
  if session.PPPSetup.Time = 0 ∧ session.usPPPFlag &&& 0x000f = 0x000f then
    if session.UpLCPStart.Time = session.DownLCPStart.Time then
      if session.UpLCPStart.MTime < session.DownLCPStart.MTime then
        { session with uiLCPDuration := GetUpTime session.UpLCPStart frame.time }
      else { session with uiLCPDuration := GetUpTime session.DownLCPStart frame.time }
    else if session.UpLCPStart.Time < session.DownLCPStart.Time then
      { session with uiLCPDuration := GetUpTime session.UpLCPStart frame.time }
    else { session with uiLCPDuration := GetUpTime session.DownLCPStart frame.time }
  else session

def PSession.flagged (session : PSession) (flag : Nat) : PSession :=
  { session with usPPPFlag := session.usPPPFlag ||| flag }

def lcpConfReq (session : PSession) (frame : Frame) : PSession × List Report :=
  match frame.bRtxType with
  | .client =>
      PSession.request
        { session.flagged 0x0001 with
          ucUpLCPReqCount := u8 (session.ucUpLCPReqCount + 1)
          UpLCPStart := firstStamp session.UpLCPStart (session.sess .UpLCP) frame }
        .UpLCP NUM_UP_LCP frame
  | .server =>
      PSession.request
        { session.flagged 0x0004 with
          ucDownLCPReqCount := u8 (session.ucDownLCPReqCount + 1)
          DownLCPStart := firstStamp session.DownLCPStart (session.sess .DownLCP) frame }
        .DownLCP NUM_DOWN_LCP frame

def lcpConfAck (session : PSession) (frame : Frame) : PSession × List Report :=
  match frame.bRtxType with
  | .client =>
      session.checked .DownLCP frame
        (lcpDuration ((session.flagged 0x0008).reply .DownLCP NUM_DOWN_LCP frame).1 frame,
          ((session.flagged 0x0008).reply .DownLCP NUM_DOWN_LCP frame).2)
  | .server =>
      session.checked .UpLCP frame
        (lcpDuration ((session.flagged 0x0002).reply .UpLCP NUM_UP_LCP frame).1 frame,
          ((session.flagged 0x0002).reply .UpLCP NUM_UP_LCP frame).2)

/-- Both directions share the record of the termination. -/
def lcpTermReq (session : PSession) (frame : Frame) : PSession × List Report :=
  match frame.bRtxType with
  | .client =>
      PSession.request
        { session.flagged 0x0010 with
          PPPTerm := firstStamp session.PPPTerm (session.sess .LCPTerm) frame }
        .LCPTerm NUM_UP_LCP frame
  | .server =>
      PSession.request
        { session.flagged 0x0040 with
          PPPTerm := firstStamp session.PPPTerm (session.sess .LCPTerm) frame }
        .LCPTerm NUM_DOWN_LCP frame

def lcpTermAck (session : PSession) (frame : Frame) : PSession × List Report :=
  match frame.bRtxType with
  | .client =>
      session.checked .LCPTerm frame ((session.flagged 0x0080).reply .LCPTerm NUM_DOWN_LCP frame)
  | .server => session.checked .LCPTerm frame ((session.flagged 0x0020).reply .LCPTerm NUM_UP_LCP frame)

/-- The record of the requests that the other side sends. -/
def lcpOf : Direction → Transaction
  | .client => .DownLCP
  | .server => .UpLCP

def ipcpOf : Direction → Transaction
  | .client => .DownIPCP
  | .server => .UpIPCP

def PSession.nak (session : PSession) (transaction : Transaction) (frame : Frame) :
    PSession × List Report :=
  (session.setSess transaction ((session.sess transaction).nak frame), [])

def PSession.rej (session : PSession) (transaction : Transaction) (frame : Frame) :
    PSession × List Report :=
  (session.setSess transaction ((session.sess transaction).rej frame), [])

/-- The echo requests count with those of the configuration. -/
def lcpEchoReq (session : PSession) (frame : Frame) : PSession × List Report :=
  match frame.bRtxType with
  | .client =>
      PSession.request { session with ucUpLCPReqCount := u8 (session.ucUpLCPReqCount + 1) }
        .UpLCPEcho NUM_UP_LCP frame
  | .server =>
      PSession.request { session with ucDownLCPReqCount := u8 (session.ucDownLCPReqCount + 1) }
        .DownLCPEcho NUM_DOWN_LCP frame

def lcpEchoRep (session : PSession) (frame : Frame) : PSession × List Report :=
  match frame.bRtxType with
  | .client => session.checked .DownLCPEcho frame (session.reply .DownLCPEcho NUM_DOWN_LCP frame)
  | .server => session.checked .UpLCPEcho frame (session.reply .UpLCPEcho NUM_UP_LCP frame)

def procLCP (session : PSession) (frame : Frame) : PSession × List Report :=
  if frame.ucCode = DEF_LCP_CONF_REQ then lcpConfReq session frame
  else if frame.ucCode = DEF_LCP_CONF_ACK then lcpConfAck session frame
  else if frame.ucCode = DEF_LCP_TERM_REQ then lcpTermReq session frame
  else if frame.ucCode = DEF_LCP_TERM_ACK then lcpTermAck session frame
  else if frame.ucCode = DEF_LCP_CONF_NAK then session.nak (lcpOf frame.bRtxType) frame
  else if frame.ucCode = DEF_LCP_CONF_REJ then session.rej (lcpOf frame.bRtxType) frame
  else if frame.ucCode = DEF_LCP_ECHO_REQ then lcpEchoReq session frame
  else if frame.ucCode = DEF_LCP_ECHO_REP then lcpEchoRep session frame
  else (session, [])

/-- The user is taken from the response, which neither begins nor ends the transaction. -/
def chapResponse (session : PSession) (frame : Frame) : PSession :=
  { (session.flagged 0x0400).setSess .CHAPAP
      { session.sess .CHAPAP with
        ucRepMsgCode := frame.ucCode
        uiID := frame.ucID } with
    ucAuthResultCode := frame.ucCode
    szAuthUserName := frame.szUserName
    CHAPRes := frame.time }

/-- The end of the authentication, by success or failure. -/
def authEnd (session : PSession) (ucProtoType : Nat) (frame : Frame) : PSession × List Report :=
  PSession.reply
    { session with
      ucAuthResultCode := frame.ucCode
      AuthEnd := frame.time }
    .CHAPAP ucProtoType frame

def authStart (session : PSession) (frame : Frame) : PSession :=
  { session.flagged 0x0200 with AuthReq := firstStamp session.AuthReq (session.sess .CHAPAP) frame }

def procCHAP (session : PSession) (frame : Frame) : PSession × List Report :=
  if frame.ucCode = DEF_CHAP_CHAL then
    (authStart (session.flagged 0x0100) frame).request .CHAPAP NUM_CHAP frame
  else if frame.ucCode = DEF_CHAP_RESP then
    (session.flagged 0x0100).checked .CHAPAP frame (chapResponse (session.flagged 0x0100) frame, [])
  else if frame.ucCode = DEF_CHAP_SUCC then
    (session.flagged 0x0100).checked .CHAPAP frame
      (authEnd ((session.flagged 0x0100).flagged 0x0800) NUM_CHAP frame)
  else if frame.ucCode = DEF_CHAP_FAIL then
    (session.flagged 0x0100).checked .CHAPAP frame (authEnd (session.flagged 0x0100) NUM_CHAP frame)
  else (session.flagged 0x0100, [])

/-- A PAP request is not counted, and the identifier of a PAP reply is not looked at. -/
def procPAP (session : PSession) (frame : Frame) : PSession × List Report :=
  if frame.ucCode = DEF_PAP_AUTH_REQ then
    PSession.close { authStart session frame with szAuthUserName := frame.szUserName } .CHAPAP
      ((session.sess .CHAPAP).asked frame) NUM_PAP
  else if frame.ucCode = DEF_PAP_AUTH_ACK then authEnd (session.flagged 0x0800) NUM_PAP frame
  else if frame.ucCode = DEF_PAP_AUTH_NAK then authEnd session NUM_PAP frame
  else (session, [])

def ipcpStart (session : PSession) (frame : Frame) : PSession :=
  { session with IPCPStart := if session.IPCPStart.Time = 0 then frame.time else session.IPCPStart }

def ipcpConfReq (session : PSession) (frame : Frame) : PSession × List Report :=
  match frame.bRtxType with
  | .client =>
      PSession.request
        { session.flagged 0x1000 with ucUpIPCPReqCount := u8 (session.ucUpIPCPReqCount + 1) }
        .UpIPCP NUM_UP_IPCP frame
  | .server =>
      PSession.request
        { session.flagged 0x4000 with ucDownIPCPReqCount := u8 (session.ucDownIPCPReqCount + 1) }
        .DownIPCP NUM_DOWN_IPCP frame

/-- What is set once both sides have their addresses. -/
def pppSetup (session : PSession) (frame : Frame) : PSession :=
  if session.usPPPFlag &&& 0xf000 = 0xf000 then
    if session.PPPSetup.Time = 0 then
      { session with
        PPPSetup := frame.time
        uiIPCPDuration := GetUpTime session.IPCPStart frame.time
        ucPPPSetupCount := u8 (session.ucPPPSetupCount + 1) }
    else { session with ucPPPSetupCount := u8 (session.ucPPPSetupCount + 1) }
  else session

def ipcpConfAck (session : PSession) (frame : Frame) : PSession × List Report :=
  match frame.bRtxType with
  | .client =>
      session.checked .DownIPCP frame
        (pppSetup ((session.flagged 0x8000).reply .DownIPCP NUM_DOWN_IPCP frame).1 frame,
          ((session.flagged 0x8000).reply .DownIPCP NUM_DOWN_IPCP frame).2)
  | .server =>
      let session' := { session.flagged 0x2000 with uiIPAddr := frame.ucIPAddr }
      session.checked .UpIPCP frame
        (pppSetup (session'.reply .UpIPCP NUM_UP_IPCP frame).1 frame,
          (session'.reply .UpIPCP NUM_UP_IPCP frame).2)

def procIPCP (session : PSession) (frame : Frame) : PSession × List Report :=
  if frame.ucCode = DEF_IPCP_CONF_REQ then ipcpConfReq (ipcpStart session frame) frame
  else if frame.ucCode = DEF_IPCP_CONF_ACK then ipcpConfAck session frame
  else if frame.ucCode = DEF_IPCP_CONF_NAK then session.nak (ipcpOf frame.bRtxType) frame
  else if frame.ucCode = DEF_IPCP_CONF_REJ then session.rej (ipcpOf frame.bRtxType) frame
  else (session, [])

/-- The switch of `ProcPPP` over the protocol. -/
def ProcPPP (session : PSession) (frame : Frame) : PSession × List Report :=
  if frame.wProtocol = PPP_LCP then procLCP session frame
  else if frame.wProtocol = PPP_CHAP then procCHAP session frame
  else if frame.wProtocol = PPP_PAP then procPAP session frame
  else if frame.wProtocol = PPP_IPCP then procIPCP session frame
  else (session, [])

end ProcPPP

end Upst.PppSignal
