import Upst.Network
import Upst.Fields

/-!
The decoder of L2TP control messages. `INFO_L2TP` is kept by its fields: the numbers, and the texts
with the sizes of their arrays. A text that does not fit its array runs over the fields behind it,
and then the decoder has no result. Log output takes no part.
-/

namespace Upst.L2tp

open Bytes Network
open Fields (Record)

set_option autoImplicit false

inductive NumField where
  | usPacketType | usHeaderSize | usLength | usTunnelID | usSessionID | usNs | usNr | usOffsetSize
  | ucSendLCPFlag | ucRecvLCPFlag | ucCHAPChalFlag | ucCHAPRespFlag | ucAUTHID
  | usMessageType | usProtocolVer | usResultCode | usErrorCode | usFirmwareRevision
  | usAssignedTunnelID | usAssignedSessionID | usReceiveWindowSize
  | uiCallSerialNumber | uiTxConnectSpeed | uiRxConnectSpeed | usProxyAuthenType
  deriving DecidableEq, Repr

inductive TextField where
  | szHostName | szVendorName | szChallenge | szChallengeResp | szCalledNumber | szCallingNumber
  | szSentLCPConfReq | szRecvLCPConfReq | szProxyAuthenName
  deriving DecidableEq, Repr

def TextField.size : TextField → Nat
  | .szHostName | .szVendorName => 41
  | .szChallenge | .szChallengeResp => 128
  | .szCalledNumber | .szCallingNumber => 17
  | .szSentLCPConfReq | .szRecvLCPConfReq => 128
  | .szProxyAuthenName => 64

abbrev L2tpInfo := Record NumField TextField

/-- `memcpy` and the terminator behind it. -/
def L2tpInfo.putText (info : L2tpInfo) (field : TextField) (value : List UInt8) : L2tpInfo :=
  info.setText field (value ++ 0 :: (info.text field).drop (value.length + 1))

/-- The attributes that the decoder has a case for. -/
inductive AvpType where
  | CONTROL_MESSAGE | RESULT_ERROR_CODE | L2TP_PROTOCOL_VERSION | FRAMING_CAPABILITIES
  | BEARER_CAPABILITIES | TIE_BREAKER | FIRMWARE_REVISION | HOST_NAME | VENDOR_NAME
  | ASSIGNED_TUNNEL_ID | RECEIVE_WINDOW_SIZE | CHALLENGE | CAUSE_CODE | CHALLENGE_RESPONSE
  | ASSIGNED_SESSION | CALL_SERIAL_NUMBER | MINIMUM_BPS | MAXIMUM_BPS | BEARER_TYPE | FRAMING_TYPE
  | CALLED_NUMBER | CALLING_NUMBER | SUB_ADDRESS | TX_CONNECT_SPEED | PHYSICAL_CHANNEL
  | INITIAL_RECEIVED_LCP_CONFREQ | LAST_SENT_LCP_CONFREQ | LAST_RECEIVED_LCP_CONFREQ
  | PROXY_AUTHEN_TYPE | PROXY_AUTHEN_NAME | PROXY_AUTHEN_CHALLENGE | PROXY_AUTHEN_ID
  | PROXY_AUTHEN_RESPONSE | CALL_STATUS_AVPS | ACCM | RANDOM_VECTOR | PRIVATE_GROUP_ID
  | RX_CONNECT_SPEED | SEQUENCING_REQUIRED
  deriving DecidableEq, Repr

/-- The codes; the name `CAUSE_CODE` is that of the Diameter AVP. -/
def AvpType.code : AvpType → Nat
  | CONTROL_MESSAGE => 0
  | RESULT_ERROR_CODE => 1
  | L2TP_PROTOCOL_VERSION => 2
  | FRAMING_CAPABILITIES => 3
  | BEARER_CAPABILITIES => 4
  | TIE_BREAKER => 5
  | FIRMWARE_REVISION => 6
  | HOST_NAME => 7
  | VENDOR_NAME => 8
  | ASSIGNED_TUNNEL_ID => 9
  | RECEIVE_WINDOW_SIZE => 10
  | CHALLENGE => 11
  | CAUSE_CODE => 861
  | CHALLENGE_RESPONSE => 13
  | ASSIGNED_SESSION => 14
  | CALL_SERIAL_NUMBER => 15
  | MINIMUM_BPS => 16
  | MAXIMUM_BPS => 17
  | BEARER_TYPE => 18
  | FRAMING_TYPE => 19
  | CALLED_NUMBER => 21
  | CALLING_NUMBER => 22
  | SUB_ADDRESS => 23
  | TX_CONNECT_SPEED => 24
  | PHYSICAL_CHANNEL => 25
  | INITIAL_RECEIVED_LCP_CONFREQ => 26
  | LAST_SENT_LCP_CONFREQ => 27
  | LAST_RECEIVED_LCP_CONFREQ => 28
  | PROXY_AUTHEN_TYPE => 29
  | PROXY_AUTHEN_NAME => 30
  | PROXY_AUTHEN_CHALLENGE => 31
  | PROXY_AUTHEN_ID => 32
  | PROXY_AUTHEN_RESPONSE => 33
  | CALL_STATUS_AVPS => 34
  | ACCM => 35
  | RANDOM_VECTOR => 36
  | PRIVATE_GROUP_ID => 37
  | RX_CONNECT_SPEED => 38
  | SEQUENCING_REQUIRED => 39

def avpTypes : List AvpType :=
  [.CONTROL_MESSAGE, .RESULT_ERROR_CODE, .L2TP_PROTOCOL_VERSION, .FRAMING_CAPABILITIES,
    .BEARER_CAPABILITIES, .TIE_BREAKER, .FIRMWARE_REVISION, .HOST_NAME, .VENDOR_NAME,
    .ASSIGNED_TUNNEL_ID, .RECEIVE_WINDOW_SIZE, .CHALLENGE, .CAUSE_CODE, .CHALLENGE_RESPONSE,
    .ASSIGNED_SESSION, .CALL_SERIAL_NUMBER, .MINIMUM_BPS, .MAXIMUM_BPS, .BEARER_TYPE, .FRAMING_TYPE,
    .CALLED_NUMBER, .CALLING_NUMBER, .SUB_ADDRESS, .TX_CONNECT_SPEED, .PHYSICAL_CHANNEL,
    .INITIAL_RECEIVED_LCP_CONFREQ, .LAST_SENT_LCP_CONFREQ, .LAST_RECEIVED_LCP_CONFREQ,
    .PROXY_AUTHEN_TYPE, .PROXY_AUTHEN_NAME, .PROXY_AUTHEN_CHALLENGE, .PROXY_AUTHEN_ID,
    .PROXY_AUTHEN_RESPONSE, .CALL_STATUS_AVPS, .ACCM, .RANDOM_VECTOR, .PRIVATE_GROUP_ID,
    .RX_CONNECT_SPEED, .SEQUENCING_REQUIRED]

def AvpType.ofCode (code : Nat) : Option AvpType := avpTypes.find? fun avp => avp.code = code

/-- What a case stores: two octets of the value at a place, four octets, one octet, a text, or 1. -/
inductive Store where
  | half (field : NumField) (place : Nat)
  | word (field : NumField)
  | octet (field : NumField) (place : Nat)
  | text (field : TextField)
  | flag (field : NumField)
  deriving DecidableEq, Repr

/-- The cases of the switch; `SUB_ADDRESS` has no `break` and goes on to the next. -/
def AvpType.stores : AvpType → List Store
  | CONTROL_MESSAGE => [.half .usMessageType 0]
  | RESULT_ERROR_CODE => [.half .usResultCode 0, .half .usErrorCode 2]
  | L2TP_PROTOCOL_VERSION => [.half .usProtocolVer 0]
  | FIRMWARE_REVISION => [.half .usFirmwareRevision 0]
  | HOST_NAME => [.text .szHostName]
  | VENDOR_NAME => [.text .szVendorName]
  | ASSIGNED_TUNNEL_ID => [.half .usAssignedTunnelID 0]
  | RECEIVE_WINDOW_SIZE => [.half .usReceiveWindowSize 0]
  | CHALLENGE => [.text .szChallenge]
  | CHALLENGE_RESPONSE => [.text .szChallengeResp]
  | ASSIGNED_SESSION => [.half .usAssignedSessionID 0]
  | CALL_SERIAL_NUMBER => [.word .uiCallSerialNumber]
  | CALLED_NUMBER => [.text .szCalledNumber]
  | CALLING_NUMBER => [.text .szCallingNumber]
  | SUB_ADDRESS | TX_CONNECT_SPEED => [.word .uiTxConnectSpeed]
  | LAST_SENT_LCP_CONFREQ => [.text .szSentLCPConfReq, .flag .ucSendLCPFlag]
  | LAST_RECEIVED_LCP_CONFREQ => [.text .szRecvLCPConfReq, .flag .ucRecvLCPFlag]
  | PROXY_AUTHEN_TYPE => [.half .usProxyAuthenType 0]
  | PROXY_AUTHEN_NAME => [.text .szProxyAuthenName]
  | PROXY_AUTHEN_CHALLENGE => [.flag .ucCHAPChalFlag]
  | PROXY_AUTHEN_ID => [.octet .ucAUTHID 1]
  | PROXY_AUTHEN_RESPONSE => [.flag .ucCHAPRespFlag]
  | RX_CONNECT_SPEED => [.word .uiRxConnectSpeed]
  | FRAMING_CAPABILITIES | BEARER_CAPABILITIES | TIE_BREAKER | CAUSE_CODE | MINIMUM_BPS | MAXIMUM_BPS
  | BEARER_TYPE | FRAMING_TYPE | PHYSICAL_CHANNEL | INITIAL_RECEIVED_LCP_CONFREQ | CALL_STATUS_AVPS
  | ACCM | RANDOM_VECTOR | PRIVATE_GROUP_ID | SEQUENCING_REQUIRED => []

/-- `place` is that of `AVPValue`. -/
def Store.perform (pBuf : Nat → UInt8) (place size : Nat) (info : L2tpInfo) : Store → Option L2tpInfo
  | .half field skip => some (info.setNum field (ntohs pBuf (place + skip)))
  | .word field => some (info.setNum field (ntohl pBuf place))
  | .octet field skip => some (info.setNum field (pBuf (place + skip)).toNat)
  | .text field =>
      if size < field.size then some (info.putText field (readBytes pBuf place size)) else none
  | .flag field => some (info.setNum field 1)

def avpCase (pBuf : Nat → UInt8) (place size avp_type : Nat) (info : L2tpInfo) : Option L2tpInfo :=
  match AvpType.ofCode avp_type with
  | none => some info
  | some avp => avp.stores.foldlM (Store.perform pBuf place size) info

def avpLoop (pBuf : Nat → UInt8) : Nat → Nat → L2tpInfo → Option (Int × L2tpInfo)
  | 0, _, _ => none
  | fuel + 1, idx, info =>
      if idx < info.num .usLength then
        let avp_len := (pBuf (idx + 1)).toNat
        let avp_type := ntohs pBuf (idx + 4)
        if avp_len < 6 then some (-2, info)
        else do
          let info ← avpCase pBuf (idx + 6) (avp_len - 6) avp_type info
          avpLoop pBuf fuel (idx + avp_len) info
      else some (1, info)

def CONTROL_BIT (msg_info : Nat) : Prop := msg_info &&& 0x8000 ≠ 0
def LENGTH_BIT (msg_info : Nat) : Prop := msg_info &&& 0x4000 ≠ 0
def SEQUENCE_BIT (msg_info : Nat) : Prop := msg_info &&& 0x0800 ≠ 0
def OFFSET_BIT (msg_info : Nat) : Prop := msg_info &&& 0x0200 ≠ 0

instance (msg_info : Nat) : Decidable (CONTROL_BIT msg_info) := inferInstanceAs (Decidable (_ ≠ _))
instance (msg_info : Nat) : Decidable (LENGTH_BIT msg_info) := inferInstanceAs (Decidable (_ ≠ _))
instance (msg_info : Nat) : Decidable (SEQUENCE_BIT msg_info) := inferInstanceAs (Decidable (_ ≠ _))
instance (msg_info : Nat) : Decidable (OFFSET_BIT msg_info) := inferInstanceAs (Decidable (_ ≠ _))

/-- The header, and `idx` behind it. -/
def analyzeHeader (pBuf : Nat → UInt8) (info : L2tpInfo) : L2tpInfo × Nat :=
  let control := ntohs pBuf 0
  let info := if CONTROL_BIT control then info.setNum .usPacketType 1 else info
  let (info, idx) :=
    if LENGTH_BIT control then (info.setNum .usLength (ntohs pBuf 2), 4)
    else (info.setNum .usLength 0, 2)
  let info := info.setNum .usTunnelID (ntohs pBuf idx)
  let info := info.setNum .usSessionID (ntohs pBuf (idx + 2))
  let idx := idx + 4
  let (info, idx) :=
    if SEQUENCE_BIT control then
      ((info.setNum .usNr (ntohs pBuf idx)).setNum .usNs (ntohs pBuf (idx + 2)), idx + 4)
    else ((info.setNum .usNr 0).setNum .usNs 0, idx)
  let (info, idx) :=
    if OFFSET_BIT control then
      (info.setNum .usOffsetSize (ntohs pBuf idx), idx + 2 + ntohs pBuf idx)
    else (info.setNum .usOffsetSize 0, idx)
  (info.setNum .usHeaderSize (idx % 2 ^ 16), idx)

def analyzeL2TP (pBuf : Nat → UInt8) (info : L2tpInfo) : Option (Int × L2tpInfo) :=
  let (info, idx) := analyzeHeader pBuf info
  if info.num .usLength = 12 ∨ info.num .usLength = 0 then some (1, info.setNum .usMessageType 0)
  else avpLoop pBuf (info.num .usLength + 1) idx info

end Upst.L2tp
