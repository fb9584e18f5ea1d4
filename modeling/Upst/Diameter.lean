import Upst.Network
import Upst.Fields

/-!
The decoder of Diameter messages. `DiameterInfo` is kept by its fields, beside the header of the
message and that of the AVP at hand. Log output takes no part.
-/

namespace Upst.Diameter

open Bytes Network
open Fields (Record)

set_option autoImplicit false

/-- `iCauseCode` is kept as its unsigned image. -/
inductive NumField where
  | uiApplicationID | uiAuthSessionState | ucCCReqType | uiCCReqNum | uiOrgStateId
  | ucSubscriptionType | ucUserAuthorizationType | uiChargingServer | ucPccStatus | ucBearerOP
  | uiResultCode | uiExpResultCode | iCauseCode | ucAccRecordType | ucReAuthReqType
  deriving DecidableEq, Repr

inductive TextField where
  | szSessionID | szOrgHost | szOrgRealm | szDestHost | szDestRealm | szPublicID | szUserID
  | szSubscriptionData | szCalledStationID | szProxyHost | szProxyState | szInService | szGCID | szICID
  | szErrMSG
  deriving DecidableEq, Repr

/-- The size of the array without its last byte. -/
def TextField.len : TextField → Nat
  | .szSessionID | .szProxyState => 127
  | .szOrgHost | .szOrgRealm | .szDestHost | .szDestRealm | .szPublicID | .szUserID => 63
  | .szSubscriptionData | .szProxyHost => 511
  | .szCalledStationID | .szErrMSG => 31
  | .szInService => 7
  | .szGCID | .szICID => 63

structure DiameterHdr where
  ucVersion : Nat
  uiLength : Nat
  bRequest : Nat
  bProxiable : Nat
  bError : Nat
  bTrans : Nat
  reserved : Nat
  uiCmdCode : Nat
  uiAppID : Nat
  uiHopByHopID : Nat
  uiEndToEndID : Nat

/-- `value` is the place of the value. -/
structure AvpHdr where
  uiAvpCode : Nat
  ucVendor : Nat
  ucMandatory : Nat
  ucSecurity : Nat
  uiLength : Nat
  uiVenderId : Nat
  value : Nat

structure DiameterInfo where
  stDiameterHdr : DiameterHdr
  stAVPHdr : AvpHdr
  fields : Record NumField TextField

/-- `sizeof(st_DiameterHdr)`, with the room that the alignment takes. -/
def DIAMETER_HDR_SIZE : Nat := 32

/-- The codes with a case in the switch, and those that only the header decoder knows. -/
inductive AvpCode where
  | PUBLIC_IDENTITY | USER_AUTHORIZATION_TYPE | SESSION_ID | ORIGIN_HOST | ORIGIN_REALM
  | DESTINATION_HOST | DESTINATION_REALM | AUTH_APPLICATION_ID | CC_REQUEST_NUMBER | CC_REQUEST_TYPE
  | SUBSCRIPTION_ID_TYPE | SUBSCRIPTION_ID_DATA | ORIGIN_STATE_ID | PROXY_HOST | PROXY_STATE
  | BEARER_OPERATION | GCID | ICID | INSERVICE | PCC_RULE_STATUS | CHARGING_SERVER | CAUSE_CODE_CDN
  | ACCOUNTING_RECORD_TYPE | RE_AUTH_REQUEST_TYPE | CALLED_STATION_ID | RESULT_CODE
  | EXPERIMENTAL_RESULT | USER_IDENTITY | EXCEPTIONAL_CASE
  | CAUSE_CODE | SUBSCRIPTION_ID | PROXY_INFO | ACCESS_NETWORK_CHARGING_IDENTIFIER_GX
  | CHARGING_RULE_INSTALL | CHARGING_RULE_DEFINITION | IMS_INFORMATION | SERVICE_INFORMATION
  | CHARGING_RULE_REPORT | EXPERIMENTAL_RESULT_CODE
  deriving DecidableEq, Repr

def AvpCode.code : AvpCode → Nat
  | PUBLIC_IDENTITY => 601
  | USER_AUTHORIZATION_TYPE => 623
  | SESSION_ID => 263
  | ORIGIN_HOST => 264
  | ORIGIN_REALM => 296
  | DESTINATION_HOST => 293
  | DESTINATION_REALM => 283
  | AUTH_APPLICATION_ID => 259
  | CC_REQUEST_NUMBER => 415
  | CC_REQUEST_TYPE => 416
  | SUBSCRIPTION_ID_TYPE => 450
  | SUBSCRIPTION_ID_DATA => 444
  | ORIGIN_STATE_ID => 278
  | PROXY_HOST => 280
  | PROXY_STATE => 33
  | BEARER_OPERATION => 1021
  | GCID => 502
  | ICID => 505
  | INSERVICE => 10001
  | PCC_RULE_STATUS => 1019
  | CHARGING_SERVER => 618
  | CAUSE_CODE_CDN => 12
  | ACCOUNTING_RECORD_TYPE => 480
  | RE_AUTH_REQUEST_TYPE => 285
  | CALLED_STATION_ID => 40
  | RESULT_CODE => 268
  | EXPERIMENTAL_RESULT => 297
  | USER_IDENTITY => 700
  | EXCEPTIONAL_CASE => 0
  | CAUSE_CODE => 861
  | SUBSCRIPTION_ID => 443
  | PROXY_INFO => 284
  | ACCESS_NETWORK_CHARGING_IDENTIFIER_GX => 1022
  | CHARGING_RULE_INSTALL => 1001
  | CHARGING_RULE_DEFINITION => 1003
  | IMS_INFORMATION => 876
  | SERVICE_INFORMATION => 873
  | CHARGING_RULE_REPORT => 1018
  | EXPERIMENTAL_RESULT_CODE => 298

/-- The codes for which the header decoder returns the offset of the value. -/
def headerCodes : List AvpCode :=
  [.PUBLIC_IDENTITY, .USER_AUTHORIZATION_TYPE, .SESSION_ID, .ORIGIN_HOST, .ORIGIN_REALM,
    .DESTINATION_HOST, .DESTINATION_REALM, .AUTH_APPLICATION_ID, .CC_REQUEST_NUMBER,
    .CC_REQUEST_TYPE, .SUBSCRIPTION_ID_TYPE, .SUBSCRIPTION_ID_DATA, .ORIGIN_STATE_ID, .PROXY_HOST,
    .PROXY_STATE, .BEARER_OPERATION, .GCID, .ICID, .INSERVICE, .PCC_RULE_STATUS, .CHARGING_SERVER,
    .CAUSE_CODE, .ACCOUNTING_RECORD_TYPE, .RE_AUTH_REQUEST_TYPE, .CALLED_STATION_ID,
    .SUBSCRIPTION_ID, .PROXY_INFO, .ACCESS_NETWORK_CHARGING_IDENTIFIER_GX, .CHARGING_RULE_INSTALL,
    .CHARGING_RULE_DEFINITION, .IMS_INFORMATION, .SERVICE_INFORMATION, .CHARGING_RULE_REPORT,
    .RESULT_CODE, .EXPERIMENTAL_RESULT_CODE]

/-- What a case stores: a number, its low byte, the swapped first octet's low byte, or a text. -/
inductive Store where
  | word (field : NumField)
  | low (field : NumField)
  | lead (field : NumField)
  | text (field : TextField)
  deriving DecidableEq, Repr

/-- The cases of the switch that store from the value of the AVP itself. -/
def AvpCode.store : AvpCode → Option Store
  | PUBLIC_IDENTITY => some (.text .szPublicID)
  | USER_AUTHORIZATION_TYPE => some (.lead .ucUserAuthorizationType)
  | SESSION_ID => some (.text .szSessionID)
  | ORIGIN_HOST => some (.text .szOrgHost)
  | ORIGIN_REALM => some (.text .szOrgRealm)
  | DESTINATION_HOST => some (.text .szDestHost)
  | DESTINATION_REALM => some (.text .szDestRealm)
  | AUTH_APPLICATION_ID => some (.word .uiApplicationID)
  | CC_REQUEST_NUMBER => some (.word .uiCCReqNum)
  | CC_REQUEST_TYPE => some (.low .ucCCReqType)
  | SUBSCRIPTION_ID_TYPE => some (.low .ucSubscriptionType)
  | SUBSCRIPTION_ID_DATA => some (.text .szSubscriptionData)
  | ORIGIN_STATE_ID => some (.word .uiOrgStateId)
  | PROXY_HOST => some (.text .szProxyHost)
  | PROXY_STATE => some (.text .szProxyState)
  | BEARER_OPERATION => some (.low .ucBearerOP)
  | GCID => some (.text .szGCID)
  | ICID => some (.text .szICID)
  | INSERVICE => some (.text .szInService)
  | PCC_RULE_STATUS => some (.lead .ucPccStatus)
  | CHARGING_SERVER => some (.word .uiChargingServer)
  | CAUSE_CODE_CDN => some (.word .iCauseCode)
  | ACCOUNTING_RECORD_TYPE => some (.low .ucAccRecordType)
  | RE_AUTH_REQUEST_TYPE => some (.low .ucReAuthReqType)
  | CALLED_STATION_ID => some (.text .szCalledStationID)
  | RESULT_CODE => some (.word .uiResultCode)
  | EXPERIMENTAL_RESULT | USER_IDENTITY | EXCEPTIONAL_CASE | CAUSE_CODE | SUBSCRIPTION_ID | PROXY_INFO
  | ACCESS_NETWORK_CHARGING_IDENTIFIER_GX | CHARGING_RULE_INSTALL | CHARGING_RULE_DEFINITION
  | IMS_INFORMATION | SERVICE_INFORMATION | CHARGING_RULE_REPORT | EXPERIMENTAL_RESULT_CODE => none

def avpCodes : List AvpCode :=
  headerCodes ++ [.CAUSE_CODE_CDN, .EXPERIMENTAL_RESULT, .USER_IDENTITY, .EXCEPTIONAL_CASE]

def AvpCode.ofCode (code : Nat) : Option AvpCode := avpCodes.find? fun avp => avp.code = code

/-- `size` is the unsigned difference of the length and the size of the header. -/
def Store.perform (pBuf : Nat → UInt8) (place size : Nat) (fields : Record NumField TextField) :
    Store → Record NumField TextField
  | .word field => fields.setNum field (ntohl pBuf place)
  | .low field => fields.setNum field (ntohl pBuf place % 2 ^ 8)
  | .lead field => fields.setNum field ((pBuf place).toNat * 2 ^ 24 % 2 ^ 8)
  | .text field =>
      let bytes := readBytes pBuf place (min field.len size)
      fields.setText field (bytes ++ (fields.text field).drop bytes.length)

/-- The length with the octets up to the next word. -/
def padded (uiLength : Nat) : Nat := uiLength + if uiLength % 4 = 0 then 0 else 4 - uiLength % 4

def u32Sub (a b : Nat) : Nat := (a + 2 ^ 32 - b) % 2 ^ 32

/-- `avpHdr` and the return value. -/
def analyzeAvpHeader (pBuf : Nat → UInt8) (offset : Nat) (avpHdr : AvpHdr) : AvpHdr × Nat :=
  let uiAvpCode := ntohl pBuf offset
  let flags := (pBuf (offset + 4)).toNat
  let uiLength := ntohl pBuf (offset + 4) % 2 ^ 24
  let vendor := flags >>> 7 ≠ 0
  let hdrLen := if vendor then 12 else 8
  ({ uiAvpCode := uiAvpCode
     ucVendor := flags >>> 7
     ucMandatory := flags >>> 6
     ucSecurity := flags >>> 5
     uiLength := uiLength
     uiVenderId := if vendor then ntohl pBuf (offset + 8) else avpHdr.uiVenderId
     value := offset + hdrLen },
    if uiAvpCode ∈ headerCodes.map AvpCode.code then hdrLen else padded uiLength)

/-- The AVP in a group whose header is at `place`. -/
def groupTurn (pBuf : Nat → UInt8) (place : Nat) (fields : Record NumField TextField) :
    Record NumField TextField :=
  let stAVPHdr := (analyzeAvpHeader pBuf place ⟨0, 0, 0, 0, 0, 0, 0⟩).1
  let avpHdrLen := if stAVPHdr.ucVendor ≠ 0 then 12 else 8
  let size := u32Sub stAVPHdr.uiLength avpHdrLen
  let fields :=
    if stAVPHdr.uiAvpCode = AvpCode.EXPERIMENTAL_RESULT_CODE.code then
      Store.perform pBuf stAVPHdr.value size fields (.word .uiExpResultCode)
    else fields
  if stAVPHdr.uiAvpCode = AvpCode.PUBLIC_IDENTITY.code then
    Store.perform pBuf stAVPHdr.value size fields (.text .szPublicID)
  else fields

/-- The loop over the AVPs in a group at `value`. What it adds to `avpoffset` at the end of a turn is
what is left of the group, so that there is one turn. -/
def groupLoop (pBuf : Nat → UInt8) (value uiLength : Nat) :
    Nat → Nat → Record NumField TextField → Option (Record NumField TextField)
  | 0, _, _ => none
  | fuel + 1, avpoffset, fields =>
      if avpoffset < uiLength then
        groupLoop pBuf value uiLength fuel (padded uiLength)
          (groupTurn pBuf (value + avpoffset) fields)
      else some fields

/-- The switch. -/
def avpCase (pBuf : Nat → UInt8) (avpHdr : AvpHdr) (fields : Record NumField TextField) :
    Option (Record NumField TextField) :=
  let avpHdrLen := if avpHdr.ucVendor ≠ 0 then 12 else 8
  match AvpCode.ofCode avpHdr.uiAvpCode with
  | some .EXPERIMENTAL_RESULT | some .USER_IDENTITY =>
      groupLoop pBuf avpHdr.value avpHdr.uiLength (avpHdr.uiLength + 1) 0 fields
  | some avp =>
      match avp.store with
      | some store =>
          some (store.perform pBuf avpHdr.value (u32Sub avpHdr.uiLength avpHdrLen) fields)
      | none => some fields
  | none => some fields

def avpLoop (pBuf : Nat → UInt8) (dDataLen : Int) :
    Nat → Nat → DiameterInfo → Option (Int × DiameterInfo)
  | 0, _, _ => none
  | fuel + 1, offset, info =>
      if offset < info.stDiameterHdr.uiLength ∧ (offset : Int) < dDataLen then
        let (avpHdr, nextOffset) := analyzeAvpHeader pBuf offset info.stAVPHdr
        let info := { info with stAVPHdr := avpHdr }
        if nextOffset = 0 then some (offset, info)
        else do
          let offset := offset + padded avpHdr.uiLength
          let fields ← avpCase pBuf avpHdr info.fields
          let info := { info with fields := fields }
          if avpHdr.uiAvpCode = AvpCode.EXCEPTIONAL_CASE.code then some (offset, info)
          else avpLoop pBuf dDataLen fuel offset info
      else some (offset, info)

def analyzeDiameter (pBuf : Nat → UInt8) (dDataLen : Int) (info : DiameterInfo) :
    Option (Int × DiameterInfo) :=
  let ucVersion := (pBuf 0).toNat
  if ucVersion ≠ 1 then
    some (-1, { info with stDiameterHdr := { info.stDiameterHdr with ucVersion := ucVersion } })
  else
    let flags := (pBuf 4).toNat
    let hdr : DiameterHdr :=
      { ucVersion := ucVersion
        uiLength := ntohl pBuf 0 % 2 ^ 24
        bRequest := flags >>> 7
        bProxiable := flags >>> 6
        bError := flags >>> 5
        bTrans := info.stDiameterHdr.bTrans
        reserved := flags >>> 4
        uiCmdCode := ntohl pBuf 4 % 2 ^ 24
        uiAppID := ntohl pBuf 8
        uiHopByHopID := ntohl pBuf 12
        uiEndToEndID := ntohl pBuf 16 }
    let info := { info with stDiameterHdr := hdr }
    if hdr.uiLength ≤ DIAMETER_HDR_SIZE then some (-2, info)
    else avpLoop pBuf dDataLen (hdr.uiLength + 1) 20 info

end Upst.Diameter
