import Upst.Network
import Upst.Fields

/-!
The decoder of RADIUS attributes. `st_ACCInfo` is kept by the fields that the attributes set, with
the flag of each. The numbers are the unsigned images. Log output takes no part.
-/

namespace Upst.Radius

open Bytes Network
open Fields (Record)

set_option autoImplicit false

inductive NumField where
  | uiNASIP | dNASPort | dSvcType | uiFramedProto | uiFramedIP | uiFramedRout | uiFramedMTU
  | uiFramedComp | uiSessTimeout | uiIdleTimeout | dAcctStatType | uiAcctDelayTime | dAcctInOct
  | dAcctOutOct | llAcctSessID | dAcctAuth | uiAcctSessTime | dAcctInPkt | dAcctOutPkt
  | dAcctTermCause | uiEventTime | dNASPortType | dAcctInterim
  | uiHAIP | uiPCFIP | dUserID | dFwdFCHMux | dRevFCHMux | dSvcOpt | dFwdTrafType | dRevTrafType
  | dFCHSize | dFwdFCHRC | dRevFCHRC | dIPTech | dCompTunnelInd | dReleaseInd | dBadPPPFrameCnt
  | dNumAct | dTermSDBOctCnt | dOrgSDBOctCnt | dTermNumSDB | dOrgNumSDB | dIPQoS | dAirQoS
  | dRPConnectID | dRcvHDLCOct | llCorrelID | dInMIPSigCnt | dOutMIPSigCnt | uiSessContinue
  | uiActTime | dDCCHSize | uiBeginnigSess | dAlwaysOn | uiC23BIT | uiHBIT | dPBIT | dCBIT
  deriving DecidableEq, Repr

inductive TextField where
  | szUserName | szUserPasswd | szCHAPPassed | szMIN | szNASPortID | szBSID | szESN | szSubnet
  deriving DecidableEq, Repr

def MAX_USERNAME_SIZE : Nat := 65
def MAX_USERPWD_SIZE : Nat := 17
def MAX_CHAPPWD_SIZE : Nat := 18
def MAX_MIN_SIZE : Nat := 16
def MAX_PORT_SIZE : Nat := 24
def MAX_BSID_SIZE : Nat := 12
def MAX_ESN_SIZE : Nat := 9
def MAX_SUBNET_SIZE : Nat := 37

/-- The size of the array. -/
def TextField.size : TextField → Nat
  | .szUserName => MAX_USERNAME_SIZE
  | .szUserPasswd => MAX_USERPWD_SIZE
  | .szCHAPPassed => MAX_CHAPPWD_SIZE
  | .szMIN => MAX_MIN_SIZE
  | .szNASPortID => MAX_PORT_SIZE
  | .szBSID => MAX_BSID_SIZE
  | .szESN => MAX_ESN_SIZE
  | .szSubnet => MAX_SUBNET_SIZE + 1

abbrev Target := Fields.Target NumField TextField

/-- `flag` is that of the field, `ucNASIPF` for `uiNASIP`. -/
structure AccInfo where
  uiRADIUSLen : Nat
  fields : Record NumField TextField
  flag : Target → Bool

/-- What a case asks of the length and stores: a number of four or of eight octets, a text with a
length from `least` to below `most`, a text of one size with or without a terminator, the password,
or the text with one of the bits. -/
inductive Rule where
  | word (field : NumField)
  | long (field : NumField)
  | text (field : TextField) (least most : Nat)
  | whole (field : TextField) (size : Nat)
  | subnet
  | passwd
  | bits
  deriving DecidableEq, Repr

/-- The cases of the outer switch apart from `26`. -/
def attribRule : Nat → Option Rule
  | 1 => some (.text .szUserName 3 (MAX_USERNAME_SIZE + 2))
  | 2 => some .passwd
  | 3 => some (.whole .szCHAPPassed (MAX_CHAPPWD_SIZE - 1))
  | 4 => some (.word .uiNASIP)
  | 5 => some (.word .dNASPort)
  | 6 => some (.word .dSvcType)
  | 7 => some (.word .uiFramedProto)
  | 8 => some (.word .uiFramedIP)
  | 10 => some (.word .uiFramedRout)
  | 12 => some (.word .uiFramedMTU)
  | 13 => some (.word .uiFramedComp)
  | 27 => some (.word .uiSessTimeout)
  | 28 => some (.word .uiIdleTimeout)
  | 31 => some (.text .szMIN 0 (MAX_MIN_SIZE + 2))
  | 40 => some (.word .dAcctStatType)
  | 41 => some (.word .uiAcctDelayTime)
  | 42 => some (.word .dAcctInOct)
  | 43 => some (.word .dAcctOutOct)
  | 44 => some (.long .llAcctSessID)
  | 45 => some (.word .dAcctAuth)
  | 46 => some (.word .uiAcctSessTime)
  | 47 => some (.word .dAcctInPkt)
  | 48 => some (.word .dAcctOutPkt)
  | 49 => some (.word .dAcctTermCause)
  | 55 => some (.word .uiEventTime)
  | 61 => some (.word .dNASPortType)
  | 85 => some (.word .dAcctInterim)
  | 87 => some (.text .szNASPortID 3 (MAX_PORT_SIZE + 2))
  | _ => none

/-- The cases of the inner switch. -/
def vendorRule : Nat → Option Rule
  | 7 => some (.word .uiHAIP)
  | 9 => some (.word .uiPCFIP)
  | 10 => some (.whole .szBSID 12)
  | 11 => some (.word .dUserID)
  | 12 => some (.word .dFwdFCHMux)
  | 13 => some (.word .dRevFCHMux)
  | 16 => some (.word .dSvcOpt)
  | 17 => some (.word .dFwdTrafType)
  | 18 => some (.word .dRevTrafType)
  | 19 => some (.word .dFCHSize)
  | 20 => some (.word .dFwdFCHRC)
  | 21 => some (.word .dRevFCHRC)
  | 22 => some (.word .dIPTech)
  | 23 => some (.word .dCompTunnelInd)
  | 24 => some (.word .dReleaseInd)
  | 25 => some (.word .dBadPPPFrameCnt)
  | 30 => some (.word .dNumAct)
  | 31 => some (.word .dTermSDBOctCnt)
  | 32 => some (.word .dOrgSDBOctCnt)
  | 33 => some (.word .dTermNumSDB)
  | 34 => some (.word .dOrgNumSDB)
  | 36 => some (.word .dIPQoS)
  | 39 => some (.word .dAirQoS)
  | 41 => some (.word .dRPConnectID)
  | 43 => some (.word .dRcvHDLCOct)
  | 44 => some (.long .llCorrelID)
  | 46 => some (.word .dInMIPSigCnt)
  | 47 => some (.word .dOutMIPSigCnt)
  | 48 => some (.word .uiSessContinue)
  | 49 => some (.word .uiActTime)
  | 50 => some (.word .dDCCHSize)
  | 51 => some (.word .uiBeginnigSess)
  | 52 => some (.text .szESN 0 (MAX_ESN_SIZE + 2))
  | 78 => some (.word .dAlwaysOn)
  | 1 => some .bits
  | 108 => some .subnet
  | _ => none

section Text

def isSpace (byte : UInt8) : Bool := byte = 32 ∨ (9 ≤ byte ∧ byte ≤ 13)

def isDigit (byte : UInt8) : Bool := 48 ≤ byte ∧ byte ≤ 57

def digitsValue (digits : List UInt8) : Nat :=
  digits.foldl (fun value digit => value * 10 + (digit.toNat - 48)) 0

/-- `atoi`, which reads a `long` and cuts it to an `int`. -/
def atoi (s : List UInt8) : Nat :=
  match s.dropWhile isSpace with
  | 45 :: digits =>
      (-(Int.ofNat (min (digitsValue (digits.takeWhile isDigit)) (2 ^ 63)))) % 2 ^ 32 |>.toNat
  | 43 :: digits => min (digitsValue (digits.takeWhile isDigit)) (2 ^ 63 - 1) % 2 ^ 32
  | digits => min (digitsValue (digits.takeWhile isDigit)) (2 ^ 63 - 1) % 2 ^ 32

def toLower (byte : UInt8) : UInt8 := if 65 ≤ byte ∧ byte ≤ 90 then byte + 32 else byte

/-- `strncasecmp` with the length of the second text finds no difference. -/
def startsAs (s front : List UInt8) : Bool :=
  (s.take front.length).map toLower = front.map toLower

/-- `vci_c23=`, `hbit=`, `pbit=` and `Cbit=`, in the order in which they are tried. -/
def bitNames : List (List UInt8 × NumField) :=
  [([0x76, 0x63, 0x69, 0x5F, 0x63, 0x32, 0x33, 0x3D], .uiC23BIT),
    ([0x68, 0x62, 0x69, 0x74, 0x3D], .uiHBIT),
    ([0x70, 0x62, 0x69, 0x74, 0x3D], .dPBIT),
    ([0x43, 0x62, 0x69, 0x74, 0x3D], .dCBIT)]

/-- The bit that `szC23BIT` gives, and its value. -/
def bitOf (szC23BIT : List UInt8) : Option (NumField × Nat) :=
  let s := szC23BIT.takeWhile (· ≠ 0)
  (bitNames.find? fun name => startsAs s name.1).map fun name =>
    (name.2, atoi (s.drop name.1.length))

end Text

section Store

def AccInfo.setNum (info : AccInfo) (field : NumField) (value : Nat) : AccInfo :=
  { info with
    fields := info.fields.setNum field value
    flag := Function.update info.flag (.num field) true }

/-- `tail` is the terminator, where there is one. -/
def AccInfo.setText (info : AccInfo) (field : TextField) (bytes tail : List UInt8) : AccInfo :=
  { info with
    fields := info.fields.setText field
      (bytes ++ tail ++ (info.fields.text field).drop (bytes ++ tail).length)
    flag := Function.update info.flag (.text field) true }

/-- `szNASPortID` stands behind `szBSID`, which has no room for a terminator. -/
def AccInfo.clearNASPortID (info : AccInfo) : AccInfo :=
  { info with
    fields := info.fields.setText .szNASPortID (0 :: (info.fields.text .szNASPortID).drop 1) }

/-- How many octets a case copies, if it takes the length. `usLength - 2` is an `int`, but
`sizeof(szC23BIT)` is unsigned, so that a length below 2 counts as too long there. -/
def Rule.copied (usLength : Nat) : Rule → Option Nat
  | word _ => if usLength = 6 then some 4 else none
  | long _ => if usLength = 10 then some 8 else none
  | text _ least most => if least ≤ usLength ∧ usLength < most then some (usLength - 2) else none
  | whole _ size => if usLength = size + 2 then some size else none
  | subnet => if usLength = MAX_SUBNET_SIZE + 2 then some MAX_SUBNET_SIZE else none
  | passwd => some (min (usLength - 2) (MAX_USERPWD_SIZE - 1))
  | bits => some (if usLength < 2 then 63 else min (usLength - 2) 63)

/-- A negative length goes to `memcpy`. -/
def Rule.negative (usLength : Nat) : Rule → Prop
  | text _ least _ => least ≤ usLength ∧ usLength < 2
  | passwd => usLength < 2
  | _ => False

instance (usLength : Nat) : (rule : Rule) → Decidable (rule.negative usLength)
  | .text _ _ _ => inferInstanceAs (Decidable (_ ∧ _))
  | .passwd => inferInstanceAs (Decidable (_ < _))
  | .word _ | .long _ | .whole _ _ | .subnet | .bits => inferInstanceAs (Decidable False)

def AccInfo.store (info : AccInfo) (bytes : List UInt8) : Rule → AccInfo
  | .word field | .long field => info.setNum field (fromBe bytes)
  | .text field _ _ => info.setText field bytes [0]
  | .whole .szBSID _ => (info.setText .szBSID bytes []).clearNASPortID
  | .whole field _ => info.setText field bytes [0]
  | .subnet => info.setText .szSubnet bytes []
  | .passwd => info.setText .szUserPasswd bytes [0]
  | .bits =>
      match bitOf bytes with
      | some (field, value) => info.setNum field value
      | none => info

/-- A case at an attribute or a sub-attribute at `place`. -/
def Rule.perform (pBuf : Nat → UInt8) (place : Nat) (info : AccInfo) (rule : Rule) :
    Option AccInfo :=
  let usLength := (pBuf (place + 1)).toNat
  if rule.negative usLength then none
  else
    match rule.copied usLength with
    | some count => some (info.store (readBytes pBuf (place + 2) count) rule)
    | none => some info

def attribCase (pBuf : Nat → UInt8) (dOffset : Nat) (info : AccInfo) : Option AccInfo :=
  if (pBuf dOffset).toNat = 26 then
    match vendorRule (pBuf (dOffset + 6)).toNat with
    | some rule => rule.perform pBuf (dOffset + 6) info
    | none => some info
  else
    match attribRule (pBuf dOffset).toNat with
    | some rule => rule.perform pBuf dOffset info
    | none => some info

def attribLoop (pBuf : Nat → UInt8) (usDataLen : Nat) :
    Nat → Nat → AccInfo → Option (Int × AccInfo)
  | 0, _, _ => none
  | fuel + 1, dOffset, info =>
      if dOffset < usDataLen then do
        let info ← attribCase pBuf dOffset info
        if (pBuf (dOffset + 1)).toNat = 0 then some (-1, info)
        else attribLoop pBuf usDataLen fuel (dOffset + (pBuf (dOffset + 1)).toNat) info
      else some (1, info)

def analyzeRadiusAttrib (pBuf : Nat → UInt8) (usDataLen : Nat) (info : AccInfo) :
    Option (Int × AccInfo) :=
  attribLoop pBuf usDataLen (usDataLen + 1) 0 { info with uiRADIUSLen := usDataLen }

end Store

end Upst.Radius
