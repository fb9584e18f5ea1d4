import Upst.Guarded

/-!
The walk over the extensions of an A11 message. `message` is what stands behind the fixed part, its
`wSize` bytes and no more, and the arrays of `INFO_A11` have the sizes of their declarations: a read or
a write outside has no result. A handler is given the place of its extension and the length that the
extension says.
-/

namespace Upst.A11

open Bytes Network Guarded

set_option autoImplicit false

def MAX_FLOW_ID : Nat := 15
def MAX_GRE_ENTRY : Nat := 6
def ERR_Invalid_Length : Int := -11

/-- The fields of `INFO_A11` that the handlers write. -/
structure A11Info where
  dwKey : Nat
  dwServiceOption : Nat
  szMDN : Block UInt8 20
  ucESN : Block UInt8 8
  dwForwardMux : Nat
  dwReverseMux : Nat
  dwUpdateReason : Nat
  ucAirlinkType : Nat
  ucApplicationType : Nat
  szSublink : Block UInt8 37
  FFlowID : Block UInt8 MAX_FLOW_ID
  FFlowIDCnt : Nat
  RFlowID : Block UInt8 MAX_FLOW_ID
  RFlowIDCnt : Nat
  AlwaysOn : Nat
  ucKeyEntryCnt : Nat
  dwKeyEntry : Block Nat MAX_GRE_ENTRY

section SessionSpecific

/-- A digit of `%x`. -/
def hexDigit (value : Nat) : UInt8 :=
  if value < 10 then UInt8.ofNat (48 + value) else UInt8.ofNat (87 + value)

def BCD2 (ucData : Nat) : Nat := (ucData <<< 4 &&& 0xf0) ||| (ucData >>> 4 &&& 0x0f)

/-- `%02x`. -/
def hexPair (value : Nat) : List UInt8 := [hexDigit (value / 16), hexDigit (value % 16)]

/-- The octets of the identity behind the first one, from `i` on. -/
def identityLoop (message : List UInt8) (identity : Nat) : Nat → Nat → List UInt8 → Option (List UInt8)
  | 0, _, szMsg => some szMsg
  | count + 1, i, szMsg =>
      (numberAt message (identity + i) 1).bind fun octet =>
        identityLoop message identity count (i + 1) (szMsg ++ hexPair (BCD2 octet))

/-- The last `f` is taken off. -/
def withoutFiller (szMsg : List UInt8) : List UInt8 :=
  if szMsg.getLast? = some 102 then szMsg.dropLast else szMsg

def Analyze_A11_SSE (message : List UInt8) (place wSize : Nat) (info : A11Info) :
    Option (Int × A11Info) := do
  let key ← numberAt message (place + 4) 4
  let first ← numberAt message (place + 15) 1
  let mnidLength ← numberAt message (place + 14) 1
  if mnidLength < 1 ∨ mnidLength > wSize then some (-1, { info with dwKey := key })
  else do
    let szMsg ← identityLoop message (place + 15) (mnidLength - 1) 1 [hexDigit (first >>> 4 &&& 0x0f)]
    let szMDN ← info.szMDN.copy 0 (withoutFiller szMsg ++ [0])
    some (1, { info with dwKey := key, szMDN := szMDN })

end SessionSpecific

section Critical

/-- `ucAirlinkType |=`. -/
def airlink (dwType : Nat) : Nat :=
  if dwType = 1 then 0x01 else if dwType = 2 then 0x02 else if dwType = 3 then 0x04
  else if dwType = 4 then 0x08 else 0

/-- The switch over the vendor type; `value` is `pData+i+8`. -/
def vendorCase (message : List UInt8) (vendorType value : Nat) (info : A11Info) : Option A11Info :=
  if vendorType = 12 then
    (numberAt message value 4).bind fun number => some { info with dwForwardMux := number }
  else if vendorType = 13 then
    (numberAt message value 4).bind fun number => some { info with dwReverseMux := number }
  else if vendorType = 16 then
    (numberAt message value 4).bind fun number => some { info with dwServiceOption := number }
  else if vendorType = 40 then
    (numberAt message value 4).bind fun number =>
      some { info with ucAirlinkType := info.ucAirlinkType ||| airlink number }
  else if vendorType = 52 then
    (bytesAt message value 8).bind fun bytes => (info.ucESN.copy 0 bytes).bind fun ucESN =>
      some { info with ucESN := ucESN }
  else if vendorType = 108 then
    (bytesAt message value 37).bind fun bytes => (info.szSublink.copy 0 bytes).bind fun szSublink =>
      some { info with szSublink := szSublink }
  else some info

/-- An attribute; no information means an inconsistent length. -/
def vendorAttribute (message : List UInt8) (place : Nat) (info : A11Info) : Option (Option A11Info) :=
  (numberAt message place 1).bind fun type =>
    if type = 26 then
      (numberAt message (place + 1) 1).bind fun length =>
        (numberAt message (place + 7) 1).bind fun vendorLength =>
          if length ≠ vendorLength + 6 then some none
          else
            (numberAt message (place + 6) 1).bind fun vendorType =>
              (vendorCase message vendorType (place + 8) info).bind fun info => some (some info)
    else some (some info)

/-- The attributes from `i` on; where the place of one is outside, so is the read of its type. -/
def attributeLoop (message : List UInt8) (pData dwDataLen i : Nat) (info : A11Info) :
    Option (Int × A11Info) :=
  if i < dwDataLen then
    if _inside : pData + i < message.length then
      (vendorAttribute message (pData + i) info).bind fun taken =>
        match taken with
        | none => some (ERR_Invalid_Length, info)
        | some info =>
            (numberAt message (pData + i + 1) 1).bind fun length =>
              if length ≤ 0 then some (ERR_Invalid_Length, info)
              else attributeLoop message pData dwDataLen (i + length) info
    else none
  else some (1, info)
termination_by message.length - i

def u32Sub (a b : Nat) : Nat := (a + 2 ^ 32 - b) % 2 ^ 32

def Analyze_A11_CVSE (message : List UInt8) (place wSize : Nat) (info : A11Info) :
    Option (Int × A11Info) := do
  let applicationType ← numberAt message (place + 8) 1
  if applicationType = 1 ∨ applicationType = 242 ∨ applicationType = 2 then do
    let subType ← numberAt message (place + 9) 1
    if subType = 1 ∨ subType = 2 then
      let seen := if applicationType = 242 then 0x04 else applicationType
      attributeLoop message (place + 10) (u32Sub wSize 6) 0
        { info with ucApplicationType := info.ucApplicationType ||| seen }
    else some (1, info)
  else some (1, info)

end Critical

section Normal

/-- `sizeof(A11_NVSE_GENTRY)`. -/
def GENTRY_SIZE : Nat := 14

/-- The entry at `place`. -/
def gentry (message : List UInt8) (place : Nat) (info : A11Info) : Option A11Info :=
  (numberAt message (place + 4) 2).bind fun greProtoType =>
    if greProtoType = 0x8881 ∧ info.ucKeyEntryCnt < MAX_GRE_ENTRY then
      (numberAt message (place + 6) 4).bind fun greKey =>
        (info.dwKeyEntry.copy info.ucKeyEntryCnt [greKey]).bind fun dwKeyEntry =>
          some { info with dwKeyEntry := dwKeyEntry, ucKeyEntryCnt := info.ucKeyEntryCnt + 1 }
    else some info

def gentryLoop (message : List UInt8) (pData dwAppLen i : Nat) (info : A11Info) : Option A11Info :=
  if i + GENTRY_SIZE ≤ dwAppLen then
    (gentry message (pData + i + 1) info).bind fun info =>
      gentryLoop message pData dwAppLen (i + GENTRY_SIZE) info
  else some info
termination_by dwAppLen - i
decreasing_by
  rw [GENTRY_SIZE] at *
  omega

/-- The switch over the type and the subtype; `memcpy` to a number writes its low byte. -/
def applicationCase (message : List UInt8) (type subType pData : Nat) (info : A11Info) :
    Option A11Info :=
  if type = 0x07 ∧ subType = 0x01 then
    (numberAt message pData 1).bind fun reason =>
      some { info with dwUpdateReason := info.dwUpdateReason / 256 * 256 + reason }
  else if type = 0x08 ∧ subType = 0x02 then some { info with AlwaysOn := 1 }
  else if type = 0x09 ∧ subType = 0x01 then
    (numberAt message pData 2).bind fun option => some { info with dwServiceOption := option }
  else if type = 0x0C ∧ subType = 0x01 then
    (numberAt message pData 1).bind fun dwAppLen => gentryLoop message pData dwAppLen 0 info
  else if type = 0x0D ∧ subType = 0x01 then
    if info.FFlowIDCnt < MAX_FLOW_ID then
      (bytesAt message (pData + 6) 1).bind fun id => (info.FFlowID.copy info.FFlowIDCnt id).bind fun FFlowID =>
        some { info with FFlowID := FFlowID, FFlowIDCnt := info.FFlowIDCnt + 1 }
    else some info
  else if type = 0x0D ∧ subType = 0x02 then
    if info.RFlowIDCnt < MAX_FLOW_ID then
      (bytesAt message (pData + 5) 1).bind fun id => (info.RFlowID.copy info.RFlowIDCnt id).bind fun RFlowID =>
        some { info with RFlowID := RFlowID, RFlowIDCnt := info.RFlowIDCnt + 1 }
    else some info
  else some info

/-- The types with a switch over the subtype. -/
def applicationTypes : List Nat := [0x07, 0x08, 0x09, 0x0B, 0x0C, 0x0D]

def Analyze_A11_NVSE (message : List UInt8) (place : Nat) (info : A11Info) : Option (Int × A11Info) :=
  (numberAt message (place + 8) 1).bind fun type =>
    if type ∈ applicationTypes then
      (numberAt message (place + 9) 1).bind fun subType =>
        (applicationCase message type subType (place + 10) info).bind fun info => some (1, info)
    else some (1, info)

end Normal

section Walk

/-- The identifiers with a case. -/
inductive Kind where
  | MHAE | CVSE | SSE | RUAE | NVSE
  deriving DecidableEq, Repr

def Kind.ofIdentifier (identifier : Nat) : Option Kind :=
  if identifier = 0x20 then some .MHAE
  else if identifier = 0x26 then some .CVSE
  else if identifier = 0x27 then some .SSE
  else if identifier = 0x28 then some .RUAE
  else if identifier = 0x86 then some .NVSE
  else none

/-- The size of what stands in front of what the length counts. -/
def Kind.headerSize : Kind → Nat
  | CVSE => 4
  | MHAE | SSE | RUAE | NVSE => 2

def Kind.lengthAt (message : List UInt8) (i : Nat) : Kind → Option Nat
  | CVSE => numberAt message (i + 2) 2
  | MHAE | SSE | RUAE | NVSE => numberAt message (i + 1) 1

/-- What the handlers return is not looked at. -/
def Kind.handle (message : List UInt8) (i wLength : Nat) (info : A11Info) : Kind → Option A11Info
  | MHAE | RUAE => some info
  | CVSE => (Analyze_A11_CVSE message i wLength info).map Prod.snd
  | SSE => (Analyze_A11_SSE message i wLength info).map Prod.snd
  | NVSE => (Analyze_A11_NVSE message i info).map Prod.snd

theorem header_size_pos (kind : Kind) : 0 < kind.headerSize := by
  cases kind <;> exact Nat.succ_pos _

def extensionLoop (message : List UInt8) (i : Nat) (info : A11Info) : Option (Int × A11Info) :=
  if i < message.length then
    (numberAt message i 1).bind fun identifier =>
      match Kind.ofIdentifier identifier with
      | none => some (0, info)
      | some kind =>
          (kind.lengthAt message i).bind fun wLength =>
            if wLength > message.length ∨ wLength ≤ 0 then some (ERR_Invalid_Length, info)
            else
              (kind.handle message i wLength info).bind fun info =>
                extensionLoop message (i + (wLength + kind.headerSize)) info
  else some (1, info)
termination_by message.length - i
decreasing_by
  have positive := header_size_pos kind
  omega

def Analyze_A11_Extension (message : List UInt8) (info : A11Info) : Option (Int × A11Info) :=
  extensionLoop message 0 info

end Walk

end Upst.A11
