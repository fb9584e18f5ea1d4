import Upst.InternetChecksum
import Upst.Network

/-!
`Analyze_Eth` and the analysis of IP, TCP and UDP below it. `pBuf` is what stands in memory from the
first byte of the frame on, behind the frame as well; the machine is a little-endian one, for the bit
fields and the words of the checksum. Of the analysis of ICMP and GRE, which write `stICMP`, `stGRE` and
`pAppData` only, the result is all that counts here.
-/

namespace Upst.AnalyzeEth

open Bytes Network InternetChecksum

set_option autoImplicit false

section Information

structure InfoMac where
  strDestMACAddr : List UInt8
  strSrcMACAddr : List UInt8
  deriving DecidableEq, Repr

structure Info802_3 where
  b802_3 : Bool
  DSAP : UInt8
  SSAP : UInt8
  deriving DecidableEq, Repr

structure InfoIp where
  bIPHeader : Bool
  bChecksumErr : Bool
  wTotalLength : Nat
  wIPHeaderLen : Nat
  IPVersion : Nat
  TOS : UInt8
  Timelive : UInt8
  ucProtocol : Nat
  ucOption : Nat
  usIdent : Nat
  usIPFrag : Nat
  dwSrcIP : Nat
  dwDestIP : Nat
  deriving DecidableEq, Repr

structure InfoUdpTcp where
  dUDPTCP : Nat
  bChecksumErr : Bool
  nControlType : UInt8
  wDataLen : Nat
  wSrcPort : Nat
  wDestPort : Nat
  seq : Nat
  ack : Nat
  window : Nat
  mss : Nat
  wHeaderLen : Nat
  deriving DecidableEq, Repr

structure InfoEth where
  wDataLength : Nat
  wFrameType : Nat
  dPaddingSize : Int
  stMAC : InfoMac
  st802_3 : Info802_3
  stIP : InfoIp
  stUDPTCP : InfoUdpTcp
  offset : Nat
  deriving DecidableEq, Repr

/-- As the caller hands it over, with all bytes zero. -/
def InfoEth.cleared : InfoEth where
  wDataLength := 0
  wFrameType := 0
  dPaddingSize := 0
  stMAC := ⟨List.replicate 6 0, List.replicate 6 0⟩
  st802_3 := ⟨false, 0, 0⟩
  stIP := ⟨false, false, 0, 0, 0, 0, 0, 0, 0, 0, 0, 0, 0⟩
  stUDPTCP := ⟨0, false, 0, 0, 0, 0, 0, 0, 0, 0, 0⟩
  offset := 0

end Information

section Transport

def ERR_360101 : Int := -360101
def ERR_370102 : Int := -370102

/-- The options whose length alone is looked at. -/
def skippedKinds : List Nat := [3, 4, 5, 6, 7, 8, 9, 10, 11, 12, 13, 14, 15, 18, 19]

/-- The segment size after the options from `i` on. -/
def AnalyzeIP_TCP_Option (pBuf : Nat → UInt8) (pucBuffer wSize i mss : Nat) : Nat :=
  if i < wSize then
    let kind := (pBuf (pucBuffer + i)).toNat
    let len := (pBuf (pucBuffer + i + 1)).toNat
    if kind = 1 then AnalyzeIP_TCP_Option pBuf pucBuffer wSize (i + 1) mss
    else if kind = 2 then
      if i + 4 > wSize ∨ len ≠ 4 then mss
      else AnalyzeIP_TCP_Option pBuf pucBuffer wSize (i + 4) (ntohs pBuf (pucBuffer + i + 2))
    else if kind ∈ skippedKinds then
      if i + 2 > wSize ∨ len ≤ 0 then mss
      else AnalyzeIP_TCP_Option pBuf pucBuffer wSize (i + len) mss
    else mss
  else mss
termination_by wSize - i

/-- The header length that the segment says. -/
def tcpHeaderLen (pBuf : Nat → UInt8) (place : Nat) : Nat := ((pBuf (place + 12)).toNat / 16) <<< 2

/-- The pseudo header and the segment. -/
def summed (pBuf : Nat → UInt8) (place wSize : Nat) (pseudo : List UInt8) : List UInt8 :=
  pseudo ++ readBytes pBuf place wSize

def AnalyzeIP_TCP (pBuf : Nat → UInt8) (place wSize : Nat) (pseudo : List UInt8) (info : InfoEth) :
    Int × InfoEth :=
  let wTCPHeaderLen := tcpHeaderLen pBuf place
  if Checksum .little (summed pBuf place wSize pseudo) ≠ some 0 then
    (0, { info with stUDPTCP := { info.stUDPTCP with dUDPTCP := 2, bChecksumErr := true } })
  else
    let udptcp := { info.stUDPTCP with
      dUDPTCP := 2
      nControlType := pBuf (place + 13)
      wSrcPort := ntohs pBuf place
      wDestPort := ntohs pBuf (place + 2) }
    if wSize < wTCPHeaderLen then (ERR_370102, { info with stUDPTCP := udptcp })
    else
      let wTCPDataLen := wSize - wTCPHeaderLen
      (1, { info with
        stUDPTCP := { udptcp with
          seq := ntohl pBuf (place + 4)
          ack := ntohl pBuf (place + 8)
          window := ntohs pBuf (place + 14)
          mss := if wTCPHeaderLen > 20
            then AnalyzeIP_TCP_Option pBuf (place + 20) (wTCPHeaderLen - 20) 0 0 else 0
          wHeaderLen := wTCPHeaderLen
          wDataLen := wTCPDataLen }
        wDataLength := wTCPDataLen
        offset := if wTCPDataLen ≠ 0 then place + wTCPHeaderLen else info.offset })

def wUDPHeaderLen : Nat := 8

def Analyze_IP_UDP (pBuf : Nat → UInt8) (place wSize : Nat) (pseudo : List UInt8) (info : InfoEth) :
    Int × InfoEth :=
  let udptcp := { info.stUDPTCP with
    dUDPTCP := 1
    wSrcPort := ntohs pBuf place
    wDestPort := ntohs pBuf (place + 2) }
  let info := { info with offset := place + wUDPHeaderLen, stUDPTCP := udptcp }
  if wSize < wUDPHeaderLen then (ERR_360101, info)
  else
    let wUDPDataLen := wSize - wUDPHeaderLen
    if (pBuf (place + 6) ≠ 0 ∨ pBuf (place + 7) ≠ 0) ∧
        Checksum .little (summed pBuf place wSize pseudo) ≠ some 0 then
      (0, { info with stUDPTCP := { udptcp with wDataLen := wUDPDataLen, bChecksumErr := true } })
    else
      (1, { info with
        stUDPTCP := { udptcp with
          bChecksumErr := false
          wHeaderLen := wUDPHeaderLen
          wDataLen := wUDPDataLen }
        wDataLength := wUDPDataLen })

end Transport

section Others

def ERR_GRE_HeaderLenError : Int := -350101
def ERR_GRE_DataLenError : Int := -350102
def ICMP3_HDR_LEN : Nat := 8
def ICMP3_ATT_IPDATA_LEN : Nat := 8

def icmpResult (pBuf : Nat → UInt8) (place wSize : Nat) : Int :=
  let wIPHeaderLen := ((pBuf (place + 8)).toNat % 16) <<< 2
  if pBuf place ≠ 3 then 0
  else if Checksum .little (readBytes pBuf place wSize) ≠ some 0 then 0
  else if wSize < ICMP3_HDR_LEN + wIPHeaderLen + ICMP3_ATT_IPDATA_LEN then -1
  else 1

/-- Four octets for each of the bits of the key, the sequence number and the acknowledgement. -/
def greHeaderSize (pBuf : Nat → UInt8) (place : Nat) : Nat :=
  4 + (if pBuf place &&& 0x20 ≠ 0 then 4 else 0) + (if pBuf place &&& 0x10 ≠ 0 then 4 else 0) +
    (if pBuf (place + 1) &&& 0x80 ≠ 0 then 4 else 0)

def greResult (pBuf : Nat → UInt8) (place wSize : Nat) : Int :=
  if greHeaderSize pBuf place > wSize then ERR_GRE_HeaderLenError
  else if ((wSize - greHeaderSize pBuf place : Nat) : Int).bmod (2 ^ 16) < 0 then ERR_GRE_DataLenError
  else 1

end Others

section Datagram

def ERR_300101 : Int := -300101
def ERR_300102 : Int := -300102
def ERR_300103 : Int := -300103

def ipVersion (pBuf : Nat → UInt8) (place : Nat) : Nat := (pBuf place).toNat / 16

def ipHeaderLen (pBuf : Nat → UInt8) (place : Nat) : Nat := ((pBuf place).toNat % 16) <<< 2

def ipTotalLen (pBuf : Nat → UInt8) (place : Nat) : Nat := ntohs pBuf (place + 2)

def ipProtocol (pBuf : Nat → UInt8) (place : Nat) : Nat := (pBuf (place + 9)).toNat

/-- The fields that are set before the checksum of the header is looked at. -/
def headerFields (pBuf : Nat → UInt8) (place : Nat) (stIP : InfoIp) : InfoIp :=
  { stIP with
    wTotalLength := ipTotalLen pBuf place
    bIPHeader := true
    Timelive := pBuf (place + 8)
    TOS := pBuf (place + 1)
    IPVersion := ipVersion pBuf place
    wIPHeaderLen := ipHeaderLen pBuf place
    ucProtocol := ipProtocol pBuf place }

/-- The fields that are set behind it; the option is the low five bits of the first one. -/
def checkedFields (pBuf : Nat → UInt8) (place : Nat) (stIP : InfoIp) : InfoIp :=
  { headerFields pBuf place stIP with
    dwSrcIP := ntohl pBuf (place + 12)
    dwDestIP := ntohl pBuf (place + 16)
    ucOption := if ipHeaderLen pBuf place > 20 then (pBuf (place + 20)).toNat % 32 else stIP.ucOption
    usIdent := ntohs pBuf (place + 4)
    usIPFrag := ntohs pBuf (place + 6) }

def pseudoHeader (pBuf : Nat → UInt8) (place : Nat) : List UInt8 :=
  readBytes pBuf (place + 12) 8 ++ [0, pBuf (place + 9)] ++
    toBe 2 (ipTotalLen pBuf place - ipHeaderLen pBuf place)

def Analyze_IP (pBuf : Nat → UInt8) (place wSize : Nat) (info : InfoEth) : Int × InfoEth :=
  if ipVersion pBuf place ≠ 4 then (ERR_300103, info)
  else if wSize < ipTotalLen pBuf place then (ERR_300101, info)
  else if ipHeaderLen pBuf place < 20 ∨ ipTotalLen pBuf place < ipHeaderLen pBuf place then
    (ERR_300102, { info with stIP := { info.stIP with wTotalLength := ipTotalLen pBuf place } })
  else if Checksum .little (readBytes pBuf place (ipHeaderLen pBuf place)) ≠ some 0 then
    (0, { info with stIP := { headerFields pBuf place info.stIP with bChecksumErr := true } })
  else
    let info := { info with stIP := checkedFields pBuf place info.stIP }
    let wIPDataLen := ipTotalLen pBuf place - ipHeaderLen pBuf place
    let data := place + ipHeaderLen pBuf place
    if ipProtocol pBuf place = 1 then (icmpResult pBuf data wIPDataLen, info)
    else if ipProtocol pBuf place = 4 then Analyze_IP pBuf data wIPDataLen info
    else if ipProtocol pBuf place = 6 then
      AnalyzeIP_TCP pBuf data wIPDataLen (pseudoHeader pBuf place) info
    else if ipProtocol pBuf place = 17 then
      if info.stIP.usIPFrag &&& 0x1FFF = 0 then
        Analyze_IP_UDP pBuf data wIPDataLen (pseudoHeader pBuf place) info
      else (0, info)
    else if ipProtocol pBuf place = 47 then (greResult pBuf data wIPDataLen, info)
    else (0, info)
termination_by wSize
decreasing_by omega

end Datagram

section Frame

def ERR_200101 : Int := -200101
def ERR_200102 : Int := -200102
def MIN_ETHERNET_SIZE : Nat := 54
def MAX_ETHERNET_SIZE : Nat := 1514
def PROTO_IP : Nat := 0x0800

/-- `sizeof(ETHERNET_HDR)-1`. -/
def ETHERNET_HDR : Nat := 14

def frameType (pBuf : Nat → UInt8) : Nat := ntohs pBuf 12

def Analyze_Eth (pBuf : Nat → UInt8) (wSize : Nat) (info : InfoEth) : Int × InfoEth :=
  if wSize < MIN_ETHERNET_SIZE ∨ wSize > MAX_ETHERNET_SIZE then (ERR_200101, info)
  else
    let info := { info with
      stMAC := ⟨readBytes pBuf 0 6, readBytes pBuf 6 6⟩
      wDataLength := 0
      wFrameType := frameType pBuf }
    if frameType pBuf ≤ 0x05DC then
      let info := { info with dPaddingSize := (wSize : Int) - ETHERNET_HDR - frameType pBuf }
      if info.dPaddingSize < 0 then (ERR_200102, info)
      else
        let info := { info with st802_3 := ⟨true, pBuf 14, pBuf 15⟩ }
        if pBuf 14 = 0x42 ∧ pBuf 15 = 0x42 then (1, info)
        else if pBuf 14 = 0x06 ∧ pBuf 15 = 0x06 then
          Analyze_IP pBuf (ETHERNET_HDR + 2) (wSize - ETHERNET_HDR - 2) info
        else (1, info)
    else if frameType pBuf = PROTO_IP then Analyze_IP pBuf ETHERNET_HDR (wSize - ETHERNET_HDR) info
    else (1, info)

end Frame

end Upst.AnalyzeEth
