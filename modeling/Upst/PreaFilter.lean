import Upst.Tcp

/-!
How `PRE_A` finds the direction and the service of a packet in the table of the registered
servers. An entry with port 0 stands for every port of its address. For SCTP both ends are
registered, each with the direction it is a peer of.
-/

namespace Upst.PreaFilter

open Tcp (Rtx Packet TcpSessKey makeTCPHashKey)

set_option autoImplicit false

section Lpre

structure TagKeyLpreaConf where
  SIP : Nat
  SPort : Nat
  RpPiFlag : Nat
  deriving DecidableEq, Repr

structure LpreaConf where
  key : TagKeyLpreaConf
  L4Code : Nat
  AppCode : Nat
  L7Code : Nat
  SysType : Nat
  deriving DecidableEq, Repr

structure Codes where
  usL4Code : Nat
  usL7Code : Nat
  usAppCode : Nat
  usRpPiFlag : Nat
  usSysType : Nat
  deriving DecidableEq, Repr

structure InfoEth extends Packet where
  codes : Codes

/-- The data of an entry is the whole record, its key included. -/
def LpreaConf.codes (conf : LpreaConf) : Codes where
  usL4Code := conf.L4Code
  usL7Code := conf.L7Code
  usAppCode := conf.AppCode
  usRpPiFlag := conf.key.RpPiFlag
  usSysType := conf.SysType

def Codes.zero : Codes where
  usL4Code := 0
  usL7Code := 0
  usAppCode := 0
  usRpPiFlag := 0
  usSysType := 0

def hashoFind (LPREAHASH : List LpreaConf) (key : TagKeyLpreaConf) : Option LpreaConf :=
  LPREAHASH.find? (·.key = key)

def srcKey (dSysTypeInfo : Nat) (info : InfoEth) : TagKeyLpreaConf where
  SIP := info.dwSrcIP
  SPort := info.wSrcPort
  RpPiFlag := dSysTypeInfo

def destKey (dSysTypeInfo : Nat) (info : InfoEth) : TagKeyLpreaConf where
  SIP := info.dwDestIP
  SPort := info.wDestPort
  RpPiFlag := dSysTypeInfo

/-- The ends whose entries are looked up, with the direction that each gives. -/
def searchKeys (dSysTypeInfo : Nat) (info : InfoEth) : Rtx → List (Rtx × TagKeyLpreaConf)
  | .client => [(.client, destKey dSysTypeInfo info)]
  | .server => [(.server, srcKey dSysTypeInfo info)]
  | .none => [(.server, srcKey dSysTypeInfo info), (.client, destKey dSysTypeInfo info)]

def filterLoop (LPREAHASH : List LpreaConf) (info : InfoEth) :
    List (Rtx × TagKeyLpreaConf) → Option Rtx × InfoEth
  | [] => (none, { info with codes := .zero })
  | (ucRTXType, key) :: rest =>
      match hashoFind LPREAHASH key with
      | none =>
          match hashoFind LPREAHASH { key with SPort := 0 } with
          | some conf => (some ucRTXType, { info with codes := conf.codes })
          | none => filterLoop LPREAHASH info rest
      | some conf => (some ucRTXType, { info with codes := conf.codes })

/-- `FilterPkt`. `none` is its return value -1. -/
def filterPkt (LPREAHASH : List LpreaConf) (dSysTypeInfo : Nat) (info : InfoEth) (ucRtx : Rtx) :
    Option Rtx × InfoEth :=
  filterLoop LPREAHASH info (searchKeys dSysTypeInfo info ucRtx)

end Lpre

section Direction

variable {LPREAHASH : List LpreaConf} {dSysTypeInfo : Nat} {info : InfoEth}

/-- The entry of an end: that of its port, or else that of every port. -/
def entryOf (LPREAHASH : List LpreaConf) (key : TagKeyLpreaConf) : Option LpreaConf :=
  (hashoFind LPREAHASH key).or (hashoFind LPREAHASH { key with SPort := 0 })

theorem filter_loop_cons (ucRTXType : Rtx) (key : TagKeyLpreaConf)
    (rest : List (Rtx × TagKeyLpreaConf)) :
    filterLoop LPREAHASH info ((ucRTXType, key) :: rest) =
      match entryOf LPREAHASH key with
      | some conf => (some ucRTXType, { info with codes := conf.codes })
      | none => filterLoop LPREAHASH info rest := by
  rw [filterLoop, entryOf]
  cases hashoFind LPREAHASH key with
  | some conf => rfl
  | none => cases hashoFind LPREAHASH { key with SPort := 0 } <;> rfl

theorem filter_unknown :
    filterPkt LPREAHASH dSysTypeInfo info .none =
      match entryOf LPREAHASH (srcKey dSysTypeInfo info),
          entryOf LPREAHASH (destKey dSysTypeInfo info) with
      | some conf, _ => (some .server, { info with codes := conf.codes })
      | none, some conf => (some .client, { info with codes := conf.codes })
      | none, none => (none, { info with codes := .zero }) := by
  rw [filterPkt, searchKeys, filter_loop_cons, filter_loop_cons, filterLoop]
  cases entryOf LPREAHASH (srcKey dSysTypeInfo info) with
  | some conf => rfl
  | none => cases entryOf LPREAHASH (destKey dSysTypeInfo info) <;> rfl

/-- The packet with source and destination exchanged. -/
def InfoEth.exchanged (info : InfoEth) : InfoEth :=
  { info with
    dwSrcIP := info.dwDestIP
    dwDestIP := info.dwSrcIP
    wSrcPort := info.wDestPort
    wDestPort := info.wSrcPort }

/-- `A_TCP` takes the direction from the capture header. -/
def InfoEth.sessKey (info : InfoEth) (rtx : Rtx) : TcpSessKey :=
  makeTCPHashKey { info.toPacket with bRtxType := rtx }

/-- What a flow needs of the filter: when a packet is given a direction and codes, the packet of
the other way is given the other direction, the same codes and the key of the same session. -/
def FlowConsistent (LPREAHASH : List LpreaConf) (dSysTypeInfo : Nat) (info : InfoEth) : Prop :=
  ∀ rtx sent, filterPkt LPREAHASH dSysTypeInfo info .none = (some rtx, sent) →
    ∃ back, filterPkt LPREAHASH dSysTypeInfo info.exchanged .none = (some rtx.sub, back) ∧
      back.codes = sent.codes ∧ back.sessKey rtx.sub = sent.sessKey rtx

theorem flow_consistent_iff (LPREAHASH : List LpreaConf) (dSysTypeInfo : Nat) (info : InfoEth) :
    FlowConsistent LPREAHASH dSysTypeInfo info ↔
      ¬ ((entryOf LPREAHASH (srcKey dSysTypeInfo info)).isSome ∧
        (entryOf LPREAHASH (destKey dSysTypeInfo info)).isSome) := by
  have source : srcKey dSysTypeInfo info.exchanged = destKey dSysTypeInfo info := rfl
  have dest : destKey dSysTypeInfo info.exchanged = srcKey dSysTypeInfo info := rfl
  rw [FlowConsistent, filter_unknown, filter_unknown, source, dest]
  cases entryOf LPREAHASH (srcKey dSysTypeInfo info) with
  | none =>
      cases entryOf LPREAHASH (destKey dSysTypeInfo info) with
      | none =>
          refine iff_of_true ?_ (by simp)
          intro rtx sent found
          simp at found
      | some conf =>
          refine iff_of_true ?_ (by simp)
          intro rtx sent found
          obtain ⟨rfl, rfl⟩ : Rtx.client = rtx ∧ { info with codes := conf.codes } = sent := by
            simpa using found
          exact ⟨_, rfl, rfl, rfl⟩
  | some conf =>
      cases entryOf LPREAHASH (destKey dSysTypeInfo info) with
      | none =>
          refine iff_of_true ?_ (by simp)
          intro rtx sent found
          obtain ⟨rfl, rfl⟩ : Rtx.server = rtx ∧ { info with codes := conf.codes } = sent := by
            simpa using found
          exact ⟨_, rfl, rfl, rfl⟩
      | some other =>
          -- either way the source is found first, and the packet counts as from the server
          refine iff_of_false ?_ (by simp)
          intro consistent
          obtain ⟨back, found, -⟩ := consistent .server _ rfl
          simp [Rtx.sub] at found

def pdsn (SIP : Nat) (SPort : Nat) : LpreaConf where
  key :=
    { SIP := SIP
      SPort := SPort
      RpPiFlag := 1 }
  L4Code := 3100
  AppCode := 7
  L7Code := 1
  SysType := 10

def betweenServers : InfoEth where
  bRtxType := .none
  dwSrcIP := 0x0A000001
  dwDestIP := 0x0A000002
  wSrcPort := 80
  wDestPort := 4000
  nControlType := 0
  seq := 0
  ack := 0
  wDataLen := 0
  codes := .zero

theorem both_ends_registered :
    ¬ ∀ (LPREAHASH : List LpreaConf) (dSysTypeInfo : Nat) (info : InfoEth),
        FlowConsistent LPREAHASH dSysTypeInfo info := by
  intro consistent
  obtain ⟨back, found, -⟩ := consistent [pdsn 0x0A000001 80, pdsn 0x0A000002 0] 1 betweenServers
    .server _ rfl
  have direction : some Rtx.server = some Rtx.client := congrArg Prod.fst found
  exact absurd direction (by decide)

end Direction

section Sctp

/-- `DIR_UP` and `DIR_DOWN`, the direction of the packets to a registered end. -/
inductive Dir where
  | up
  | down
  deriving DecidableEq, Repr

structure LpreaSctp where
  SIP : Nat
  SysType : Nat
  direction : Dir
  GroupID : Nat
  deriving DecidableEq, Repr

def sctpFind (LPREASCTP : List LpreaSctp) (SIP : Nat) : Option LpreaSctp :=
  LPREASCTP.find? (·.SIP = SIP)

def filterPktSCTP (LPREASCTP : List LpreaSctp) (info : InfoEth) : Except Int InfoEth :=
  match sctpFind LPREASCTP info.dwSrcIP with
  | none => .error (-2)
  | some source =>
      match sctpFind LPREASCTP info.dwDestIP with
      | none => .error (-1)
      | some dest =>
          if source.direction = dest.direction then .error (-1)
          else
            .ok { info with
              seq := source.GroupID
              ack := dest.GroupID
              codes := { info.codes with usSysType := source.SysType }
              bRtxType := if source.direction = .down then .client else .server }

end Sctp

end Upst.PreaFilter
