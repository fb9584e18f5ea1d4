import Upst.Ppp
import Upst.Tcp

/-!
`A_GRE` takes the payloads of GRE packets together to PPP frames. Each direction has a buffer with
the frame so far, a flag state, and a mark that the frame has outgrown the buffer. What a packet
does to the other fields of the session, and what `ProcPPP` does with a frame, take no part in it.
-/

namespace Upst.Gre

open Ppp (PppState)
open Tcp (Rtx)

set_option autoImplicit false

def MAX_PPP_SIZE : Nat := 2000

/-- Conversion to `short`. -/
def s16 (value : Int) : Int := (BitVec.ofInt 16 value).toInt

/-- The data size that `Analyze_IP_GRE` finds. -/
def greDataSize (wSize wGREHeaderSize : Nat) : Option Nat :=
  if wGREHeaderSize > wSize then none
  else
    let dGREDataSize := s16 ((wSize : Int) - wGREHeaderSize)
    if dGREDataSize < 0 then none else some dGREDataSize.toNat

/-- A packet that was analysed: its direction and its payload. -/
structure GrePacket where
  bRtxType : Rtx
  wSize : Nat
  wGREHeaderSize : Nat
  data : List UInt8
  analysed : greDataSize wSize wGREHeaderSize = some data.length

/-- The buffer of a direction up to `siLength`, and its state. -/
structure PppInfo where
  buffer : List UInt8
  dPPPState : PppState
  bMrgState : Bool
  deriving DecidableEq, Repr

/-- A direction that nothing came from. -/
def PppInfo.fresh : PppInfo := ⟨[], .x, false⟩

structure Scan where
  dRet : Int
  nPPPState : PppState
  nNextPos : Int
  n7EOmit : Bool
  n7EDup : Nat
  deriving DecidableEq, Repr

def Scan.flag (scan : Scan) (i : Nat) : Scan :=
  match scan.nPPPState with
  | .x => { scan with nPPPState := .f }
  | .fData => { scan with nPPPState := .fDataF, dRet := 1 }
  | .fDataF => { scan with nNextPos := i, dRet := 2 }
  | .f => { scan with n7EDup := scan.n7EDup + 1 }
  | _ => { scan with dRet := -1 }

def Scan.data (scan : Scan) (i : Nat) : Scan :=
  match scan.nPPPState with
  | .f => { scan with nPPPState := .fData }
  | .fData => { scan with nPPPState := .fData }
  | .x => { scan with n7EOmit := true, nPPPState := .fData }
  | .fDataF => { scan with nNextPos := i, dRet := 2 }
  | _ => { scan with dRet := -1 }

def scanLoop : List UInt8 → Nat → Scan → Scan
  | [], _, scan => scan
  | byte :: rest, i, scan =>
      let scan := if byte = 0x7E then scan.flag i else scan.data i
      if scan.dRet < 0 ∨ 1 < scan.dRet then scan else scanLoop rest (i + 1) scan

/-- `pBuf` holds at least `siSize` bytes. -/
def get7EState (pBuf : List UInt8) (siSize : Int) (nPPPState : PppState) : Scan :=
  scanLoop (pBuf.take siSize.toNat) 0
    { dRet := 0
      nPPPState := nPPPState
      nNextPos := siSize
      n7EOmit := false
      n7EDup := 0 }

/-- The buffer after the copy, or nothing where it would not fit. -/
def copyPacket (pDestBuf pSrcBuf : List UInt8) (siSize : Int) : Option (List UInt8) :=
  if (pDestBuf.length : Int) + siSize > MAX_PPP_SIZE then none
  else some (pDestBuf ++ pSrcBuf.take siSize.toNat)

/-- One turn of the `while(dStartPos < dSize)` loop on what is left of the payload: the return value
of an error, or the direction afterwards, the frame handed to `ProcPPP` and the new position. -/
def mergeTurn (info : PppInfo) (pData : List UInt8) :
    Except (Int × PppInfo) (PppInfo × Option (List UInt8) × Int) :=
  let scan := get7EState pData (s16 pData.length) info.dPPPState
  let info := { info with dPPPState := scan.nPPPState }
  if scan.dRet < 0 then .error (-3, { info with bMrgState := true })
  else
    let info := if scan.n7EOmit then { info with buffer := [0x7E] } else info
    let copied := copyPacket info.buffer (pData.drop scan.n7EDup) (s16 (scan.nNextPos - scan.n7EDup))
    match info.dPPPState with
    | .fDataF =>
        match copied with
        | none => .ok (.fresh, none, scan.nNextPos)
        | some buffer => .ok (.fresh, if info.bMrgState then none else some buffer, scan.nNextPos)
    | .fData | .f =>
        match copied with
        | none => .ok ({ info with bMrgState := true }, none, scan.nNextPos)
        | some buffer => .ok ({ info with buffer := buffer }, none, scan.nNextPos)
    | _ => .ok (info, none, scan.nNextPos)

/-- A position before the payload has no result. -/
def mergeLoop : Nat → PppInfo → List UInt8 → Option (Int × PppInfo × List (List UInt8))
  | 0, _, _ => none
  | fuel + 1, info, pData =>
      if pData = [] then some (0, info, [])
      else
        match mergeTurn info pData with
        | .error (ret, info) => some (ret, info, [])
        | .ok (info, frame, nNextPos) =>
            if nNextPos < 0 then none
            else do
              let (ret, info, frames) ← mergeLoop fuel info (pData.drop nNextPos.toNat)
              some (ret, info, frame.toList ++ frames)

/-- The two directions of a session. -/
structure PSessData where
  stETH1 : PppInfo
  stETH2 : PppInfo
  deriving DecidableEq, Repr

def PSessData.info (sess : PSessData) : Rtx → Option PppInfo
  | .client => some sess.stETH1
  | .server => some sess.stETH2
  | .none => none

def PSessData.setInfo (sess : PSessData) (rtx : Rtx) (info : PppInfo) : PSessData :=
  match rtx with
  | .client => { sess with stETH1 := info }
  | .server => { sess with stETH2 := info }
  | .none => sess

/-- The return value, the session, and the frames handed to `ProcPPP`. -/
def mergePPPData (sess : PSessData) (packet : GrePacket) :
    Option ((Int × List (List UInt8)) × PSessData) :=
  match sess.info packet.bRtxType with
  | none => some ((-1, []), sess)
  | some info =>
      if info.buffer.length > MAX_PPP_SIZE then
        some ((-2, []), sess.setInfo packet.bRtxType .fresh)
      else do
        let (ret, info, frames) ← mergeLoop (packet.data.length + 1) info packet.data
        some ((ret, frames), sess.setInfo packet.bRtxType info)

end Upst.Gre
