import Upst.Mems
import Upst.Bytes

/-!
NIFO nodes and the TLV stream written over a chain of them. A node that runs out
of room is continued in a new node linked behind it on the `cont` ring, and both
the 8-byte TLV header and the value may be cut at any byte. A step that would
touch memory outside the node it works on, or overflow a signed integer, has no
result in this model.
-/

namespace Upst.Nifo

open CList Mems Bytes

set_option autoImplicit false

def NIFO_SIZE : Nat := 64
def TLV_SIZE : Nat := 8

/-- Conversion to `S32`. -/
def s32 (x : Int) : Int := x.bmod (2 ^ 32)

/-- Conversion to `U32`. -/
def u32 (x : Nat) : Nat := x % 2 ^ 32

/-- `a - b` on `U32`. -/
def u32Sub (a b : Nat) : Nat := (a + (2 ^ 32 - b % 2 ^ 32)) % 2 ^ 32

/-- The memory image of a `TLV`: `type`, then `len`. -/
def tlvBytes (type len : Nat) : List UInt8 := le32 type ++ le32 len

/-- A segment that nothing was written to, every node a ring of its own. -/
def zeroSegment : MemsInfo where
  stMEMSZONE := []
  offsetFreeList := fun _ => 0
  uiMatrixZoneID := fun _ => INVALID_ID
  nodeHdr := fun _ => ⟨0, 0, .free⟩
  nifo := fun _ => ⟨0, 0, 0, 0, 0⟩
  nont := ⟨id, id⟩
  cont := ⟨id, id⟩
  byteAt := fun _ => 0

section Node

/-- The body size of the zone named in the node's header. -/
def bodySize (shm : MemsInfo) (node : Nat) : Nat :=
  match shm.stMEMSZONE[(shm.nodeHdr (node - stMEMSNODEHDR_SIZE)).uiZoneID]? with
  | none => 0
  | some zone => zone.uiMemNodeBodySize

def nifoNodeAlloc (shm : MemsInfo) (procID : Nat) : Option Nat × MemsInfo :=
  let uiZoneID := shm.uiMatrixZoneID procID
  if uiZoneID ≠ INVALID_ID then
    match shm.stMEMSZONE[uiZoneID]? with
    | none => (none, shm)
    | some zone =>
        match memsAlloc shm zone.uiMemNodeBodySize uiZoneID with
        | (none, shm) => (none, shm)
        | (some p, shm) =>
            (some p,
              { shm with
                nont := shm.nont.init p
                cont := shm.cont.init p
                nifo := Function.update shm.nifo p
                  { nodeFrom := 0
                    nodeTo := 0
                    cnt := 0
                    lastoffset := NIFO_SIZE
                    maxoffset := zone.uiMemNodeBodySize } })
  else (none, shm)

def nifoNodeLinkContNext (shm : MemsInfo) (pHead pNew : Nat) : MemsInfo :=
  { shm with cont := shm.cont.addHead pNew pHead }

/-- The first zone that holds the pointer decides which node it is in; 0 outside all zones. -/
def nifoGetOffsetNode (shm : MemsInfo) (ptr : Nat) : Nat :=
  match shm.stMEMSZONE.find? fun zone =>
      decide (zone.offsetNodeStart ≤ ptr ∧ ptr < zone.offsetNodeEnd) with
  | none => 0
  | some zone =>
      zone.offsetNodeStart + zone.stride * ((ptr - zone.offsetNodeStart) / zone.stride) +
        stMEMSNODEHDR_SIZE

end Node

section Write

/-- `memcpy` to the end of a node's data, together with the advance of `lastoffset`. -/
def nifoAppend (shm : MemsInfo) (node : Nat) (src : List UInt8) (size : Int) :
    Option MemsInfo :=
  let pNIFO := shm.nifo node
  if 0 ≤ size ∧ size ≤ src.length ∧ NIFO_SIZE ≤ pNIFO.lastoffset ∧
      pNIFO.lastoffset + size ≤ bodySize shm node then
    some
      { shm with
        byteAt := writeBytes shm.byteAt (node + pNIFO.lastoffset) (src.take size.toNat)
        nifo := Function.update shm.nifo node
          { pNIFO with lastoffset := pNIFO.lastoffset + size.toNat } }
  else none

/-- The `while(oldLen < len)` loop of `nifo_copy_tlv_cont`. -/
def copyTlvLoop (procID len : Nat) (value : List UInt8) :
    Nat → MemsInfo → Nat → Nat → Option (MemsInfo × Int)
  | 0, _, _, _ => none
  | fuel + 1, shm, pNode, oldLen =>
      if oldLen < len then
        let pNIFO := shm.nifo pNode
        let copyLen := s32 ((len : Int) - oldLen)
        let remainSize := s32 ((pNIFO.maxoffset : Int) - pNIFO.lastoffset)
        if copyLen - remainSize < -2 ^ 31 ∨ 2 ^ 31 ≤ copyLen - remainSize then none
        else do
          let copySize := if copyLen - remainSize > 0 then remainSize else copyLen
          -- the source pointer is `value` on every turn
          let shm ← nifoAppend shm pNode value copySize
          if copyLen - remainSize > 0 then
            match nifoNodeAlloc shm procID with
            | (none, shm) => some (shm, -2)
            | (some pSubNode, shm) =>
                copyTlvLoop procID len value fuel
                  (nifoNodeLinkContNext shm pNode pSubNode) pSubNode
                  (oldLen + copySize.toNat)
          else copyTlvLoop procID len value fuel shm pNode (oldLen + copySize.toNat)
      else some (shm, 0)

/-- The part of `nifo_copy_tlv_cont` after the header, when not all fits the node. -/
def copyTlvValue (shm : MemsInfo) (procID len : Nat) (value : List UInt8) (pNode : Nat) :
    Option (MemsInfo × Int) :=
  let pNIFO := shm.nifo pNode
  if pNIFO.maxoffset < pNIFO.lastoffset + len then
    copyTlvLoop procID len value (len + 2) shm pNode 0
  else do
    let shm ← nifoAppend shm pNode value len
    some (shm, 0)

def nifoCopyTlvCont (shm : MemsInfo) (procID type len : Nat) (value : List UInt8)
    (node : Nat) : Option (MemsInfo × Int) :=
  let pNode := shm.cont.prev node
  let pNIFO := shm.nifo pNode
  let tlv := tlvBytes type len
  if pNIFO.maxoffset < pNIFO.lastoffset + TLV_SIZE + len then
    if pNIFO.maxoffset < pNIFO.lastoffset + TLV_SIZE then do
      let copySize := s32 ((pNIFO.maxoffset : Int) - pNIFO.lastoffset)
      let remainSize := TLV_SIZE - copySize
      let shm ← nifoAppend shm pNode tlv copySize
      match nifoNodeAlloc shm procID with
      | (none, shm) => some (shm, -1)
      | (some pSubNode, shm) => do
          let shm := nifoNodeLinkContNext shm pNode pSubNode
          let shm ← nifoAppend shm pSubNode (tlv.drop copySize.toNat) remainSize
          copyTlvValue shm procID len value pSubNode
    else do
      let shm ← nifoAppend shm pNode tlv TLV_SIZE
      copyTlvValue shm procID len value pNode
  else do
    let shm ← nifoAppend shm pNode tlv TLV_SIZE
    let shm ← nifoAppend shm pNode value len
    some (shm, 0)

end Write

section Read

/-- `DEF_READ_ORIGIN` points into the node, `DEF_READ_MALLOC` owns a copy. -/
inductive TlvValue where
  | origin (ptr : Nat)
  | malloced (buf : List UInt8)
  deriving DecidableEq, Repr

/-- One read of node memory, a value handed over by pointer included. -/
structure Access where
  node : Nat
  offset : Nat
  size : Nat
  deriving DecidableEq, Repr

structure TlvRead where
  type : Nat
  len : Nat
  value : TlvValue
  nexttlv : Option Nat
  accesses : List Access
  deriving DecidableEq, Repr

/-- Where the reader stands, with what it has copied so far. -/
structure Cursor where
  pSNode : Nat
  dOffset : Nat
  buf : List UInt8
  accesses : List Access
  deriving DecidableEq, Repr

def Cursor.copy (shm : MemsInfo) (cursor : Cursor) (size : Nat) : Option Cursor :=
  if cursor.dOffset + size ≤ bodySize shm cursor.pSNode then
    some
      { cursor with
        buf := cursor.buf ++ readBytes shm.byteAt (cursor.pSNode + cursor.dOffset) size
        accesses := cursor.accesses ++ [⟨cursor.pSNode, cursor.dOffset, size⟩] }
  else none

/-- The `while(dOldLen < dLen)` loop that joins a header or a value; `dOldLen` is
the length of what is already copied. -/
def joinLoop (shm : MemsInfo) (body dLen : Nat) : Nat → Cursor → Option Cursor
  | 0, _ => none
  | fuel + 1, cursor =>
      let dOldLen := cursor.buf.length
      if dOldLen < dLen then
        if u32 (cursor.dOffset + dLen - dOldLen) > body then do
          let dCopySize := u32Sub body cursor.dOffset
          let copied ← cursor.copy shm dCopySize
          joinLoop shm body dLen fuel
            { copied with
              pSNode := shm.cont.next cursor.pSNode
              dOffset := u32 ((cursor.dOffset + dCopySize + NIFO_SIZE) % body) }
        else do
          let dCopySize := dLen - dOldLen
          let copied ← cursor.copy shm dCopySize
          joinLoop shm body dLen fuel
            { copied with dOffset := u32 (cursor.dOffset + dCopySize) }
      else some cursor

/-- The `nexttlv` both value branches of `nifo_read_tlv_cont` compute at the end. -/
def nextTlv (shm : MemsInfo) (pHEAD pSNode dOffset : Nat) : Option Nat :=
  let node := shm.nifo pSNode
  if node.lastoffset ≤ dOffset then
    if node.lastoffset = node.maxoffset then
      if pHEAD = shm.cont.next pSNode then none else some (shm.cont.next pSNode)
    else none
  else some (pSNode + dOffset)

/-- The header part of `nifo_read_tlv_cont`: the 8 bytes end up in the buffer. -/
def readTlvHeader (shm : MemsInfo) (body : Nat) (start : Cursor) : Option Cursor :=
  if start.dOffset + TLV_SIZE > body then joinLoop shm body TLV_SIZE (TLV_SIZE + 2) start
  else do
    let copied ← start.copy shm TLV_SIZE
    some { copied with dOffset := start.dOffset + TLV_SIZE }

/-- The value part of `nifo_read_tlv_cont`, from the header just read. -/
def readTlvValue (shm : MemsInfo) (malloc : Nat → Bool) (pHEAD body : Nat)
    (header : Cursor) : Option (Except Int TlvRead) :=
  let type := fromLe (header.buf.take 4)
  let len := fromLe (header.buf.drop 4)
  if u32 (header.dOffset + len) > body then
    if malloc (u32 (len + 1)) then do
      let cursor ← joinLoop shm body len (len + 2) { header with buf := [] }
      some (.ok
        { type := type
          len := len
          value := .malloced cursor.buf
          nexttlv := nextTlv shm pHEAD cursor.pSNode cursor.dOffset
          accesses := cursor.accesses })
    else some (.error (-12))
  else
    some (.ok
      { type := type
        len := len
        value := .origin (header.pSNode + header.dOffset)
        nexttlv := nextTlv shm pHEAD header.pSNode (header.dOffset + len)
        accesses := header.accesses ++ [⟨header.pSNode, header.dOffset, len⟩] })

/-- `malloc` answers whether an allocation of that many bytes succeeds. -/
def nifoReadTlvCont (shm : MemsInfo) (malloc : Nat → Bool) (pHEAD nexttlv : Nat) :
    Option (Except Int TlvRead) :=
  let body := bodySize shm pHEAD
  let base := nifoGetOffsetNode shm nexttlv
  if base = 0 ∨ nexttlv < base then none
  else do
    let gap := nexttlv - base
    let dOffset := if gap = 0 then NIFO_SIZE else u32 gap
    let header ← readTlvHeader shm body ⟨base, dOffset, [], []⟩
    readTlvValue shm malloc pHEAD body header

/-- The bytes the caller finds behind `value`. -/
def TlvRead.bytes (shm : MemsInfo) (read : TlvRead) : List UInt8 :=
  match read.value with
  | .origin ptr => readBytes shm.byteAt ptr read.len
  | .malloced buf => buf

/-- The caller's loop: at most `turns` calls, each from the `nexttlv` of the one
before, until it is NULL or a call fails. -/
def readTlvs (shm : MemsInfo) (malloc : Nat → Bool) (pHEAD : Nat) :
    Nat → Option Nat → Option (List TlvRead × Option Nat)
  | _, none => some ([], none)
  | 0, some p => some ([], some p)
  | turns + 1, some p => do
      match ← nifoReadTlvCont shm malloc pHEAD p with
      | .error _ => some ([], some p)
      | .ok read =>
          let (reads, rest) ← readTlvs shm malloc pHEAD turns read.nexttlv
          some (read :: reads, rest)

end Read

end Upst.Nifo
