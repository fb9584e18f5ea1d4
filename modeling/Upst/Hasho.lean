import Upst.Bytes
import Upst.Word
import Mathlib.Logic.Function.Basic

/-!
The hash table of offsets: a bucket array in the head room of a `memg` segment, and nodes
from its pool that hold a key and its data. Pool addresses are offsets from `stMEMGINFO`;
those of the table, which its links store, are offsets from `stHASHOINFO`, where 0 stands
for no node.
-/

namespace Upst.Hasho

open Bytes Word

set_option autoImplicit false

def MEMG_ID : Nat := 0x10101010
def stMEMGINFO_SIZE : Nat := 64
def stMEMGNODEHDR_SIZE : Nat := 20
def stHASHOINFO_SIZE : Nat := 32
def stHASHONODE_SIZE : Nat := 32
def OFFSET_SIZE : Nat := 8

section Pool

/-- `MEMG_FREE` and `MEMG_ALLOCED`, the two values of `ucIsFree`. -/
inductive NodeUse where
  | free
  | alloced
  deriving DecidableEq, Repr

structure MemgNodeHdr where
  uiID : Nat
  ucIsFree : NodeUse
  deriving DecidableEq, Repr

structure MemgInfo where
  uiHeadRoomSize : Nat
  uiMemNodeBodySize : Nat
  uiMemNodeAllocedCnt : Nat
  uiMemNodeTotCnt : Nat
  offsetHeadRoom : Nat
  offsetNodeStart : Nat
  offsetFreeList : Nat
  offsetNodeEnd : Nat
  nodeHdr : Nat → MemgNodeHdr

def MemgInfo.stride (memg : MemgInfo) : Nat := stMEMGNODEHDR_SIZE + memg.uiMemNodeBodySize

def MemgInfo.hdrOffset (memg : MemgInfo) (index : Nat) : Nat :=
  memg.offsetNodeStart + memg.stride * index

def freeHdr : MemgNodeHdr where
  uiID := MEMG_ID
  ucIsFree := .free

/-- The header loop that `memg_init` and `memg_reset` share. -/
def MemgInfo.freeHdrs (memg : MemgInfo) : MemgInfo :=
  { memg with
    nodeHdr := (List.range memg.uiMemNodeTotCnt).foldl
      (fun hdrs index => Function.update hdrs (memg.hdrOffset index) freeHdr) memg.nodeHdr }

/-- `raw` is what the headers' places hold before. -/
def memgInit (raw : Nat → MemgNodeHdr) (uiHeadRoomSize uiMemNodeBodySize uiMemNodeTotCnt : Nat) :
    MemgInfo :=
  let start := stMEMGINFO_SIZE + uiHeadRoomSize
  MemgInfo.freeHdrs
    { uiHeadRoomSize := uiHeadRoomSize
      uiMemNodeBodySize := uiMemNodeBodySize
      uiMemNodeAllocedCnt := 0
      uiMemNodeTotCnt := uiMemNodeTotCnt
      offsetHeadRoom := stMEMGINFO_SIZE
      offsetNodeStart := start
      offsetFreeList := start
      offsetNodeEnd := start + (stMEMGNODEHDR_SIZE + uiMemNodeBodySize) * uiMemNodeTotCnt
      nodeHdr := raw }

def memgReset (memg : MemgInfo) : MemgInfo :=
  MemgInfo.freeHdrs { memg with uiMemNodeAllocedCnt := 0, offsetFreeList := memg.offsetNodeStart }

/-- The loop of `memg_alloc`, one call for each header it looks at. -/
def memgScan (memg : MemgInfo) : Nat → Nat → Option Nat × Nat
  | 0, freeList => (none, freeList)
  | tries + 1, freeList =>
      let advanced :=
        if freeList + memg.stride = memg.offsetNodeEnd then memg.offsetNodeStart
        else freeList + memg.stride
      if (memg.nodeHdr freeList).ucIsFree = .free then (some freeList, advanced)
      else memgScan memg tries advanced

def MemgInfo.setUse (memg : MemgInfo) (hdr : Nat) (use : NodeUse) : MemgInfo :=
  { memg with
    nodeHdr := Function.update memg.nodeHdr hdr { memg.nodeHdr hdr with ucIsFree := use } }

def memgAlloc (memg : MemgInfo) (uiSize : Nat) : Option Nat × MemgInfo :=
  if memg.uiMemNodeBodySize < uiSize then (none, memg)
  -- the counter only moves where the loop ends, so its test is made once
  else if memg.uiMemNodeAllocedCnt < memg.uiMemNodeTotCnt then
    match memgScan memg (memg.uiMemNodeTotCnt + 1) memg.offsetFreeList with
    | (none, freeList) => (none, { memg with offsetFreeList := freeList })
    | (some hdr, freeList) =>
        (some (hdr + stMEMGNODEHDR_SIZE),
          { memg.setUse hdr .alloced with
            offsetFreeList := freeList
            uiMemNodeAllocedCnt := u32 (memg.uiMemNodeAllocedCnt + 1) })
  else (none, memg)

/-- A node that is not allocated is refused. -/
def memgFree (memg : MemgInfo) (pFree : Nat) : MemgInfo :=
  let hdr := memg.nodeHdr (pFree - stMEMGNODEHDR_SIZE)
  if hdr.uiID ≠ MEMG_ID ∨ hdr.ucIsFree ≠ .alloced then memg
  else
    { memg.setUse (pFree - stMEMGNODEHDR_SIZE) .free with
      uiMemNodeAllocedCnt := u32Pred memg.uiMemNodeAllocedCnt }

end Pool

section Table

structure HashoNode where
  offset_next : Nat
  offset_prev : Nat
  offset_Key : Nat
  offset_Data : Nat
  deriving DecidableEq, Repr

/-- A table with its segment. `head` is the bucket array, by index; `node` and `byteAt` are
what the pool holds, by offset. -/
structure HashoInfo where
  usKeyLen : Nat
  usDataLen : Nat
  uiHashSize : Nat
  memg : MemgInfo
  head : Nat → Nat
  node : Nat → HashoNode
  byteAt : Nat → UInt8

/-- What `hasho_init` sets once, and a hash function reads. -/
structure HashoSizes where
  usKeyLen : Nat
  usDataLen : Nat
  uiHashSize : Nat
  deriving DecidableEq, Repr

def HashoInfo.sizes (table : HashoInfo) : HashoSizes where
  usKeyLen := table.usKeyLen
  usDataLen := table.usDataLen
  uiHashSize := table.uiHashSize

/-- The bucket lies in the head room. -/
def HashoInfo.HeadInside (table : HashoInfo) (index : Nat) : Prop :=
  stHASHOINFO_SIZE + OFFSET_SIZE * (index + 1) ≤ table.memg.uiHeadRoomSize

instance (table : HashoInfo) (index : Nat) : Decidable (table.HeadInside index) :=
  inferInstanceAs (Decidable (_ ≤ _))

/-- The key bytes of a node. -/
def HashoInfo.keyAt (table : HashoInfo) (off : Nat) : List UInt8 :=
  readBytes table.byteAt (table.node off).offset_Key table.usKeyLen

def HashoInfo.dataAt (table : HashoInfo) (off : Nat) : List UInt8 :=
  readBytes table.byteAt (table.node off).offset_Data table.usDataLen

/-- Only the bytes of the head room are cleared; `raw` is the segment before. -/
def hashoInit (raw : HashoInfo) (usKeyLen usDataLen uiHashSize : Nat) : HashoInfo :=
  let memg := memgInit raw.memg.nodeHdr (u32 (stHASHOINFO_SIZE + uiHashSize * OFFSET_SIZE))
    (stHASHONODE_SIZE + usKeyLen + usDataLen) (u32 (uiHashSize * 5))
  { raw with
    usKeyLen := usKeyLen
    usDataLen := usDataLen
    uiHashSize := uiHashSize
    memg := memg
    head := fun index =>
      if stHASHOINFO_SIZE + OFFSET_SIZE * (index + 1) ≤ memg.uiHeadRoomSize then 0
      else raw.head index }

def hashoReset (table : HashoInfo) : HashoInfo :=
  { table with
    memg := memgReset table.memg
    head := fun index => if table.HeadInside index then 0 else table.head index }

/-- The loop of `hasho_find`. `none` is a chain that does not end in as many nodes. -/
def hashoFindLoop (table : HashoInfo) (pKey : List UInt8) : Nat → Nat → Option (Option Nat)
  | 0, pOff => if pOff = 0 then some none else none
  | nodes + 1, pOff =>
      if pOff = 0 then some none
      else if table.keyAt pOff = pKey then some (some pOff)
      else hashoFindLoop table pKey nodes (table.node pOff).offset_next

/-- `hash` is `hasho_func`, applied to the sizes of this table. An access to a bucket outside the head
room has no result. -/
def hashoFind (hash : List UInt8 → Nat) (table : HashoInfo) (pKey : List UInt8) :
    Option (Option Nat) :=
  if table.HeadInside (hash pKey) then
    hashoFindLoop table pKey table.memg.uiMemNodeTotCnt (table.head (hash pKey))
  else none

def hashoLinkNode (hash : List UInt8 → Nat) (table : HashoInfo) (p : Nat) : Option HashoInfo :=
  let index := hash (table.keyAt p)
  if table.HeadInside index then
    let first := table.head index
    let linked :=
      if first ≠ 0 then
        let prev := (table.node first).offset_prev
        let node := Function.update table.node p { table.node p with offset_prev := prev }
        let node := Function.update node first { node first with offset_prev := p }
        Function.update node p { node p with offset_next := first }
      else table.node
    some { table with node := linked, head := Function.update table.head index p }
  else none

def hashoUnlinkNode (hash : List UInt8 → Nat) (table : HashoInfo) (p : Nat) : Option HashoInfo :=
  let index := hash (table.keyAt p)
  let next := (table.node p).offset_next
  let prev := (table.node p).offset_prev
  let cut : Option HashoInfo :=
    if prev ≠ 0 then
      some { table with
        node := Function.update table.node prev { table.node prev with offset_next := next } }
    else if table.HeadInside index then
      some { table with head := Function.update table.head index next }
    else none
  cut.map fun table =>
    if next ≠ 0 then
      { table with
        node := Function.update table.node next { table.node next with offset_prev := prev } }
    else table

/-- The node `hasho_add` writes: `bzero` first, then the two copies. -/
def HashoInfo.fillNode (table : HashoInfo) (p : Nat) (pKey pData : List UInt8) : HashoInfo :=
  let key := p + stHASHONODE_SIZE
  let data := key + table.usKeyLen
  let cleared := writeBytes table.byteAt key (List.replicate (table.usKeyLen + table.usDataLen) 0)
  { table with
    node := Function.update table.node p
      { offset_next := 0
        offset_prev := 0
        offset_Key := key
        offset_Data := data }
    byteAt := writeBytes (writeBytes cleared key pKey) data pData }

/-- The returned node, or `none` for NULL. -/
def hashoAdd (hash : List UInt8 → Nat) (table : HashoInfo) (pKey pData : List UInt8) :
    Option (Option Nat × HashoInfo) := do
  let found ← hashoFind hash table pKey
  if found.isSome then some (none, table)
  else
    match memgAlloc table.memg (stHASHONODE_SIZE + table.usKeyLen + table.usDataLen) with
    | (none, memg) => some (none, { table with memg := memg })
    | (some node, memg) => do
        let p := node - stMEMGINFO_SIZE
        let table ← hashoLinkNode hash ({ table with memg := memg }.fillNode p pKey pData) p
        some (some p, table)

def hashoDel (hash : List UInt8 → Nat) (table : HashoInfo) (pKey : List UInt8) : Option HashoInfo := do
  let found ← hashoFind hash table pKey
  match found with
  | none => some table
  | some p => do
      let table ← hashoUnlinkNode hash table p
      some { table with memg := memgFree table.memg (p + stMEMGINFO_SIZE) }

end Table

section Calls

inductive Op where
  | add (pKey pData : List UInt8)
  | find (pKey : List UInt8)
  | del (pKey : List UInt8)
  | reset
  deriving DecidableEq, Repr

/-- What a caller sees: whether a node was added, the data of the node found. -/
inductive Answer where
  | added (fresh : Bool)
  | found (pData : Option (List UInt8))
  | done
  deriving DecidableEq, Repr

def HashoInfo.step (hash : List UInt8 → Nat) (table : HashoInfo) : Op → Option (Answer × HashoInfo)
  | .add pKey pData => do
      let (p, table) ← hashoAdd hash table pKey pData
      some (.added p.isSome, table)
  | .find pKey => do
      let p ← hashoFind hash table pKey
      some (.found (p.map table.dataAt), table)
  | .del pKey => do
      let table ← hashoDel hash table pKey
      some (.done, table)
  | .reset => some (.done, hashoReset table)

/-- The buffers that a call reads are as long as the table reads them. -/
def HashoSizes.Fits (sizes : HashoSizes) : Op → Prop
  | .add pKey pData => pKey.length = sizes.usKeyLen ∧ pData.length = sizes.usDataLen
  | .find pKey => pKey.length = sizes.usKeyLen
  | .del pKey => pKey.length = sizes.usKeyLen
  | .reset => True

end Calls

end Upst.Hasho
