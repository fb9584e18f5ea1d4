import Upst.TimedTable
import Upst.HashoTables
import Mathlib.Data.List.Flatten

/-!
The fragments that PRE_A keeps until their datagram is whole. A table has an entry for each
datagram, an entry the ring of its fragments in the order of their offsets, and a timer deletes
the entry when no fragment comes for three seconds.
-/

namespace Upst.PreaFrag

open Bytes Word Hasho Hashg Timern TimedTable

set_option autoImplicit false

def IP_FRAG_HASH_CNT : Nat := 107
def IP_FRAG_MORE : Nat := 0x2000
def IP_FRAG_OFFSET : Nat := 0x1FFF
def DEF_IP_FRAG_TIMEOUT : Int := 3
def DEF_MAC_SIZE : Nat := 14
def IP_FRAG_KEY_SIZE : Nat := 10
def IP_FRAG_SIZE : Nat := 20
def NIFO_SIZE : Nat := 64
def TLV_SIZE : Nat := 8

section Fragments

/-- A node with what `INFO_ETH` and the capture header say of it; `ethData` are the bytes from the
value of `ETH_DATA` on. -/
structure Fragment where
  pNODE : Nat
  dwSrcIP : Nat
  dwDestIP : Nat
  usIdent : Nat
  usIPFrag : Nat
  wTotalLength : Nat
  wIPHeaderLen : Nat
  wDataLen : Nat
  datalen : Nat
  ethData : Nat → UInt8

/-- `ipfrag_offset`, in bytes. -/
def Fragment.offset (frag : Fragment) : Nat := (frag.usIPFrag &&& IP_FRAG_OFFSET) * 8

/-- `ipfrag_more` is 0. -/
def Fragment.last (frag : Fragment) : Bool := frag.usIPFrag &&& IP_FRAG_MORE = 0

/-- The length of the payload, as the header has it. -/
def Fragment.size (frag : Fragment) : Int := frag.wTotalLength - frag.wIPHeaderLen

def le16 (x : Nat) : List UInt8 := [UInt8.ofNat (x % 256), UInt8.ofNat (x / 256 % 256)]

/-- The bytes of an `IP_FRAG_KEY`. -/
def Fragment.key (frag : Fragment) : List UInt8 :=
  le32 frag.dwSrcIP ++ le32 frag.dwDestIP ++ le16 frag.usIdent

/-- A ring, from the node that `offset_NODE` names on. -/
structure Ring where
  head : Fragment
  others : List Fragment

def Ring.nodes (ring : Ring) : List Fragment := ring.head :: ring.others

/-- The loop of `ip_frag_sort` from `i` on, with so many turns left. It goes back from the head, and
links the new node behind the first of a lower offset or else before the head. -/
def sortLoop (ring : Ring) (pNODE : Fragment) : Nat → Nat → Ring
  | _, 0 => ⟨pNODE, ring.nodes⟩
  | i, left + 1 =>
    let place := ring.others.length - i % ring.nodes.length
    if pNODE.offset > (ring.nodes.getD place ring.head).offset then
      { ring with others := ring.others.insertIdx place pNODE }
    else sortLoop ring pNODE (i + 1) left

def ipFragSort (ring : Ring) (nodeCnt : Nat) (pNODE : Fragment) : Ring :=
  sortLoop ring pNODE 0 nodeCnt

/-- The nodes that a loop from 1 to `nodeCnt` comes to behind the head. -/
def Ring.behind (ring : Ring) (nodeCnt : Nat) : List Fragment :=
  (List.range (nodeCnt - 1)).map fun i =>
    ring.nodes.getD ((i + 1) % ring.nodes.length) ring.head

def checkLoop : Int → List Fragment → Int
  | _, [] => 1
  | totalSize, frag :: rest =>
    if frag.offset ≠ totalSize then -2 else checkLoop (totalSize + frag.size) rest

def ipFragCheckFinish (ring : Ring) (nodeCnt : Nat) : Int :=
  if ring.head.offset ≠ 0 then -1 else checkLoop ring.head.size (ring.behind nodeCnt)

/-- The node of the whole datagram. Its headers are those of `head`, but for the two lengths. -/
structure Merged where
  pRST : Nat
  head : Fragment
  wDataLen : Nat
  datalen : Nat
  lastoffset : Nat
  ethData : List UInt8

/-- What the build fixes: `CAP_HRD_LEN` and `INFO_ETH_SIZE`. -/
structure Sizes where
  capHrdLen : Nat
  infoEthSize : Nat

/-- `len` is counted in 32 bits. A negative length has no result. -/
def mergeLoop (maxoffset : Nat) : List Fragment → Int → Merged → Option (Option (Int × Merged))
  | [], len, merged => some (some (len, merged))
  | frag :: rest, len, merged =>
    if frag.size < 0 then none
    else if maxoffset < merged.lastoffset + frag.size.toNat then some none
    else
      mergeLoop maxoffset rest (s32 (len + frag.size))
        { merged with
          lastoffset := merged.lastoffset + frag.size.toNat
          ethData := merged.ethData ++
            readBytes frag.ethData (DEF_MAC_SIZE + frag.wIPHeaderLen) frag.size.toNat }

/-- `maxoffset` is that of the new node. `none` inside is a negative result. -/
def ipFragMerge (sizes : Sizes) (maxoffset : Nat) (ring : Ring) (nodeCnt pRST : Nat) :
    Option (Option Merged) :=
  let capHead := NIFO_SIZE + TLV_SIZE + sizes.capHrdLen
  let infoEth := capHead + TLV_SIZE + sizes.infoEthSize
  let ethData := infoEth + TLV_SIZE + ring.head.datalen
  if maxoffset < capHead then some none
  else if maxoffset < infoEth then some none
  else if maxoffset < ethData then some none
  else do
    let merged : Merged :=
      { pRST := pRST
        head := ring.head
        wDataLen := ring.head.wDataLen
        datalen := ring.head.datalen
        lastoffset := ethData
        ethData := readBytes ring.head.ethData 0 ring.head.datalen }
    match ← mergeLoop maxoffset (ring.behind nodeCnt) ring.head.wDataLen merged with
    | none => some none
    | some (len, merged) =>
      some (some { merged with wDataLen := (len % 2 ^ 16).toNat, datalen := len.toNat })

end Fragments

section Store

structure IpFrag where
  timerNID : Option TimernKey
  cnt : UInt16
  finish : Bool
  ring : Ring

/-- What a call gets from outside: `time(NULL)`, the results of `malloc`, and the result of
`nifo_node_alloc` with the size of its nodes. -/
structure Supply where
  now : Int
  malloc : List Nat → Option Nat
  pRST : Option Nat
  maxoffset : Nat

/-- `frag` is the record in the data of a node of the table, by node; a node keeps it when it is
freed. `taken` are the nodes that `ip_frag` was given and `freed` those that were deleted. -/
structure FragStore where
  pIPFRAGHASH : HashoInfo
  frag : Nat → IpFrag
  pIPFRAGTIMER : TimernInfo
  taken : List Nat
  freed : List Nat

def FragStore.setFrag (store : FragStore) (p : Nat) (frag : IpFrag) : FragStore :=
  { store with frag := Function.update store.frag p frag }

def FragStore.setTimer (store : FragStore) (timer : TimernInfo) : FragStore :=
  { store with pIPFRAGTIMER := timer }

/-- `nifo_node_delete` of a ring. -/
def FragStore.free (store : FragStore) (nodes : List Fragment) : FragStore :=
  { store with freed := store.freed ++ nodes.map Fragment.pNODE }

/-- The table is on a new segment. -/
def initStore (rawHash : HashoInfo) (rawFrag : Nat → IpFrag) (clock : Int)
    (heap : Nat → HashgNode TimernKey TimernData) : FragStore where
  pIPFRAGHASH := hashoInit rawHash IP_FRAG_KEY_SIZE IP_FRAG_SIZE IP_FRAG_HASH_CNT
  frag := rawFrag
  pIPFRAGTIMER := timernInit clock heap
  taken := []
  freed := []

/-- A timer id of 0 is that of the key which is 0. -/
def timerKey (timerNID : Option TimernKey) : TimernKey := timerNID.getD ⟨0, 0⟩

/-- The callback of an entry's timer. -/
def delIpfrag (key : List UInt8) : TimernData where
  invoke_func := 1
  arg := key

variable (hash : List UInt8 → Nat)

def invokeDelIpfrag (store : FragStore) (p : TimernData) : Option FragStore := do
  let key := p.arg.take IP_FRAG_KEY_SIZE
  match ← hashoFind hash store.pIPFRAGHASH key with
  | none => some store
  | some node => do
    let store := store.free (store.frag node).ring.nodes
    let table ← hashoDel hash store.pIPFRAGHASH key
    some { store with pIPFRAGHASH := table }

/-- The node of a whole datagram. It is deleted again where the fragments do not go into it. -/
def fragResult (sizes : Sizes) (entry : IpFrag) (supply : Supply) : Option (Option Merged) :=
  match supply.pRST with
  | none => some none
  | some pRST => ipFragMerge sizes supply.maxoffset entry.ring entry.cnt.toNat pRST

/-- The end of `ip_frag`. The timer's id is read from the record of the entry that was deleted. -/
def fragEnd (sizes : Sizes) (store : FragStore) (key : List UInt8) (p : Nat) (supply : Supply) :
    Option (Option Merged × FragStore) :=
  let entry := store.frag p
  if entry.finish ∧ 1 < entry.cnt then
    if 0 < ipFragCheckFinish entry.ring entry.cnt.toNat then do
      let result ← fragResult sizes entry supply
      let store := store.free entry.ring.nodes
      let table ← hashoDel hash store.pIPFRAGHASH key
      let (timer, _) ← timernDel store.pIPFRAGTIMER (timerKey (store.frag p).timerNID)
      some (result, { store with
        pIPFRAGHASH := table
        pIPFRAGTIMER := timer })
    else some (none, store)
  else some (none, store)

/-- The result of `timerN_add` is the id that the entry keeps. -/
def fragNew (sizes : Sizes) (store : FragStore) (pNODE : Fragment) (supply : Supply) :
    Option (Option Merged × FragStore) := do
  let (node, table) ← hashoAdd hash store.pIPFRAGHASH pNODE.key
    (List.replicate store.pIPFRAGHASH.usDataLen 0)
  let store := { store with pIPFRAGHASH := table }
  match node with
  | none => some (none, store.free [pNODE])
  | some p => do
    let store := store.setFrag p
      { timerNID := none
        cnt := 1
        finish := pNODE.last
        ring := ⟨pNODE, []⟩ }
    let (timerNID, timer, events) ← timernAdd store.pIPFRAGTIMER (delIpfrag pNODE.key)
      (supply.now + DEF_IP_FRAG_TIMEOUT) supply.malloc fun timer => some (timer, [])
    let store ← runCallbacks (invokeDelIpfrag hash) (store.setTimer timer) events
    fragEnd hash sizes (store.setFrag p { store.frag p with timerNID := timerNID }) pNODE.key p supply

/-- What a fragment does to the entry of its datagram before the timer is set. -/
def IpFrag.add (entry : IpFrag) (pNODE : Fragment) : IpFrag :=
  { entry with
    finish := if pNODE.last then true else entry.finish
    ring := ipFragSort entry.ring entry.cnt.toNat pNODE
    cnt := entry.cnt + 1 }

def fragNext (sizes : Sizes) (store : FragStore) (p : Nat) (pNODE : Fragment) (supply : Supply) :
    Option (Option Merged × FragStore) := do
  let store := store.setFrag p ((store.frag p).add pNODE)
  let (timerNID, timer, events) ← timernUpdate store.pIPFRAGTIMER
    (timerKey (store.frag p).timerNID) (supply.now + DEF_IP_FRAG_TIMEOUT)
    fun timer => some (timer, [])
  let store ← runCallbacks (invokeDelIpfrag hash) (store.setTimer timer) events
  fragEnd hash sizes (store.setFrag p { store.frag p with timerNID := timerNID }) pNODE.key p supply

def ipFrag (sizes : Sizes) (store : FragStore) (pNODE : Fragment) (supply : Supply) :
    Option (Option Merged × FragStore) := do
  let store := { store with taken := store.taken ++ [pNODE.pNODE] }
  match ← hashoFind hash store.pIPFRAGHASH pNODE.key with
  | none => fragNew hash sizes store pNODE supply
  | some p => fragNext hash sizes store p pNODE supply

/-- `clock` is `time(0)`. -/
def invokeTimers (store : FragStore) (clock : Int) : Option FragStore := do
  let (timer, events) ← timernInvoke clock (fun _ _ => .done) store.pIPFRAGTIMER
  runCallbacks (invokeDelIpfrag hash) (store.setTimer timer) events

inductive Step where
  | fragment (pNODE : Fragment) (supply : Supply)
  | invoke (clock : Int)

def FragStore.step (sizes : Sizes) (store : FragStore) : Step → Option FragStore
  | .fragment pNODE supply => (ipFrag hash sizes store pNODE supply).map Prod.snd
  | .invoke clock => invokeTimers hash store clock

end Store

end Upst.PreaFrag
