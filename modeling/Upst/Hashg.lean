import Upst.Word
import Mathlib.Logic.Function.Basic

/-!
The hash table of pointers: a bucket array and nodes from the heap. A node's `prev` is the
address of the pointer that leads to it, in the array or in another node. Keys and data are
parameters; keys are compared as a whole. A call that would follow a pointer to a block that
is not allocated, or leave the bucket array, has no result.
-/

namespace Upst.Hashg

open Word

set_option autoImplicit false

/-- The pointer that a `stHASHGNODE **` is the address of. -/
inductive Slot where
  | null
  | bucket (index : Nat)
  | next (node : Nat)
  deriving DecidableEq, Repr

/-- 0 stands for NULL in `next`. -/
structure HashgNode (Key Data : Type) where
  next : Nat
  prev : Slot
  pstKey : Key
  pstData : Data

/-- A table with the heap its nodes are in: `alloced` are the blocks that `malloc` gave out. -/
structure HashgInfo (Key Data : Type) where
  uiHashSize : Nat
  maxNodeCnt : Nat
  func : Key → Nat
  uiLinkedCnt : Nat
  psthashnode : Nat → Nat
  node : Nat → HashgNode Key Data
  alloced : List Nat

section Calls

variable {Key Data : Type}

def hashgSetMaxNodeCnt (info : HashgInfo Key Data) (maxNodeCnt : Nat) : HashgInfo Key Data :=
  { info with maxNodeCnt := maxNodeCnt }

/-- `heap` is what the blocks hold before. -/
def hashgInit (func : Key → Nat) (uiHashSize : Nat) (heap : Nat → HashgNode Key Data) :
    HashgInfo Key Data where
  uiHashSize := uiHashSize
  maxNodeCnt := u32 (uiHashSize * 10)
  func := func
  uiLinkedCnt := 0
  psthashnode := fun _ => 0
  node := heap
  alloced := []

/-- A write to a node's block. -/
def HashgInfo.setNode (info : HashgInfo Key Data) (p : Nat)
    (change : HashgNode Key Data → HashgNode Key Data) : Option (HashgInfo Key Data) :=
  if p ∈ info.alloced then
    some { info with node := Function.update info.node p (change (info.node p)) }
  else none

/-- A write to the pointer at an address. -/
def HashgInfo.setSlot (info : HashgInfo Key Data) (slot : Slot) (pointer : Nat) :
    Option (HashgInfo Key Data) :=
  match slot with
  | .null => none
  | .bucket index =>
      if index < info.uiHashSize then
        some { info with psthashnode := Function.update info.psthashnode index pointer }
      else none
  | .next p => info.setNode p fun node => { node with next := pointer }

/-- The address of the pointer that leads to the successor is kept in the successor. -/
def HashgInfo.setPrev (info : HashgInfo Key Data) (p : Nat) (slot : Slot) :
    Option (HashgInfo Key Data) :=
  if p = 0 then some info else info.setNode p fun node => { node with prev := slot }

def hashgLinkNode (info : HashgInfo Key Data) (p : Nat) : Option (HashgInfo Key Data) := do
  let index := info.func (info.node p).pstKey
  if index < info.uiHashSize then
    let first := info.psthashnode index
    let info ← info.setNode p fun node => { node with next := first }
    let info ← info.setPrev first (.next p)
    let info ← info.setNode p fun node => { node with prev := .bucket index }
    let info ← info.setSlot (.bucket index) p
    some { info with uiLinkedCnt := u32 (info.uiLinkedCnt + 1) }
  else none

/-- A node that is not linked stays as it is. -/
def hashgUnlinkNode (info : HashgInfo Key Data) (p : Nat) : Option (HashgInfo Key Data) :=
  if p ∈ info.alloced then
    let prev := (info.node p).prev
    if prev = .null then some info
    else do
      let next := (info.node p).next
      let info ← info.setSlot prev next
      let info ← info.setPrev next prev
      let info ← info.setNode p fun node => { node with next := 0, prev := .null }
      some { info with uiLinkedCnt := u32Pred info.uiLinkedCnt }
  else none

/-- `free`. -/
def HashgInfo.free (info : HashgInfo Key Data) (p : Nat) : Option (HashgInfo Key Data) :=
  if p ∈ info.alloced then some { info with alloced := info.alloced.erase p } else none

def hashgDel (info : HashgInfo Key Data) (p : Nat) : Option (HashgInfo Key Data) := do
  let info ← hashgUnlinkNode info p
  info.free p

/-- A write to a node's key. -/
def HashgInfo.setKey (info : HashgInfo Key Data) (p : Nat) (pKey : Key) :
    Option (HashgInfo Key Data) :=
  info.setNode p fun node => { node with pstKey := pKey }

/-- The key of a linked node is changed before the node is unlinked and linked again. -/
def hashgRekey (info : HashgInfo Key Data) (p : Nat) (pKey : Key) : Option (HashgInfo Key Data) := do
  let info ← info.setKey p pKey
  let info ← hashgUnlinkNode info p
  hashgLinkNode info p

variable [DecidableEq Key]

/-- The loop of `hashg_find`. `none` is a chain that does not end in as many nodes. -/
def hashgFindLoop (info : HashgInfo Key Data) (pKey : Key) : Nat → Nat → Option (Option Nat)
  | 0, p => if p = 0 then some none else none
  | nodes + 1, p =>
      if p = 0 then some none
      else if p ∉ info.alloced then none
      else if (info.node p).pstKey = pKey then some (some p)
      else hashgFindLoop info pKey nodes (info.node p).next

/-- A chain without repetition has no more nodes than there are blocks. -/
def hashgFind (info : HashgInfo Key Data) (pKey : Key) : Option (Option Nat) :=
  if info.func pKey < info.uiHashSize then
    hashgFindLoop info pKey info.alloced.length (info.psthashnode (info.func pKey))
  else none

/-- `place` is what `malloc` returns, never 0 or a block that is still allocated. -/
def hashgAdd (info : HashgInfo Key Data) (pKey : Key) (pData : Data) (place : Option Nat) :
    Option (Option Nat × HashgInfo Key Data) :=
  if info.maxNodeCnt ≤ info.uiLinkedCnt then some (none, info)
  else do
    let found ← hashgFind info pKey
    if found.isSome then some (none, info)
    else
      match place with
      | none => some (none, info)
      | some p =>
          if p = 0 ∨ p ∈ info.alloced then none
          else do
            let node :=
              { next := 0
                prev := .null
                pstKey := pKey
                pstData := pData }
            let info ← hashgLinkNode
              { info with node := Function.update info.node p node, alloced := p :: info.alloced } p
            some (some p, info)

def hashgDelFromKey (info : HashgInfo Key Data) (pKey : Key) : Option (HashgInfo Key Data) := do
  match ← hashgFind info pKey with
  | none => some info
  | some p => do
      let info ← hashgUnlinkNode info p
      info.free p

/-- What a caller sees: the node added, and the node found with its data. -/
inductive Answer (Data : Type) where
  | added (node : Option Nat)
  | found (entry : Option (Nat × Data))
  | done
  deriving DecidableEq, Repr

/-- `del` is told which key the node holds, which the call does not look at. -/
inductive Op (Key Data : Type) where
  | add (pKey : Key) (pData : Data) (place : Option Nat)
  | find (pKey : Key)
  | del (p : Nat) (pKey : Key)
  | delFromKey (pKey : Key)
  | rekey (pKey newKey : Key)
  deriving DecidableEq, Repr

def HashgInfo.step (info : HashgInfo Key Data) :
    Op Key Data → Option (Answer Data × HashgInfo Key Data)
  | .add pKey pData place => do
      let (p, info) ← hashgAdd info pKey pData place
      some (.added p, info)
  | .find pKey => do
      let p ← hashgFind info pKey
      some (.found (p.map fun p => (p, (info.node p).pstData)), info)
  | .del p _ => do
      let info ← hashgDel info p
      some (.done, info)
  | .delFromKey pKey => do
      let info ← hashgDelFromKey info pKey
      some (.done, info)
  | .rekey pKey newKey => do
      match ← hashgFind info pKey with
      | none => some (.done, info)
      | some p => do
          let info ← hashgRekey info p newKey
          some (.done, info)

end Calls

end Upst.Hashg
