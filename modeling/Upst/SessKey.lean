import Upst.Tcp

/-!
The lists of session keys of `A_TCP`: a table of nodes with a list of free nodes, a list of the
nodes in use, and for each client a chain of its sessions' keys. A table of offsets has for each
client a copy of the node that heads its chain. Log output, and the sessions that
`dDelSessKeyList` closes on its way, take no part in the lists.
-/

namespace Upst.SessKey

open Bytes Word Hasho Tcp

set_option autoImplicit false

def MAX_SESSKEY_LIST : Nat := 20002

def STOP_CALL_KEY_SIZE : Nat := 8

structure SesskeyList where
  stSessKey : TcpSessKey
  next : Nat
  prev : Nat
  uiTCPNext : Nat
  uiTCPPrev : Nat
  uiIndex : Nat
  SessStartTime : Nat
  deriving DecidableEq, Repr

structure SesskeyTbl where
  uiFreeList : Nat
  uiUsedFirst : Nat
  uiUsedLast : Nat
  uiCurrCount : Nat
  stNode : Nat → SesskeyList

def SesskeyTbl.setNode (tbl : SesskeyTbl) (index : Nat) (change : SesskeyList → SesskeyList) :
    SesskeyTbl :=
  { tbl with stNode := Function.update tbl.stNode index (change (tbl.stNode index)) }

def zeroKey : TcpSessKey := ⟨0, 0, 0, 0⟩

/-- `raw` is what the segment holds before. -/
def initTCPKeyList (raw : Nat → SesskeyList) : SesskeyTbl where
  uiFreeList := 1
  uiUsedFirst := 0
  uiUsedLast := 0
  uiCurrCount := 0
  stNode := fun i =>
    if i < MAX_SESSKEY_LIST then
      { raw i with
        prev := 0
        next := if i < MAX_SESSKEY_LIST - 1 then i + 1 else 0
        uiIndex := i
        uiTCPNext := 0
        uiTCPPrev := 0
        stSessKey := zeroKey }
    else raw i

section Nodes

/-- The node that is taken from the free list; the last one stays there. -/
def pGetSessKeyList (tbl : SesskeyTbl) : Option Nat × SesskeyTbl :=
  if (tbl.stNode tbl.uiFreeList).next < 1 then (none, tbl)
  else if (tbl.stNode tbl.uiFreeList).uiIndex ≠ tbl.uiFreeList then (none, tbl)
  else
    let uiIndex := tbl.uiFreeList
    let tbl := { tbl with uiFreeList := (tbl.stNode uiIndex).next }
    let tbl := tbl.setNode uiIndex fun node => { node with next := tbl.uiUsedFirst, prev := 0 }
    let tbl :=
      if 0 < tbl.uiUsedFirst then
        tbl.setNode tbl.uiUsedFirst fun first => { first with prev := uiIndex }
      else tbl
    (some uiIndex,
      { tbl with
        uiUsedFirst := uiIndex
        uiUsedLast := if tbl.uiUsedLast = 0 then uiIndex else tbl.uiUsedLast
        uiCurrCount := u32 (tbl.uiCurrCount + 1) })

/-- `node` is the place of the node in the table. -/
def freeSessKeyList (tbl : SesskeyTbl) (dPos : Nat) : SesskeyTbl :=
  if dPos < 1 ∨ dPos > MAX_SESSKEY_LIST then tbl
  else
    let node := tbl.stNode dPos
    let tbl :=
      if 0 < node.prev then
        if (tbl.stNode node.prev).next = node.uiIndex then
          tbl.setNode node.prev fun pred => { pred with next := node.next }
        else tbl
      else if node.uiIndex = tbl.uiUsedFirst then { tbl with uiUsedFirst := node.next }
      else tbl
    let tbl :=
      if 0 < node.next then
        if (tbl.stNode node.next).prev = node.uiIndex then
          tbl.setNode node.next fun succ => { succ with prev := node.prev }
        else tbl
      else if node.uiIndex = tbl.uiUsedLast then { tbl with uiUsedLast := node.prev }
      else tbl
    let tbl := tbl.setNode dPos fun node =>
      { node with
        prev := 0
        next := tbl.uiFreeList
        uiTCPNext := 0
        uiTCPPrev := 0
        stSessKey := zeroKey }
    { tbl with
      uiFreeList := node.uiIndex
      uiCurrCount := u32Pred tbl.uiCurrCount }

/-- `hashStack` is the copy of the head, `add` the place of the node that comes behind it. -/
def dAddSessKeyNext (tbl : SesskeyTbl) (hashStack : SesskeyList) (add : Nat) : Int × SesskeyTbl :=
  let addStack := tbl.stNode add
  if addStack.uiIndex ≥ MAX_SESSKEY_LIST ∨ addStack.uiIndex = 0 then (-1, tbl)
  else
    let stack := tbl.stNode hashStack.uiIndex
    if stack.stSessKey = addStack.stSessKey then (-2, tbl)
    else
      let tbl := tbl.setNode add fun node =>
        { node with uiTCPPrev := stack.uiIndex, uiTCPNext := stack.uiTCPNext }
      let tbl :=
        if 0 < stack.uiTCPNext then
          if (tbl.stNode stack.uiTCPNext).uiTCPPrev = stack.uiIndex then
            tbl.setNode stack.uiTCPNext fun succ => { succ with uiTCPPrev := addStack.uiIndex }
          else tbl
        else tbl
      (0, tbl.setNode hashStack.uiIndex fun node => { node with uiTCPNext := addStack.uiIndex })

end Nodes

section Chains

/-- The last node of a chain and the number of its nodes; none for a chain without an end. -/
def countLoop (tbl : SesskeyTbl) : Nat → Nat → Nat → Option (Nat × Nat)
  | 0, _, _ => none
  | fuel + 1, uiIndex, dSessCnt =>
      if uiIndex = 0 then some (uiIndex, dSessCnt)
      else if 0 < (tbl.stNode uiIndex).uiTCPNext then
        countLoop tbl fuel (tbl.stNode uiIndex).uiTCPNext (dSessCnt + 1)
      else some (uiIndex, dSessCnt + 1)

/-- A node is taken out of its chain. -/
def unlinkSessKey (tbl : SesskeyTbl) (index : Nat) : SesskeyTbl :=
  let stack := tbl.stNode index
  let tbl :=
    if 0 < stack.uiTCPPrev then
      if (tbl.stNode stack.uiTCPPrev).uiTCPNext = stack.uiIndex then
        tbl.setNode stack.uiTCPPrev fun pred => { pred with uiTCPNext := stack.uiTCPNext }
      else tbl
    else tbl
  if 0 < stack.uiTCPNext then
    if (tbl.stNode stack.uiTCPNext).uiTCPPrev = stack.uiIndex then
      tbl.setNode stack.uiTCPNext fun succ => { succ with uiTCPPrev := stack.uiTCPPrev }
    else tbl
  else tbl

/-- The loop that `dDelSessKeyNext` and `dDelSessKeyList` share, from the last node back to the head:
the nodes that are doomed are deleted, the others counted. -/
def delLoop (doomed : SesskeyList → Bool) :
    Nat → Nat → SesskeyTbl → SesskeyList → Nat → Nat × SesskeyTbl × SesskeyList
  | 0, _, tbl, delStack, dCurrSessCnt => (dCurrSessCnt, tbl, delStack)
  | left + 1, index, tbl, delStack, dCurrSessCnt =>
      if index = 0 then (dCurrSessCnt, tbl, delStack)
      else
        let uiIndex := (tbl.stNode index).uiTCPPrev
        if doomed (tbl.stNode index) then
          let tbl := unlinkSessKey tbl index
          let delStack :=
            if left = 0 ∧ 0 < (tbl.stNode index).uiTCPNext then
              tbl.stNode (tbl.stNode index).uiTCPNext
            else delStack
          delLoop doomed left uiIndex (freeSessKeyList tbl index) delStack dCurrSessCnt
        else delLoop doomed left uiIndex tbl delStack (dCurrSessCnt + 1)

def delSessKeys (doomed : SesskeyList → Bool) (tbl : SesskeyTbl) (delStack : SesskeyList) :
    Option (Int × SesskeyTbl × SesskeyList) :=
  if delStack.uiIndex ≥ MAX_SESSKEY_LIST ∨ delStack.uiIndex = 0 then some (-1, tbl, delStack)
  else do
    let (uiIndex, dSessCnt) ← countLoop tbl MAX_SESSKEY_LIST delStack.uiIndex 0
    let (dCurrSessCnt, tbl, delStack) := delLoop doomed dSessCnt uiIndex tbl delStack 0
    some (dCurrSessCnt, tbl, delStack)

def dDelSessKeyNext (tbl : SesskeyTbl) (delStack : SesskeyList) (key : TcpSessKey) :
    Option (Int × SesskeyTbl × SesskeyList) :=
  delSessKeys (fun node => node.stSessKey = key) tbl delStack

def dDelSessKeyList (tbl : SesskeyTbl) (delStack : SesskeyList) (uiLastLogTime : Nat) :
    Option (Int × SesskeyTbl × SesskeyList) :=
  delSessKeys (fun node => uiLastLogTime = 0 ∨ node.SessStartTime < uiLastLogTime) tbl delStack

end Chains

section Callers

/-- `stack` is the copy in the data of a node of the table of clients, by node. -/
structure SessKeys where
  pstSESSKEYTBL : SesskeyTbl
  pSESSKEYINFO : HashoInfo
  stack : Nat → SesskeyList

def SessKeys.setStack (state : SessKeys) (p : Nat) (copy : SesskeyList) : SessKeys :=
  { state with stack := Function.update state.stack p copy }

/-- The bytes of a `CALL_KEY`. -/
def callKey (uiSrcIP : Nat) : List UInt8 := le32 uiSrcIP ++ le32 0

/-- Both segments are new. -/
def initSessKeys (rawNode : Nat → SesskeyList) (rawHash : HashoInfo) (rawStack : Nat → SesskeyList)
    (SESSKEY_LIST_SIZE CALL_SESS_CNT : Nat) : SessKeys where
  pstSESSKEYTBL := initTCPKeyList rawNode
  pSESSKEYINFO := hashoInit rawHash STOP_CALL_KEY_SIZE SESSKEY_LIST_SIZE CALL_SESS_CNT
  stack := rawStack

variable (hash : List UInt8 → Nat)

/-- A new node with the key of the session. -/
def newNode (tbl : SesskeyTbl) (index : Nat) (key : TcpSessKey) (uiSessCreateTime : Nat) :
    SesskeyTbl :=
  tbl.setNode index fun node => { node with stSessKey := key, SessStartTime := uiSessCreateTime }

def dCheckSessKeyList (state : SessKeys) (key : TcpSessKey) (uiSessCreateTime : Nat) :
    Option (Int × SessKeys) := do
  match ← hashoFind hash state.pSESSKEYINFO (callKey key.uiSIP) with
  | none =>
      match pGetSessKeyList state.pstSESSKEYTBL with
      | (none, tbl) => some (-1, { state with pstSESSKEYTBL := tbl })
      | (some index, tbl) => do
          let tbl := newNode tbl index key uiSessCreateTime
          let (node, table) ← hashoAdd hash state.pSESSKEYINFO (callKey key.uiSIP)
            (List.replicate state.pSESSKEYINFO.usDataLen 0)
          let state := { state with pstSESSKEYTBL := tbl, pSESSKEYINFO := table }
          match node with
          | none => some (0, state)
          | some p => some (0, state.setStack p (tbl.stNode index))
  | some p =>
      match pGetSessKeyList state.pstSESSKEYTBL with
      | (none, tbl) => some (-2, { state with pstSESSKEYTBL := tbl })
      | (some index, tbl) =>
          let tbl := newNode tbl index key uiSessCreateTime
          let (dRet, tbl) := dAddSessKeyNext tbl (state.stack p) index
          if dRet < 0 then some (-3, { state with pstSESSKEYTBL := freeSessKeyList tbl index })
          else some (0, { state with pstSESSKEYTBL := tbl })

/-- What `Delete_SessList` and the main loop at CLEAR_CALL do with the list of a client. -/
def delSessList (state : SessKeys) (pCALLKey : List UInt8)
    (del : SesskeyTbl → SesskeyList → Option (Int × SesskeyTbl × SesskeyList)) : Option SessKeys := do
  match ← hashoFind hash state.pSESSKEYINFO pCALLKey with
  | none => some state
  | some p => do
      let (dRet, tbl, copy) ← del state.pstSESSKEYTBL (state.stack p)
      let state := { state with pstSESSKEYTBL := tbl }.setStack p copy
      if dRet = 0 then do
        let table ← hashoDel hash state.pSESSKEYINFO pCALLKey
        some { state with pSESSKEYINFO := table }
      else some state

inductive Call where
  | check (key : TcpSessKey) (uiSessCreateTime : Nat)
  | delete (key : TcpSessKey)
  | clear (uiSrcIP uiLastLogTime : Nat)

def SessKeys.step (state : SessKeys) : Call → Option SessKeys
  | .check key uiSessCreateTime =>
      (dCheckSessKeyList hash state key uiSessCreateTime).map Prod.snd
  | .delete key =>
      delSessList hash state (callKey key.uiSIP) fun tbl stack => dDelSessKeyNext tbl stack key
  | .clear uiSrcIP uiLastLogTime =>
      delSessList hash state (callKey uiSrcIP) fun tbl stack =>
        dDelSessKeyList tbl stack uiLastLogTime

end Callers

end Upst.SessKey
