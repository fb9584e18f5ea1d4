import Upst.Avl
import Upst.Bytes

/-!
The GREENTRY table of the main-memory database: records in an array, linked by
index into an AVL tree, with the unused records chained through `right`. `-1` in a
link of the source is `none` here. Where the source follows a link that leads to no
record, or writes behind `stack[100]`, a step has no result. Code that the source
writes once for each side is one definition with the side as its parameter, and
`LEFTSIDE` and `RIGHTSIDE` are the signs of the two sides.
-/

namespace Upst.Greentry

open Avl Bytes

set_option autoImplicit false

def JMM_GREENTRY_RECORD : Nat := 50002

structure GreentryKey where
  uiPCFIP : UInt32
  uiGREKey : UInt32
  deriving DecidableEq, Repr

def keyBytes (key : GreentryKey) : List UInt8 :=
  le32 key.uiPCFIP.toNat ++ le32 key.uiGREKey.toNat

/-- The difference of the first two bytes that differ. -/
def memcmp : List UInt8 → List UInt8 → Int
  | x :: xs, y :: ys => if x = y then memcmp xs ys else (x.toNat : Int) - y.toNat
  | _, _ => 0

def memcmpKey (first second : GreentryKey) : Int :=
  memcmp (keyBytes first) (keyBytes second)

structure GreentryType where
  key : GreentryKey
  body : Int64
  left : Option Nat
  right : Option Nat
  bf : Int
  deriving DecidableEq, Repr

abbrev Tuples := Nat → GreentryType

structure GreentryTable where
  tuple : Tuples
  free : Nat
  root : Option Nat
  used : Int

def GreentryType.child (side : Side) (node : GreentryType) : Option Nat :=
  match side with
  | .left => node.left
  | .right => node.right

def GreentryType.withChild (side : Side) (link : Option Nat) (node : GreentryType) :
    GreentryType :=
  match side with
  | .left => { node with left := link }
  | .right => { node with right := link }

def setChild (tuple : Tuples) (index : Nat) (side : Side) (link : Option Nat) : Tuples :=
  Function.update tuple index ((tuple index).withChild side link)

def setBf (tuple : Tuples) (index : Nat) (bf : Int) : Tuples :=
  Function.update tuple index { tuple index with bf := bf }

/-- Copy key and body of one record to another. -/
def setData (tuple : Tuples) (index source : Nat) : Tuples :=
  Function.update tuple index
    { tuple index with
      key := (tuple source).key
      body := (tuple source).body }

/-- `get_greentry`: a link to a record of the table, or NULL. -/
def getGreentry (link : Option Nat) : Option Nat :=
  link.filter (· < JMM_GREENTRY_RECORD)

section FreeList

def initGreentry (raw : GreentryTable) : GreentryTable where
  tuple := fun index =>
    if index < JMM_GREENTRY_RECORD - 1 then { raw.tuple index with right := some (index + 1) }
    else if index = JMM_GREENTRY_RECORD - 1 then { raw.tuple index with right := none }
    else raw.tuple index
  free := 0
  root := none
  used := 0

/-- The last record of the free list is never handed out. -/
def greentryAlloc (tbl : GreentryTable) : Option (Nat × GreentryTable) :=
  match (tbl.tuple tbl.free).right with
  | none => none
  | some next => if tbl.free = next then none else some (tbl.free, { tbl with free := next })

def greentryDealloc (tbl : GreentryTable) (index : Nat) : GreentryTable :=
  let tuple := setChild tbl.tuple index .right (tbl.tuple tbl.free).right
  { tbl with tuple := setChild tuple tbl.free .right (some index) }

end FreeList

section Rotation

/-- `node->left = child->right; child->right = index`, and its mirror image. -/
def rotateSingle (side : Side) (tuple : Tuples) (index child : Nat) (bf childBf : Int) :
    Tuples :=
  let tuple := setChild tuple index side ((tuple child).child side.other)
  let tuple := setChild tuple child side.other (some index)
  setBf (setBf tuple index bf) child childBf

/-- The double rotation with its `switch` over the balance of the grandchild. -/
def rotateDouble (side : Side) (tuple : Tuples) (index child grand : Nat) : Tuples :=
  let tuple := setChild tuple child side.other ((tuple grand).child side)
  let tuple := setChild tuple index side ((tuple grand).child side.other)
  let tuple := setChild tuple grand side (some child)
  let tuple := setChild tuple grand side.other (some index)
  let factors := doubleFactors side (tuple grand).bf
  setBf (setBf (setBf tuple index factors.1) child factors.2) grand 0

/-- The common body of the two rotations of the delete path: the records, the new
value of `*pindex`, and the return value. -/
def rotation (side : Side) (tuple : Tuples) (index : Nat) : Option (Tuples × Nat × Int) := do
  let child ← getGreentry ((tuple index).child side)
  if (tuple child).bf = side.sign then
    some (rotateSingle side tuple index child 0 0, child, 1)
  else if (tuple child).bf = -side.sign then do
    let grand ← getGreentry ((tuple child).child side.other)
    some (rotateDouble side tuple index child grand, grand, 1)
  else some (rotateSingle side tuple index child side.sign (-side.sign), child, 0)

def leftRotationGreentry : Tuples → Nat → Option (Tuples × Nat × Int) := rotation .left

def rightRotationGreentry : Tuples → Nat → Option (Tuples × Nat × Int) := rotation .right

end Rotation

section Insert

/-- The side a search for `key` takes at `node`, unless the keys are equal. -/
def searchSide (key nodeKey : GreentryKey) : Side :=
  if memcmpKey key nodeKey < 0 then .left else .right

/-- Phase 1 of `avl_insert_greentry`: `Q` is the parent of the place, `Ai` the last node
passed with a balance other than 0 (or the root), `F` the parent of that node. -/
def insertSearch (tuple : Tuples) (key : GreentryKey) :
    Nat → Option Nat → Option Nat → Option Nat → Option Nat →
      Option (Except Int (Option Nat × Option Nat × Option Nat))
  | 0, _, _, _, _ => none
  | _ + 1, none, Q, F, Ai => some (.ok (Q, F, Ai))
  | fuel + 1, some Pi, Q, F, Ai => do
      let P ← getGreentry (some Pi)
      let F' := if (tuple P).bf ≠ 0 then Q else F
      let Ai' := if (tuple P).bf ≠ 0 then some Pi else Ai
      if memcmpKey key (tuple P).key = 0 then some (.error 1)
      else
        let child := (tuple P).child (searchSide key (tuple P).key)
        if some Pi = child then some (.error (-2))
        else insertSearch tuple key fuel child (some P) F' Ai'

/-- The side of `A` and of the nodes below it: right when the key is greater. -/
def walkSide (key nodeKey : GreentryKey) : Side :=
  if memcmpKey key nodeKey > 0 then .right else .left

/-- The loop from `A` down to the new node. -/
def insertWalk (key : GreentryKey) (insert : Nat) :
    Nat → Tuples → Nat → Option (Int × Tuples)
  | 0, _, _ => none
  | fuel + 1, tuple, P =>
      if P = insert then some (0, tuple)
      else
        let side := walkSide key (tuple P).key
        let tuple := setBf tuple P side.sign
        match getGreentry ((tuple P).child side) with
        | none => some (-1, tuple)
        | some next => insertWalk key insert fuel tuple next

/-- The four rotations of `avl_insert_greentry`, with the new root of the subtree. -/
def insertRotate (side : Side) (tuple : Tuples) (A B : Nat) : Option (Tuples × Nat) :=
  if (tuple B).bf = side.sign then some (rotateSingle side tuple A B 0 0, B)
  else do
    let C ← getGreentry ((tuple B).child side.other)
    some (rotateDouble side tuple A B C, C)

/-- The link that led to `old` now leads to `new`. -/
def insertRelink (tbl : GreentryTable) (F : Option Nat) (old new : Nat) : GreentryTable :=
  match F with
  | none => { tbl with root := some new }
  | some F =>
      if some old = (tbl.tuple F).left then
        { tbl with tuple := setChild tbl.tuple F .left (some new) }
      else if some old = (tbl.tuple F).right then
        { tbl with tuple := setChild tbl.tuple F .right (some new) }
      else tbl

/-- The last part of the rebalancing: the balance of `A`, or a rotation there. -/
def insertTurn (tbl : GreentryTable) (side : Side) (F : Option Nat) (A B : Nat) :
    Option GreentryTable :=
  if (tbl.tuple A).bf = 0 then some { tbl with tuple := setBf tbl.tuple A side.sign }
  else if (tbl.tuple A).bf + side.sign = 0 then some { tbl with tuple := setBf tbl.tuple A 0 }
  else do
    let (tuple, top) ← insertRotate side tbl.tuple A B
    some (insertRelink { tbl with tuple := tuple } F A top)

/-- The rebalancing of `avl_insert_greentry` below `A`, the new node already linked. -/
def insertRebalance (tbl : GreentryTable) (key : GreentryKey) (index : Nat)
    (F Ai : Option Nat) : Option (Int × GreentryTable) := do
  let A ← getGreentry Ai
  let side := walkSide key (tbl.tuple A).key
  let B ← getGreentry ((tbl.tuple A).child side)
  let (code, tuple) ← insertWalk key index (JMM_GREENTRY_RECORD + 1) tbl.tuple B
  if code ≠ 0 then some (code, { tbl with tuple := tuple })
  else do
    let tbl ← insertTurn { tbl with tuple := tuple } side F A B
    some (0, tbl)

def avlInsertGreentry (tbl : GreentryTable) (key : GreentryKey) (body : Int64) :
    Option (Int × GreentryTable) := do
  match ← insertSearch tbl.tuple key (JMM_GREENTRY_RECORD + 1) tbl.root none none tbl.root with
  | .error code => some (code, tbl)
  | .ok (Q, F, Ai) =>
      match greentryAlloc tbl with
      | none => some (-1, tbl)
      | some (index, tbl) =>
          let tuple := Function.update tbl.tuple index
            { key := key
              body := body
              left := none
              right := none
              bf := 0 }
          match Q with
          | none => some (0, { tbl with tuple := tuple, root := some index })
          | some Q =>
              let tuple := setChild tuple Q (searchSide key (tuple Q).key) (some index)
              insertRebalance { tbl with tuple := tuple } key index F Ai

end Insert

section Delete

/-- `stack[top++] = entry`; the list is the stack from its top down. -/
def pushStack (entry : Nat) (stack : List (Option Nat)) : Option (List (Option Nat)) :=
  if stack.length < 100 then some (some entry :: stack) else none

/-- The search of `avl_delete_greentry`: the node found, its parent and the stack. -/
def deleteSearch (tuple : Tuples) (delkey : GreentryKey) :
    Nat → Option Nat → Option Nat → List (Option Nat) →
      Option (Except Int (Nat × Option Nat × List (Option Nat)))
  | 0, _, _, _ => none
  | _ + 1, none, _, _ => some (.error 1)
  | fuel + 1, some dindex, pre, stack => do
      let stack ← pushStack dindex stack
      let delnode ← getGreentry (some dindex)
      if memcmpKey delkey (tuple delnode).key = 0 then some (.ok (dindex, pre, stack))
      else
        let child := (tuple delnode).child (searchSide delkey (tuple delnode).key)
        if some dindex = child then some (.error (-2))
        else deleteSearch tuple delkey fuel child (some delnode) stack

/-- The walk to the last node on one side of a subtree, pushing the nodes passed. -/
def extremeLoop (tuple : Tuples) (side : Side) :
    Nat → Nat → Option Nat → List (Option Nat) → Option (Nat × Option Nat × List (Option Nat))
  | 0, _, _, _ => none
  | fuel + 1, del, pre, stack =>
      match (tuple del).child side with
      | none => some (del, pre, stack)
      | some next => do
          let stack ← pushStack del stack
          let next ← getGreentry (some next)
          extremeLoop tuple side fuel next (some del) stack

/-- Where a rotated subtree hangs: `root`, or the child field of the parent, looked up
on the right first. -/
def deletePindex (tuple : Tuples) (pre : Option Nat) (rindex : Nat) :
    Option (Option (Nat × Side)) :=
  match pre with
  | none => some none
  | some pre =>
      if (tuple pre).right = some rindex then some (some (pre, .right))
      else if (tuple pre).left = some rindex then some (some (pre, .left))
      else none

def setPindex (tbl : GreentryTable) (place : Option (Nat × Side)) (index : Nat) :
    GreentryTable :=
  match place with
  | none => { tbl with root := some index }
  | some (pre, side) => { tbl with tuple := setChild tbl.tuple pre side (some index) }

/-- One turn of the loop of step 3 at `rindex`, whose subtree on `shrunk` lost a level.
The flag says whether the loop goes on. -/
def rebalanceStep (shrunk : Side) (tbl : GreentryTable) (rindex : Nat) (pre : Option Nat) :
    Option (Bool × GreentryTable) :=
  if (tbl.tuple rindex).bf = -shrunk.sign then
    match deletePindex tbl.tuple pre rindex with
    | some place => do
        let (tuple, top, lower) ← rotation shrunk.other tbl.tuple rindex
        some (lower ≠ 0, setPindex { tbl with tuple := tuple } place top)
    | none =>
        -- only `case LEFTSIDE` of the first switch falls through to `case 0`
        match shrunk with
        | .right => some (false, { tbl with tuple := setBf tbl.tuple rindex Side.left.sign })
        | .left => some (true, tbl)
  else if (tbl.tuple rindex).bf = 0 then
    some (false, { tbl with tuple := setBf tbl.tuple rindex (-shrunk.sign) })
  else if (tbl.tuple rindex).bf = shrunk.sign then
    some (true, { tbl with tuple := setBf tbl.tuple rindex 0 })
  else some (true, tbl)

/-- Step 3: up to the root, as long as `top > 1`. -/
def rebalanceLoop : List (Option Nat) → Int → GreentryTable → Option GreentryTable
  | entry :: parent :: rest, side, tbl => do
      let rindex ← getGreentry entry
      let pre := getGreentry parent
      let (goesOn, tbl) ← rebalanceStep (if side < 0 then .right else .left) tbl rindex pre
      if goesOn then
        match pre with
        | none => some tbl
        | some above =>
            if rest = [] then some tbl
            else
              rebalanceLoop (parent :: rest)
                (memcmpKey (tbl.tuple above).key (tbl.tuple rindex).key) tbl
      else some tbl
  | _, _, tbl => some tbl

/-- The node has one child or none: `child` takes its place. -/
def deleteUnlink (tbl : GreentryTable) (delkey : GreentryKey) (dindex : Nat)
    (pre child : Option Nat) (stack : List (Option Nat)) : Option GreentryTable :=
  match pre with
  | none => some (greentryDealloc { tbl with root := child } dindex)
  | some pre =>
      let side := walkSide delkey (tbl.tuple pre).key
      rebalanceLoop stack.tail side.sign
        (greentryDealloc { tbl with tuple := setChild tbl.tuple pre side child } dindex)

/-- The node takes over the record of the last node on `side` of its other subtree,
`del`, when that is not the root of the subtree. -/
def deleteDeep (tbl : GreentryTable) (side : Side) (dindex del : Nat)
    (stack : List (Option Nat)) : Option GreentryTable := do
  let (last, pre, stack) ← extremeLoop tbl.tuple side (JMM_GREENTRY_RECORD + 1) del none stack
  let above ← pre
  let tuple := setChild tbl.tuple above side ((tbl.tuple last).child side.other)
  rebalanceLoop stack side.sign
    (greentryDealloc { tbl with tuple := setData tuple dindex last } last)

/-- The node takes over the record of its child on `side`, and the subtree behind it. -/
def deleteShallow (tbl : GreentryTable) (side : Side) (dindex child : Nat) : GreentryTable :=
  let tuple := setData tbl.tuple dindex child
  let tuple := setChild tuple dindex side ((tuple child).child side)
  let tuple := setBf tuple dindex ((tuple dindex).bf - side.sign)
  greentryDealloc { tbl with tuple := tuple } child

/-- Both children are there and neither has a child towards the other. -/
def deleteNear (tbl : GreentryTable) (delkey : GreentryKey) (dindex delLeft delRight : Nat)
    (pre : Option Nat) (stack : List (Option Nat)) : Option GreentryTable :=
  match pre with
  | none => do
      let thenode ← getGreentry tbl.root
      if (tbl.tuple thenode).bf ≥ 0 then some (deleteShallow tbl .left thenode delLeft)
      else some (deleteShallow tbl .right thenode delRight)
  | some pre =>
      let side := walkSide delkey (tbl.tuple pre).key
      if (tbl.tuple dindex).bf > 0 then
        rebalanceLoop stack.tail side.sign (deleteShallow tbl .left dindex delLeft)
      else if (tbl.tuple dindex).bf = 0 then some (deleteShallow tbl .left dindex delLeft)
      else rebalanceLoop stack.tail side.sign (deleteShallow tbl .right dindex delRight)

/-- The part of `avl_delete_greentry` after the search. -/
def deleteNode (tbl : GreentryTable) (delkey : GreentryKey) (dindex : Nat) (pre : Option Nat)
    (stack : List (Option Nat)) : Option GreentryTable :=
  match (tbl.tuple dindex).left, (tbl.tuple dindex).right with
  | some delLeft, some delRight => do
      let leftNode ← getGreentry (some delLeft)
      let rightNode ← getGreentry (some delRight)
      if (tbl.tuple leftNode).right ≠ none then deleteDeep tbl .right dindex delLeft stack
      else if (tbl.tuple rightNode).left ≠ none then deleteDeep tbl .left dindex delRight stack
      else deleteNear tbl delkey dindex delLeft delRight pre stack
  | left, none => deleteUnlink tbl delkey dindex pre left stack
  | none, some right => deleteUnlink tbl delkey dindex pre (some right) stack

def avlDeleteGreentry (tbl : GreentryTable) (delkey : GreentryKey) :
    Option (Int × GreentryTable) := do
  match ← deleteSearch tbl.tuple delkey (JMM_GREENTRY_RECORD + 1) tbl.root none [none] with
  | .error code => some (code, tbl)
  | .ok (dindex, pre, stack) => do
      let tbl ← deleteNode tbl delkey dindex pre stack
      some (0, tbl)

end Delete

section Api

def insertGREENTRY (tbl : GreentryTable) (key : GreentryKey) (body : Int64) :
    Option (Int × GreentryTable) := do
  let (ret, tbl) ← avlInsertGreentry tbl key body
  some (ret, if ret = 0 then { tbl with used := tbl.used + 1 } else tbl)

def deleteGREENTRY (tbl : GreentryTable) (key : GreentryKey) :
    Option (Int × GreentryTable) := do
  let (ret, tbl) ← avlDeleteGreentry tbl key
  some (ret, if ret = 0 then { tbl with used := tbl.used - 1 } else tbl)

inductive Op where
  | insert (key : GreentryKey) (body : Int64)
  | delete (key : GreentryKey)
  deriving DecidableEq, Repr

def step (tbl : GreentryTable) : Op → Option (Int × GreentryTable)
  | .insert key body => insertGREENTRY tbl key body
  | .delete key => deleteGREENTRY tbl key

/-- The return values of a sequence of calls, and the table after it. -/
def run (tbl : GreentryTable) : List Op → Option (List Int × GreentryTable)
  | [] => some ([], tbl)
  | op :: rest => do
      let (ret, tbl) ← step tbl op
      let (rets, tbl) ← run tbl rest
      some (ret :: rets, tbl)

end Api

end Upst.Greentry
