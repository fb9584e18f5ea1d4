import Mathlib.Data.Int.Init
import Mathlib.Data.List.Perm.Basic
import Mathlib.Data.List.Flatten
import Mathlib.Logic.Function.Basic
import Mathlib.Tactic.Push

/-!
The batches of PRE_A for the A_INET processes. One ring, one count and one batch size for each
destination index, and a batch goes to its channel when the count passes the size.
-/

namespace Upst.PreaBuffer

set_option autoImplicit false

section Model

abbrev maxMpNum : Nat := 5
def collectionMax : UInt32 := 100
def collectionMin : UInt32 := 50
def collectionTime : UInt32 := 5
def collectionMultiply : UInt32 := 2

/-- The static variables of one index. The ring is empty where `Send_Node_Head` is null. -/
structure Buffer where
  sendNodeHead : List Nat
  sendNodeCnt : UInt32
  collectionCnt : UInt32
  oldTime : UInt32
  checkPkt : UInt32
  deriving DecidableEq

/-- A call for a node, or with no node to flush, and what `gifo_write` returns in it. -/
structure Call where
  pNode : Option Nat
  sec : UInt32
  index : Fin maxMpNum
  written : Int32

/-- The new node is linked before the head of the ring, which is its end. -/
def link (buffer : Buffer) : Option Nat → Buffer
  | none => { buffer with collectionCnt := 0 }
  | some pNode =>
    { buffer with
      sendNodeHead := buffer.sendNodeHead ++ [pNode]
      sendNodeCnt := buffer.sendNodeCnt + 1
      checkPkt := buffer.checkPkt + 1 }

/-- The batch size follows the rate of the packets. -/
def adjust (sec : UInt32) (buffer : Buffer) : Buffer :=
  if buffer.oldTime + collectionTime < sec then
    let rate := buffer.checkPkt / collectionTime
    let size :=
      if rate > buffer.collectionCnt * collectionMultiply then
        let size := buffer.collectionCnt * collectionMultiply
        if size > collectionMax then collectionMax else size
      else if rate < buffer.collectionCnt / collectionMultiply then
        let size := buffer.collectionCnt / collectionMultiply
        if size < collectionMin then collectionMin else size
      else buffer.collectionCnt
    { buffer with collectionCnt := size, checkPkt := 0, oldTime := sec }
  else buffer

/-- The result of `gifo_write` is kept in an unsigned word before it is compared with zero. -/
def dSendPreabuffData (buffer : Buffer) (call : Call) : Int × Buffer :=
  let held := link buffer call.pNode
  if held.sendNodeCnt > held.collectionCnt then
    let dRet : UInt32 := call.written.toUInt32
    if dRet < 0 then (-1, held)
    else (0, adjust call.sec { held with sendNodeCnt := 0, sendNodeHead := [] })
  else (0, adjust call.sec held)

/-- The call reaches `gifo_write`. -/
def Writes (buffer : Buffer) (call : Call) : Prop :=
  (link buffer call.pNode).sendNodeCnt > (link buffer call.pNode).collectionCnt

instance (buffer : Buffer) (call : Call) : Decidable (Writes buffer call) :=
  inferInstanceAs (Decidable (_ > _))

/-- The buffer of an index, the nodes it was passed, the rings its channel took and the nodes
the caller freed. -/
structure Account where
  buffer : Buffer
  passed : List Nat
  accepted : List (List Nat)
  freed : List Nat

/-- `gifo_write` takes the ring unless it fails. The caller frees the ring of its node on a
negative result. -/
def forward (account : Account) (call : Call) : Account :=
  let held := link account.buffer call.pNode
  let (dRet, buffer) := dSendPreabuffData account.buffer call
  { buffer := buffer
    passed := account.passed ++ call.pNode.toList
    accepted :=
      if Writes account.buffer call ∧ 0 ≤ call.written then
        account.accepted ++ [held.sendNodeHead]
      else account.accepted
    freed :=
      if dRet < 0 ∧ call.pNode.isSome then account.freed ++ buffer.sendNodeHead
      else account.freed }

abbrev Accounts := Fin maxMpNum → Account

def initial (collectionCnt : Fin maxMpNum → UInt32) : Accounts := fun index =>
  { buffer :=
      { sendNodeHead := [], sendNodeCnt := 0, collectionCnt := collectionCnt index
        oldTime := 0, checkPkt := 0 }
    passed := []
    accepted := []
    freed := [] }

def turn (accounts : Accounts) (call : Call) : Accounts :=
  Function.update accounts call.index (forward (accounts call.index) call)

def run (accounts : Accounts) (calls : List Call) : Accounts :=
  calls.foldl turn accounts

end Model

section Purpose

/-- Every node passed in is in one place, and the count is that of the ring. -/
structure Placed (account : Account) : Prop where
  placed : account.passed.Perm
    (account.accepted.flatten ++ account.freed ++ account.buffer.sendNodeHead)
  arrival : account.buffer.sendNodeHead.Sublist account.passed
  count : account.buffer.sendNodeCnt.toNat = account.buffer.sendNodeHead.length

/-- No call of the run reaches `gifo_write` and gets a failure from it. -/
def NoneFails (accounts : Accounts) (calls : List Call) : Prop :=
  ∀ front call back, calls = front ++ call :: back →
    Writes (run accounts front call.index).buffer call → 0 ≤ call.written

end Purpose

section Step

variable {buffer : Buffer} {call : Call} {account : Account}

/-- No word is below zero, so the failure is never seen. -/
theorem send_cases :
    dSendPreabuffData buffer call =
      (0, adjust call.sec
        (if Writes buffer call then
          { link buffer call.pNode with sendNodeCnt := 0, sendNodeHead := [] }
        else link buffer call.pNode)) := by
  have unsigned : ¬ call.written.toUInt32 < 0 := by
    rw [UInt32.lt_iff_toNat_lt]
    exact Nat.not_lt_zero _
  unfold dSendPreabuffData
  dsimp only
  by_cases full : Writes buffer call
  · have above : (link buffer call.pNode).sendNodeCnt > (link buffer call.pNode).collectionCnt := full
    rw [if_pos above, if_neg unsigned, if_pos full]
  · have within :
        ¬ (link buffer call.pNode).sendNodeCnt > (link buffer call.pNode).collectionCnt := full
    rw [if_neg within, if_neg full]

@[simp] theorem adjust_head (sec : UInt32) :
    (adjust sec buffer).sendNodeHead = buffer.sendNodeHead := by
  unfold adjust
  split <;> rfl

@[simp] theorem adjust_count (sec : UInt32) :
    (adjust sec buffer).sendNodeCnt = buffer.sendNodeCnt := by
  unfold adjust
  split <;> rfl

theorem adjust_size (sec : UInt32) (bounded : buffer.collectionCnt ≤ collectionMax) :
    (adjust sec buffer).collectionCnt ≤ collectionMax := by
  have bound : buffer.collectionCnt.toNat ≤ 100 := UInt32.le_iff_toNat_le.mp bounded
  unfold adjust
  dsimp only
  split
  · dsimp only
    rw [UInt32.le_iff_toNat_le]
    split
    · split
      · exact Nat.le_refl _
      · rename_i small
        exact UInt32.le_iff_toNat_le.mp (UInt32.not_lt.mp small)
    · split
      · split
        · decide
        · rw [UInt32.toNat_div]
          exact Nat.le_trans (Nat.div_le_self _ _) bound
      · exact bound
  · exact bounded

/-- The nodes a call loses: the whole ring, when the write fails. -/
def dropped (account : Account) (call : Call) : List Nat :=
  if Writes account.buffer call ∧ ¬ 0 ≤ call.written then
    (link account.buffer call.pNode).sendNodeHead
  else []

/-- What each call keeps, failed or not. -/
structure Counted (account : Account) : Prop where
  count : account.buffer.sendNodeCnt.toNat = account.buffer.sendNodeHead.length
  small : account.buffer.sendNodeCnt ≤ collectionMax
  size : account.buffer.collectionCnt ≤ collectionMax
  arrival : account.buffer.sendNodeHead <:+ account.passed

theorem link_head (buffer : Buffer) (pNode : Option Nat) :
    (link buffer pNode).sendNodeHead = buffer.sendNodeHead ++ pNode.toList := by
  cases pNode with
  | none => exact (List.append_nil _).symm
  | some pNode => rfl

theorem link_count (counted : Counted account) (pNode : Option Nat) :
    (link account.buffer pNode).sendNodeCnt.toNat =
      (link account.buffer pNode).sendNodeHead.length := by
  cases pNode with
  | none => exact counted.count
  | some pNode =>
    have small : account.buffer.sendNodeCnt.toNat ≤ 100 := UInt32.le_iff_toNat_le.mp counted.small
    have next : (account.buffer.sendNodeCnt + 1).toNat = account.buffer.sendNodeCnt.toNat + 1 := by
      rw [UInt32.toNat_add, UInt32.toNat_one]
      exact Nat.mod_eq_of_lt (by omega)
    rw [link_head, List.length_append, ← counted.count]
    exact next

theorem link_size (counted : Counted account) (pNode : Option Nat) :
    (link account.buffer pNode).collectionCnt ≤ collectionMax := by
  cases pNode with
  | none => exact UInt32.zero_le
  | some pNode => exact counted.size

/-- The buffer after a call, whatever the write returned. -/
theorem forward_buffer :
    (forward account call).buffer = adjust call.sec
      (if Writes account.buffer call then
        { link account.buffer call.pNode with sendNodeCnt := 0, sendNodeHead := [] }
      else link account.buffer call.pNode) := by
  unfold forward
  rw [send_cases]

theorem forward_freed : (forward account call).freed = account.freed := by
  unfold forward
  rw [send_cases]
  dsimp only
  apply if_neg
  intro ⟨negative, _⟩
  exact absurd negative (Int.lt_irrefl 0)

theorem forward_head :
    (forward account call).buffer.sendNodeHead =
      if Writes account.buffer call then []
      else account.buffer.sendNodeHead ++ call.pNode.toList := by
  rw [forward_buffer, adjust_head]
  split
  · rfl
  · exact link_head account.buffer call.pNode

theorem forward_counted (counted : Counted account) : Counted (forward account call) := by
  have size : (forward account call).buffer.collectionCnt ≤ collectionMax := by
    rw [forward_buffer]
    apply adjust_size
    split
    · exact link_size counted call.pNode
    · exact link_size counted call.pNode
  have passed : (forward account call).passed = account.passed ++ call.pNode.toList := rfl
  by_cases full : Writes account.buffer call
  · have emptied : (forward account call).buffer.sendNodeHead = [] := by
      rw [forward_head, if_pos full]
    have zero : (forward account call).buffer.sendNodeCnt = 0 := by
      rw [forward_buffer, if_pos full, adjust_count]
    constructor
    · rw [zero, emptied]
      rfl
    · rw [zero]
      exact UInt32.zero_le
    · exact size
    · rw [emptied]
      exact List.nil_suffix
  · have kept : (forward account call).buffer.sendNodeCnt =
        (link account.buffer call.pNode).sendNodeCnt := by
      rw [forward_buffer, if_neg full, adjust_count]
    have head : (forward account call).buffer.sendNodeHead =
        account.buffer.sendNodeHead ++ call.pNode.toList := by
      rw [forward_head, if_neg full]
    constructor
    · rw [kept, head, link_count counted, link_head]
    · rw [kept]
      exact UInt32.le_trans (UInt32.not_lt.mp full) (link_size counted call.pNode)
    · exact size
    · rw [head, passed]
      obtain ⟨older, order⟩ := counted.arrival
      exact ⟨older, by rw [← order, List.append_assoc]⟩

/-- A write that fails has a ring to lose. -/
theorem dropped_nil (counted : Counted account) :
    dropped account call = [] ↔ (Writes account.buffer call → 0 ≤ call.written) := by
  unfold dropped
  by_cases full : Writes account.buffer call
  · have held : (link account.buffer call.pNode).sendNodeHead ≠ [] := by
      intro empty
      have count := link_count counted call.pNode
      rw [empty] at count
      have above := UInt32.lt_iff_toNat_lt.mp full
      rw [count] at above
      exact Nat.not_lt_zero _ above
    by_cases taken : 0 ≤ call.written
    · rw [if_neg fun failed => failed.2 taken]
      exact iff_of_true rfl fun _ => taken
    · rw [if_pos ⟨full, taken⟩]
      exact iff_of_false held fun all => taken (all full)
  · rw [if_neg fun failed => full failed.1]
    exact iff_of_true rfl fun writes => absurd writes full

/-- Every node is accepted, freed, pending or lost. -/
def Split (account : Account) (lost : List Nat) : Prop :=
  account.passed.Perm
    (account.accepted.flatten ++ account.freed ++ account.buffer.sendNodeHead ++ lost)

theorem forward_split {lost : List Nat} (split : Split account lost) :
    Split (forward account call) (dropped account call ++ lost) := by
  have passed : (forward account call).passed = account.passed ++ call.pNode.toList := rfl
  have accepted : (forward account call).accepted =
      if Writes account.buffer call ∧ 0 ≤ call.written then
        account.accepted ++ [(link account.buffer call.pNode).sendNodeHead]
      else account.accepted := rfl
  have grown := List.Perm.append_right call.pNode.toList split
  unfold Split
  rw [passed, accepted, forward_freed, forward_head, dropped, link_head]
  refine grown.trans ?_
  by_cases full : Writes account.buffer call
  · by_cases taken : 0 ≤ call.written
    · rw [if_pos ⟨full, taken⟩, if_pos full, if_neg fun failed => failed.2 taken]
      rw [List.perm_iff_count]
      intro node
      simp only [List.count_append, List.flatten_append, List.flatten_singleton, List.count_nil]
      omega
    · rw [if_neg fun both => taken both.2, if_pos full, if_pos ⟨full, taken⟩]
      rw [List.perm_iff_count]
      intro node
      simp only [List.count_append, List.count_nil]
      omega
  · rw [if_neg fun both => full both.1, if_neg full, if_neg fun failed => full failed.1]
    rw [List.perm_iff_count]
    intro node
    simp only [List.count_append, List.count_nil]
    omega

end Step

section Run

/-- The nodes of one index that the calls of a run lose, the last first. -/
def lost (accounts : Accounts) (index : Fin maxMpNum) : List Call → List Nat
  | [] => []
  | call :: calls =>
    lost (turn accounts call) index calls ++
      if index = call.index then dropped (accounts index) call else []

theorem turn_same (accounts : Accounts) (call : Call) :
    turn accounts call call.index = forward (accounts call.index) call :=
  Function.update_self ..

theorem turn_other (accounts : Accounts) {call : Call} {index : Fin maxMpNum}
    (other : index ≠ call.index) : turn accounts call index = accounts index :=
  Function.update_of_ne other ..

theorem turn_counted {accounts : Accounts} (counted : ∀ index, Counted (accounts index))
    (call : Call) (index : Fin maxMpNum) : Counted (turn accounts call index) := by
  by_cases same : index = call.index
  · rw [same, turn_same]
    exact forward_counted (counted call.index)
  · rw [turn_other accounts same]
    exact counted index

theorem run_counted (calls : List Call) {accounts : Accounts}
    (counted : ∀ index, Counted (accounts index)) :
    ∀ index, Counted (run accounts calls index) := by
  induction calls generalizing accounts with
  | nil => exact counted
  | cons call calls hyp => exact hyp (turn_counted counted call)

theorem run_split (calls : List Call) {accounts : Accounts} {index : Fin maxMpNum}
    {before : List Nat} (split : Split (accounts index) before) :
    Split (run accounts calls index) (lost accounts index calls ++ before) := by
  induction calls generalizing accounts before with
  | nil => exact split
  | cons call calls hyp =>
    unfold lost
    rw [List.append_assoc]
    apply hyp
    by_cases same : index = call.index
    · rw [if_pos same, same, turn_same]
      rw [same] at split
      exact forward_split split
    · rw [if_neg same, turn_other accounts same]
      exact split

theorem lost_nil (calls : List Call) {accounts : Accounts}
    (counted : ∀ index, Counted (accounts index)) :
    (∀ index, lost accounts index calls = []) ↔ NoneFails accounts calls := by
  induction calls generalizing accounts with
  | nil =>
    apply iff_of_true
    · intro index
      rfl
    · intro front call back order
      cases front <;> cases order
  | cons call calls hyp =>
    have rest := hyp (turn_counted counted call)
    have here := @dropped_nil call (accounts call.index) (counted call.index)
    constructor
    · intro lossless front other back order writes
      have later : NoneFails (turn accounts call) calls := by
        apply rest.mp
        intro index
        exact (List.append_eq_nil_iff.mp (lossless index)).1
      cases front with
      | nil =>
        cases order
        have now := (List.append_eq_nil_iff.mp (lossless call.index)).2
        rw [if_pos rfl] at now
        exact here.mp now writes
      | cons head front =>
        cases order
        exact later front other back rfl writes
    · intro fine index
      have later : NoneFails (turn accounts call) calls := by
        intro front other back order writes
        exact fine (call :: front) other back (congrArg (call :: ·) order) writes
      unfold lost
      rw [rest.mpr later index, List.nil_append]
      by_cases same : index = call.index
      · rw [if_pos same, same]
        exact here.mpr (fine [] call calls rfl)
      · exact if_neg same

theorem placed_split {account : Account} (counted : Counted account) {lost : List Nat}
    (split : Split account lost) : Placed account ↔ lost = [] := by
  constructor
  · intro placed
    have all := split.length_eq.symm.trans placed.placed.length_eq
    rw [List.length_append] at all
    exact List.eq_nil_of_length_eq_zero (by omega)
  · intro lossless
    constructor
    · rw [lossless] at split
      unfold Split at split
      rwa [List.append_nil] at split
    · exact counted.arrival.sublist
    · exact counted.count

theorem initial_counted {collectionCnt : Fin maxMpNum → UInt32}
    (bounded : ∀ index, collectionCnt index ≤ collectionMax) (index : Fin maxMpNum) :
    Counted (initial collectionCnt index) := by
  constructor
  · rfl
  · exact UInt32.zero_le
  · exact bounded index
  · exact List.suffix_refl _

/-- After every run of calls on any of the indices, each node is in one place and each count is
right, if and only if no write failed. -/
theorem buffered_send_places_iff (collectionCnt : Fin maxMpNum → UInt32)
    (bounded : ∀ index, collectionCnt index ≤ collectionMax) (calls : List Call) :
    (∀ index, Placed (run (initial collectionCnt) calls index)) ↔
      NoneFails (initial collectionCnt) calls := by
  have counted := initial_counted bounded
  rw [← lost_nil calls counted]
  apply forall_congr'
  intro index
  have start : Split (initial collectionCnt index) [] := List.Perm.refl _
  have split := run_split calls start
  rw [List.append_nil] at split
  exact placed_split (run_counted calls counted index) split

/-- Two packets to an index that holds two, then one flush. -/
theorem buffered_send_places_flush :
    (∀ index, (fun _ => 2 : Fin maxMpNum → UInt32) index ≤ collectionMax) ∧
      ∀ index, Placed (run (initial fun _ => 2)
        [⟨some 64, 1, 3, 0⟩, ⟨some 128, 1, 3, -11⟩, ⟨none, 1, 3, 0⟩] index) := by
  have bounded : ∀ index, (fun _ => 2 : Fin maxMpNum → UInt32) index ≤ collectionMax := by
    decide
  refine ⟨bounded, (buffered_send_places_iff _ bounded _).mpr ?_⟩
  rw [← lost_nil _ (initial_counted bounded)]
  decide

/-- One packet, and the channel is full. -/
theorem failed_write_loses_node :
    ¬ Placed (run (initial fun _ => 0) [⟨some 64, 1, 3, -11⟩] 3) := by
  intro placed
  have one := placed.placed.length_eq
  revert one
  decide

end Run

section Rate

theorem forward_size_zero {account : Account} {call : Call}
    (zero : account.buffer.collectionCnt = 0) :
    (forward account call).buffer.collectionCnt = 0 := by
  have linked : (link account.buffer call.pNode).collectionCnt = 0 := by
    cases call.pNode with
    | none => rfl
    | some pNode => exact zero
  have kept : ∀ buffer : Buffer, buffer.collectionCnt = 0 →
      (adjust call.sec buffer).collectionCnt = 0 := by
    intro buffer empty
    unfold adjust
    dsimp only
    rw [empty]
    split
    · dsimp only
      split
      · rfl
      · exact if_neg (UInt32.not_lt.mpr UInt32.zero_le)
    · exact empty
  rw [forward_buffer]
  apply kept
  split
  · exact linked
  · exact linked

/-- From the zeroed static variables the batch size stays zero, and no packet waits. -/
theorem zero_size_run (calls : List Call) {accounts : Accounts}
    (zero : ∀ index, (accounts index).buffer.collectionCnt = 0)
    (counted : ∀ index, Counted (accounts index))
    (empty : ∀ index, (accounts index).buffer.sendNodeHead = []) :
    ∀ index, (run accounts calls index).buffer.collectionCnt = 0 ∧
      (run accounts calls index).buffer.sendNodeHead = [] := by
  induction calls generalizing accounts with
  | nil => exact fun index => ⟨zero index, empty index⟩
  | cons call calls hyp =>
    refine hyp ?_ (turn_counted counted call) ?_
    · intro index
      by_cases same : index = call.index
      · rw [same, turn_same]
        exact forward_size_zero (zero call.index)
      · rw [turn_other accounts same]
        exact zero index
    · intro index
      by_cases same : index = call.index
      · rw [same, turn_same, forward_head]
        split
        · rfl
        · rename_i within
          have linked : (link (accounts call.index).buffer call.pNode).collectionCnt = 0 := by
            cases call.pNode with
            | none => rfl
            | some pNode => exact zero call.index
          have unlinked : (link (accounts call.index).buffer call.pNode).sendNodeHead = [] := by
            apply List.eq_nil_of_length_eq_zero
            rw [← link_count (counted call.index)]
            have least := UInt32.le_iff_toNat_le.mp (UInt32.not_lt.mp within)
            rw [linked] at least
            exact Nat.le_zero.mp least
          rwa [link_head] at unlinked
      · rw [turn_other accounts same]
        exact empty index

/-- Index 3 gets a packet a second, index 0 a failed write and the call of the signal. -/
def busyCalls : List Call :=
  (List.range 6).map (fun sec => ⟨some (64 * sec), .ofNat sec + 2, 3, 0⟩) ++
    [⟨some 512, 3, 0, -11⟩, ⟨none, 9, 0, 0⟩]

/-- At second 6 the rate of index 3 is above the size, which is doubled and is still zero. -/
theorem zero_size_run_busy :
    ((run (initial fun _ => 0) busyCalls 3).buffer.collectionCnt = 0 ∧
        (run (initial fun _ => 0) busyCalls 3).buffer.sendNodeHead = []) ∧
      ((run (initial fun _ => 0) busyCalls 0).buffer.collectionCnt = 0 ∧
        (run (initial fun _ => 0) busyCalls 0).buffer.sendNodeHead = []) ∧
      (run (initial fun _ => 0) busyCalls 3).buffer.oldTime = 6 := by
  have started := @initial_counted (fun _ => 0) fun _ => UInt32.zero_le
  refine ⟨?_, ?_, by decide⟩
  · exact zero_size_run busyCalls (fun _ => rfl) started (fun _ => rfl) 3
  · exact zero_size_run busyCalls (fun _ => rfl) started (fun _ => rfl) 0

end Rate

end Upst.PreaBuffer
