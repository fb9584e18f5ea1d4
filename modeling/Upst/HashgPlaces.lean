import Upst.HashgRun

/-!
A table of pointers whose keys are written over while their nodes are linked. A node stays in
the chain it was linked into, so the chains are told by the place of each node and not by its
key.
-/

namespace Upst.Hashg

open Word Chain

set_option autoImplicit false

section Places

variable {Key Data : Type}

/-- The table with the place of each node for its key. -/
def HashgInfo.placed (info : HashgInfo Key Data) (place : Nat → Nat) : HashgInfo Nat Data where
  uiHashSize := info.uiHashSize
  maxNodeCnt := info.maxNodeCnt
  func := fun index => index
  uiLinkedCnt := info.uiLinkedCnt
  psthashnode := info.psthashnode
  node := fun p =>
    { next := (info.node p).next
      prev := (info.node p).prev
      pstKey := place p
      pstData := (info.node p).pstData }
  alloced := info.alloced

/-- The linked nodes are `live`, each in the chain of its place. -/
def Placed (info : HashgInfo Key Data) (live : List Nat) (place : Nat → Nat) : Prop :=
  Linked (info.placed place) live

variable {info info' : HashgInfo Key Data} {live : List Nat} {place : Nat → Nat} {p : Nat}
  {pKey : Key}

/-- Where every key is in place, so is every node. -/
theorem linked_placed (linked : Linked info live) :
    Placed info live fun p => info.func (info.node p).pstKey :=
  ⟨linked.distinct, linked.positive, linked.alloced, linked.small, linked.count, linked.inRange,
    linked.chains⟩

/-- The keys and the data do not matter, nor do the nodes that are not linked. -/
theorem placed_congr (placed : Placed info live place)
    (nodes : ∀ q ∈ live, (info'.node q).next = (info.node q).next ∧
      (info'.node q).prev = (info.node q).prev)
    (alloced : ∀ q ∈ live, q ∈ info'.alloced) (array : info'.psthashnode = info.psthashnode)
    (size : info'.uiHashSize = info.uiHashSize) (count : info'.uiLinkedCnt = info.uiLinkedCnt)
    {place' : Nat → Nat} (same : ∀ q ∈ live, place' q = place q) : Placed info' live place' := by
  have buckets : ∀ index, (info'.placed place').bucket live index =
      (info.placed place).bucket live index := bucket_congr rfl same
  refine ⟨placed.distinct, placed.positive, alloced, placed.small, count.trans placed.count, ?_, ?_⟩
  · intro q member
    show place' q < info'.uiHashSize
    rw [same q member, size]
    exact placed.inRange q member
  · intro index bound
    rw [buckets]
    show Chained (info'.placed place').links Slot.next (pointed (info'.psthashnode index)) _ _
    rw [array]
    apply chained_congr (placed.chains index (size ▸ bound))
    intro q member
    obtain ⟨next, prev⟩ := nodes q (bucket_subset member).1
    exact ⟨congrArg pointed next, prev⟩

theorem free_placed (placed : Placed info live place) (loose : p ∉ live) :
    Placed { info with alloced := info.alloced.erase p } live place := free_linked placed loose

theorem keyed_placed (placed : Placed info live place) (p : Nat) (pKey : Key) :
    Placed (keyed info p pKey) live place := by
  have nodes : ∀ q ∈ live, ((keyed info p pKey).node q).next = (info.node q).next ∧
      ((keyed info p pKey).node q).prev = (info.node q).prev := by
    intro q _
    by_cases own : q = p
    · subst own
      simp [keyed]
    · simp [keyed, own]
  exact placed_congr placed nodes placed.alloced rfl rfl rfl fun _ _ => rfl

theorem unlink_placed (placed : Placed info live place) (member : p ∈ live) :
    hashgUnlinkNode info p = some (unlinked info p) ∧
      Placed (unlinked info p) (live.erase p) place := by
  obtain ⟨prev, next⟩ := neighbours placed member
  have around : Neighbours info live p := ⟨prev, next⟩
  exact ⟨unlink_unlinked placed.alloced member around, (unlink_stores placed member).2⟩

/-- A loose node goes into the chain that its key leads to. -/
theorem link_placed (placed : Placed info live place) (fresh : p ∉ live) (positive : p ≠ 0)
    (alloced : p ∈ info.alloced) (bound : info.func (info.node p).pstKey < info.uiHashSize)
    (room : live.length + 1 < 2 ^ 32) :
    hashgLinkNode info p = some (linkedAt info p (info.func (info.node p).pstKey)) ∧
      Placed (linkedAt info p (info.func (info.node p).pstKey)) (p :: live)
        (Function.update place p (info.func (info.node p).pstKey)) := by
  have others : ∀ q ∈ live,
      Function.update place p (info.func (info.node p).pstKey) q = place q := by
    intro q member
    apply Function.update_of_ne
    rintro rfl
    exact fresh member
  have moved : Placed info live (Function.update place p (info.func (info.node p).pstKey)) :=
    placed_congr placed (fun _ _ => ⟨rfl, rfl⟩) placed.alloced rfl rfl rfl others
  have own : Function.update place p (info.func (info.node p).pstKey) p =
      info.func (info.node p).pstKey := Function.update_self ..
  have link := link_stores moved fresh positive alloced
    (show Function.update place p (info.func (info.node p).pstKey) p < _ by rw [own]; exact bound) room
  constructor
  · apply link_linked_at alloced bound
    intro filled
    have first := first_linked moved bound filled
    have inside := (bucket_subset first).1
    refine ⟨placed.alloced _ inside, ?_⟩
    intro same
    rw [← same] at fresh
    exact fresh inside
  · have stored := link.2
    have index : (info.placed (Function.update place p (info.func (info.node p).pstKey))).func
        ((info.placed (Function.update place p (info.func (info.node p).pstKey))).node p).pstKey =
          info.func (info.node p).pstKey := own
    rw [index] at stored
    exact stored

theorem del_placed (placed : Placed info live place) (member : p ∈ live) :
    hashgDel info p = some (deleted info p) ∧ Placed (deleted info p) (live.erase p) place := by
  obtain ⟨unlink, after⟩ := unlink_placed placed member
  have loose : p ∉ live.erase p := fun inside => (placed.distinct.mem_erase_iff.mp inside).1 rfl
  refine ⟨?_, free_placed after loose⟩
  rw [hashgDel, unlink]
  exact if_pos (placed.alloced p member)

/-- A linked node that is linked again under another key goes first in the chain of that key. -/
theorem rekeyed_placed (placed : Placed info live place) (member : p ∈ live)
    (inRange : info.func pKey < info.uiHashSize) :
    hashgUnlinkNode (keyed info p pKey) p = some (unlinked (keyed info p pKey) p) ∧
      hashgLinkNode (unlinked (keyed info p pKey) p) p = some (rekeyed info p pKey) ∧
      Placed (rekeyed info p pKey) (p :: live.erase p)
        (Function.update place p (info.func pKey)) := by
  obtain ⟨unlink, after⟩ := unlink_placed (keyed_placed placed p pKey) member
  have loose : p ∉ live.erase p := fun inside => (placed.distinct.mem_erase_iff.mp inside).1 rfl
  have key : ((unlinked (keyed info p pKey) p).node p).pstKey = pKey := by
    simp [unlinked, keyed]
  have room : (live.erase p).length + 1 < 2 ^ 32 := by
    have positive := List.length_pos_of_mem member
    have small := placed.small
    rw [List.length_erase_of_mem member]
    omega
  have link := link_placed after loose (placed.positive p member) (placed.alloced p member)
    (by rw [key]; exact inRange) room
  rw [key] at link
  exact ⟨unlink, link⟩

/-- A node that is not linked gets a key and goes first in its chain. -/
theorem added_placed (placed : Placed info live place) (fresh : p ∉ info.alloced) (positive : p ≠ 0)
    (inRange : info.func pKey < info.uiHashSize) (room : live.length + 1 < 2 ^ 32) (pData : Data) :
    hashgLinkNode (allocated info p pKey pData) p = some (added info p pKey pData) ∧
      Placed (added info p pKey pData) (p :: live) (Function.update place p (info.func pKey)) := by
  have loose : p ∉ live := fun member => fresh (placed.alloced p member)
  have nodes : ∀ q ∈ live, ((allocated info p pKey pData).node q).next = (info.node q).next ∧
      ((allocated info p pKey pData).node q).prev = (info.node q).prev := by
    intro q member
    have other : q ≠ p := by
      rintro rfl
      exact loose member
    simp [allocated, other]
  have before : Placed (allocated info p pKey pData) live place :=
    placed_congr placed nodes (fun q member => List.mem_cons_of_mem _ (placed.alloced q member))
      rfl rfl rfl fun _ _ => rfl
  have key : ((allocated info p pKey pData).node p).pstKey = pKey := by
    simp [allocated]
  have link := link_placed before loose positive List.mem_cons_self (by rw [key]; exact inRange) room
  rw [key] at link
  exact link

variable [DecidableEq Key]

/-- A search sees the nodes of one chain only. -/
theorem find_placed (placed : Placed info live place) (bound : info.func pKey < info.uiHashSize) :
    hashgFind info pKey = some ((live.filter fun p => place p = info.func pKey).find?
      fun p => (info.node p).pstKey = pKey) := by
  have chain : Chained info.links Slot.next (pointed (info.psthashnode (info.func pKey)))
      (.bucket (info.func pKey)) (live.filter fun p => place p = info.func pKey) :=
    placed.chains _ bound
  have blocks : live.length ≤ info.alloced.length :=
    (List.subperm_of_subset placed.distinct placed.alloced).length_le
  have shorter : (live.filter fun p => place p = info.func pKey).length ≤ info.alloced.length :=
    Nat.le_trans (List.length_filter_le _ _) blocks
  rw [hashgFind, if_pos bound]
  apply find_loop_chained chain
  · exact fun q member => placed.alloced q (List.mem_of_mem_filter member)
  · exact shorter

/-- What is found is linked, under the key, in the chain of the key. -/
theorem found_placed (placed : Placed info live place) (bound : info.func pKey < info.uiHashSize)
    (found : hashgFind info pKey = some (some p)) :
    p ∈ live ∧ place p = info.func pKey ∧ (info.node p).pstKey = pKey := by
  rw [find_placed placed bound, Option.some.injEq] at found
  have member := List.mem_of_find?_eq_some found
  have same := List.find?_some found
  rw [List.mem_filter] at member
  exact ⟨member.1, of_decide_eq_true member.2, of_decide_eq_true same⟩

end Places

end Upst.Hashg
