import Upst.Hashg
import Upst.Chain
import Mathlib.Data.List.Perm.Subperm

/-!
What a table of pointers holds between two calls: the nodes that are linked, and for every
bucket the chain of those whose key falls into it, each with the address of the pointer that
leads to it. Two nodes may hold the same key.
-/

namespace Upst.Hashg

open Word Chain

set_option autoImplicit false

variable {Key Data : Type}

def HashgInfo.links (info : HashgInfo Key Data) : Links Nat Slot where
  next := fun p => pointed (info.node p).next
  back := fun p => (info.node p).prev

/-- The linked nodes whose key falls into a bucket. -/
def HashgInfo.bucket (info : HashgInfo Key Data) (live : List Nat) (index : Nat) : List Nat :=
  live.filter fun p => info.func (info.node p).pstKey = index

/-- The table whose linked nodes are `live`, the newest first. -/
structure Linked (info : HashgInfo Key Data) (live : List Nat) : Prop where
  distinct : live.Nodup
  positive : ∀ p ∈ live, p ≠ 0
  alloced : ∀ p ∈ live, p ∈ info.alloced
  small : live.length < 2 ^ 32
  count : info.uiLinkedCnt = live.length
  inRange : ∀ p ∈ live, info.func (info.node p).pstKey < info.uiHashSize
  chains : ∀ index < info.uiHashSize,
    Chained info.links Slot.next (pointed (info.psthashnode index)) (.bucket index)
      (info.bucket live index)

variable {info info' : HashgInfo Key Data} {live : List Nat}

theorem live_length_le (linked : Linked info live) : live.length ≤ info.alloced.length :=
  (List.subperm_of_subset linked.distinct linked.alloced).length_le

theorem bucket_subset {nodes : List Nat} {index p : Nat} (member : p ∈ info.bucket nodes index) :
    p ∈ nodes ∧ info.func (info.node p).pstKey = index := by
  simpa [HashgInfo.bucket] using member

theorem bucket_congr {nodes : List Nat} (func : info'.func = info.func)
    (keys : ∀ p ∈ nodes, (info'.node p).pstKey = (info.node p).pstKey) (index : Nat) :
    info'.bucket nodes index = info.bucket nodes index := by
  apply List.filter_congr
  intro p member
  rw [func, keys p member]

/-- Nodes that are not linked do not matter. -/
theorem linked_congr (linked : Linked info live) (nodes : ∀ p ∈ live, info'.node p = info.node p)
    (alloced : ∀ p ∈ live, p ∈ info'.alloced)
    (array : info'.psthashnode = info.psthashnode) (func : info'.func = info.func)
    (size : info'.uiHashSize = info.uiHashSize) (count : info'.uiLinkedCnt = info.uiLinkedCnt) :
    Linked info' live := by
  refine ⟨linked.distinct, linked.positive, alloced, linked.small, count.trans linked.count, ?_, ?_⟩
  · intro p member
    rw [func, size, nodes p member]
    exact linked.inRange p member
  · intro index bound
    rw [array, bucket_congr func fun p member => congrArg HashgNode.pstKey (nodes p member)]
    refine chained_congr (linked.chains index (size ▸ bound)) ?_
    intro p member
    simp only [HashgInfo.links, nodes p (bucket_subset member).1, and_self]

/-- The first node of a bucket. -/
theorem first_linked (linked : Linked info live) {index : Nat} (bound : index < info.uiHashSize)
    (filled : info.psthashnode index ≠ 0) :
    info.psthashnode index ∈ info.bucket live index := by
  have first := chained_head (linked.chains index bound)
  rw [pointed_pos filled] at first
  exact List.mem_of_head? first.symm

section Find

variable [DecidableEq Key] {pKey : Key}

theorem find_loop_chained {nodes : List Nat} {p fuel : Nat} {before : Slot}
    (chain : Chained info.links Slot.next (pointed p) before nodes)
    (alloced : ∀ q ∈ nodes, q ∈ info.alloced) (enough : nodes.length ≤ fuel) :
    hashgFindLoop info pKey fuel p =
      some (nodes.find? fun q => (info.node q).pstKey = pKey) := by
  induction nodes generalizing p fuel before with
  | nil =>
      obtain rfl := pointed_none chain
      cases fuel <;> rfl
  | cons q rest ih =>
      obtain ⟨first, -, later⟩ := chain
      obtain ⟨rfl, positive⟩ := pointed_some first
      obtain ⟨fuel, rfl⟩ : ∃ left, fuel = left + 1 := ⟨fuel - 1, by simp at enough; omega⟩
      rw [hashgFindLoop, if_neg positive, if_neg (not_not.mpr (alloced p List.mem_cons_self))]
      by_cases same : (info.node p).pstKey = pKey
      · simp [same]
      · rw [if_neg same, ih later (fun other member => alloced other (.tail _ member))
          (by simpa using enough)]
        simp [same]

/-- A search finds the newest linked node that holds the key. -/
theorem find_spec (linked : Linked info live) (bound : info.func pKey < info.uiHashSize) :
    hashgFind info pKey = some (live.find? fun p => (info.node p).pstKey = pKey) := by
  have shorter : (info.bucket live (info.func pKey)).length ≤ info.alloced.length :=
    Nat.le_trans (List.length_filter_le _ _) (live_length_le linked)
  rw [hashgFind, if_pos bound, find_loop_chained (linked.chains _ bound)
    (fun p member => linked.alloced p (bucket_subset member).1) shorter, HashgInfo.bucket,
    List.find?_filter]
  congr 2
  funext p
  by_cases same : (info.node p).pstKey = pKey
  · simp [same]
  · simp [same]

end Find

section Link

variable {p index : Nat}

/-- The table after `hashg_link_node` put `p` before the first node of a bucket. -/
def linkedAt (info : HashgInfo Key Data) (p index : Nat) : HashgInfo Key Data :=
  let first := info.psthashnode index
  { info with
    node := fun q =>
      { info.node q with
        next := if q = p then first else (info.node q).next
        prev :=
          if q = p then .bucket index
          else if first ≠ 0 ∧ q = first then .next p
          else (info.node q).prev }
    psthashnode := Function.update info.psthashnode index p
    uiLinkedCnt := u32 (info.uiLinkedCnt + 1) }

theorem link_linked_at (alloced : p ∈ info.alloced)
    (bound : info.func (info.node p).pstKey < info.uiHashSize)
    (first : info.psthashnode (info.func (info.node p).pstKey) ≠ 0 →
      info.psthashnode (info.func (info.node p).pstKey) ∈ info.alloced ∧
        info.psthashnode (info.func (info.node p).pstKey) ≠ p) :
    hashgLinkNode info p = some (linkedAt info p (info.func (info.node p).pstKey)) := by
  rw [hashgLinkNode, if_pos bound]
  generalize info.func (info.node p).pstKey = index at bound first ⊢
  simp only [HashgInfo.setNode, HashgInfo.setPrev, HashgInfo.setSlot, if_pos alloced,
    Option.bind_eq_bind, Option.bind_some]
  by_cases empty : info.psthashnode index = 0
  · simp only [if_pos empty, Option.bind_some, if_pos alloced, if_pos bound, linkedAt,
      Option.some.injEq, HashgInfo.mk.injEq, and_true, true_and]
    funext q
    by_cases own : q = p
    · simp [own]
    · simp [own, empty]
  · obtain ⟨inside, other⟩ := first empty
    simp only [if_neg empty, if_pos inside, Option.bind_some, if_pos alloced, if_pos bound, linkedAt,
      Option.some.injEq, HashgInfo.mk.injEq, and_true, true_and]
    funext q
    by_cases own : q = p
    · subst own
      simp [other.symm]
    · by_cases top : q = info.psthashnode index
      · subst top
        simp [own, empty]
      · simp [own, top]

/-- A loose node becomes the newest linked one. -/
theorem link_stores (linked : Linked info live) (fresh : p ∉ live) (positive : p ≠ 0)
    (alloced : p ∈ info.alloced) (bound : info.func (info.node p).pstKey < info.uiHashSize)
    (room : live.length + 1 < 2 ^ 32) :
    hashgLinkNode info p = some (linkedAt info p (info.func (info.node p).pstKey)) ∧
      Linked (linkedAt info p (info.func (info.node p).pstKey)) (p :: live) := by
  have top : info.psthashnode (info.func (info.node p).pstKey) ≠ 0 →
      info.psthashnode (info.func (info.node p).pstKey) ∈
        info.bucket live (info.func (info.node p).pstKey) := first_linked linked bound
  have notTop : info.psthashnode (info.func (info.node p).pstKey) ≠ p := by
    intro same
    have inside := top fun empty => positive (same.symm.trans empty)
    rw [same] at inside
    exact fresh (bucket_subset inside).1
  refine ⟨link_linked_at alloced bound fun filled =>
    ⟨linked.alloced _ (bucket_subset (top filled)).1, notTop⟩, ?_⟩
  refine ⟨List.nodup_cons.mpr ⟨fresh, linked.distinct⟩, ?_, ?_, room, ?_, ?_, ?_⟩
  · exact List.forall_mem_cons.mpr ⟨positive, linked.positive⟩
  · exact List.forall_mem_cons.mpr ⟨alloced, linked.alloced⟩
  · show u32 (info.uiLinkedCnt + 1) = (p :: live).length
    rw [linked.count, List.length_cons, u32_small room]
  · exact List.forall_mem_cons.mpr ⟨bound, linked.inRange⟩
  · intro index indexBound
    have old := linked.chains index indexBound
    have within : ∀ q ∈ info.bucket live index, q ≠ p := by
      rintro q member rfl
      exact fresh (bucket_subset member).1
    have buckets : (linkedAt info p (info.func (info.node p).pstKey)).bucket (p :: live) index =
        info.bucket (p :: live) index := bucket_congr rfl (fun _ _ => rfl) index
    rw [buckets]
    by_cases own : info.func (info.node p).pstKey = index
    · subst own
      have bucket : info.bucket (p :: live) (info.func (info.node p).pstKey) =
          p :: info.bucket live (info.func (info.node p).pstKey) := by
        simp [HashgInfo.bucket]
      have arrayEq : (linkedAt info p (info.func (info.node p).pstKey)).psthashnode
          (info.func (info.node p).pstKey) = p := Function.update_self ..
      rw [bucket, arrayEq, pointed_pos positive]
      refine chained_push old (linked.distinct.filter _) ?_ ?_ ?_ ?_
      · simp [HashgInfo.links, linkedAt]
      · simp [HashgInfo.links, linkedAt]
      · intro q member
        simp [HashgInfo.links, linkedAt, within q member]
      · intro q member
        constructor
        · intro leads
          obtain ⟨same, filled⟩ := pointed_some leads
          have first : q = info.psthashnode (info.func (info.node p).pstKey) := same.symm
          simp [HashgInfo.links, linkedAt, first, filled, notTop]
        · intro elsewhere
          have notFirst : ¬(info.psthashnode (info.func (info.node p).pstKey) ≠ 0 ∧
              q = info.psthashnode (info.func (info.node p).pstKey)) := by
            rintro ⟨filled, rfl⟩
            exact elsewhere (pointed_pos filled)
          simp [HashgInfo.links, linkedAt, within q member, notFirst]
    · have bucket : info.bucket (p :: live) index = info.bucket live index := by
        simp [HashgInfo.bucket, own]
      have arrayEq : (linkedAt info p (info.func (info.node p).pstKey)).psthashnode index =
          info.psthashnode index := Function.update_of_ne (Ne.symm own) ..
      rw [bucket, arrayEq]
      refine chained_congr old ?_
      intro q member
      have notFirst : ¬(info.psthashnode (info.func (info.node p).pstKey) ≠ 0 ∧
          q = info.psthashnode (info.func (info.node p).pstKey)) := by
        rintro ⟨filled, rfl⟩
        exact own ((bucket_subset (top filled)).2.symm.trans (bucket_subset member).2)
      simp [HashgInfo.links, linkedAt, within q member, notFirst]

end Link

section Unlink

variable {p : Nat}

/-- The table after `hashg_unlink_node` took `p` out of its bucket. -/
def unlinked (info : HashgInfo Key Data) (p : Nat) : HashgInfo Key Data :=
  let next := (info.node p).next
  let prev := (info.node p).prev
  { info with
    node := fun q =>
      { info.node q with
        next :=
          if q = p then 0
          else if prev = .next q then next
          else (info.node q).next
        prev :=
          if q = p then .null
          else if next ≠ 0 ∧ q = next then prev
          else (info.node q).prev }
    psthashnode := fun index => if prev = .bucket index then next else info.psthashnode index
    uiLinkedCnt := u32Pred info.uiLinkedCnt }

/-- The neighbours of a linked node are linked too, and none of them is the node itself. -/
structure Neighbours (info : HashgInfo Key Data) (live : List Nat) (p : Nat) : Prop where
  prev : (∃ index < info.uiHashSize, (info.node p).prev = .bucket index) ∨
    ∃ q ∈ live, q ≠ p ∧ (info.node p).prev = .next q
  next : (info.node p).next ≠ 0 → (info.node p).next ∈ live ∧ (info.node p).next ≠ p

theorem neighbours (linked : Linked info live) (member : p ∈ live) : Neighbours info live p := by
  have bound := linked.inRange p member
  have here : p ∈ info.bucket live (info.func (info.node p).pstKey) := by
    simp [HashgInfo.bucket, member]
  obtain ⟨front, rest, split⟩ := List.append_of_mem here
  have chain := linked.chains _ bound
  have spread : (front ++ p :: rest).Nodup := by
    rw [← split]
    exact linked.distinct.filter _
  have inside : ∀ q ∈ front ++ p :: rest, q ∈ live := by
    intro q inBucket
    rw [← split] at inBucket
    exact (bucket_subset inBucket).1
  rw [split] at chain
  obtain ⟨place, tail⟩ := chained_split chain
  constructor
  · rcases place with ⟨-, -, back⟩ | ⟨pred, inFront, -, back⟩
    · exact Or.inl ⟨_, bound, back⟩
    · refine Or.inr ⟨pred, inside pred (List.mem_append_left _ inFront), ?_, back⟩
      rintro rfl
      exact List.disjoint_of_nodup_append spread inFront List.mem_cons_self
  · intro filled
    have follows : info.links.next p = some (info.node p).next := pointed_pos filled
    rw [chained_head tail] at follows
    have inRest := List.mem_of_head? follows
    refine ⟨inside _ (List.mem_append_right _ (List.mem_cons_of_mem _ inRest)), ?_⟩
    intro same
    rw [same] at inRest
    exact (List.nodup_cons.mp (List.nodup_append.mp spread).2.1).1 inRest

theorem unlink_unlinked (alloced : ∀ q ∈ live, q ∈ info.alloced) (member : p ∈ live)
    (around : Neighbours info live p) : hashgUnlinkNode info p = some (unlinked info p) := by
  have own := alloced p member
  rw [hashgUnlinkNode, if_pos own]
  have successor (table : HashgInfo Key Data) (heap : table.alloced = info.alloced) :
      table.setPrev (info.node p).next (info.node p).prev = some
        { table with
          node := fun q =>
            if (info.node p).next ≠ 0 ∧ q = (info.node p).next then
              { table.node q with prev := (info.node p).prev }
            else table.node q } := by
    rw [HashgInfo.setPrev]
    by_cases last : (info.node p).next = 0
    · simp [last]
    · rw [if_neg last, HashgInfo.setNode, if_pos (heap ▸ alloced _ (around.next last).1)]
      congr 2
      funext q
      by_cases after : q = (info.node p).next
      · subst after
        simp [last]
      · simp [after]
  have finish (table : HashgInfo Key Data) (heap : table.alloced = info.alloced) :
      table.setNode p (fun node => { node with next := 0, prev := .null }) = some
        { table with
          node := Function.update table.node p { table.node p with next := 0, prev := .null } } := by
    rw [HashgInfo.setNode, if_pos (heap ▸ own)]
  have notNext : ¬((info.node p).next ≠ 0 ∧ p = (info.node p).next) := fun same =>
    (around.next same.1).2 same.2.symm
  rcases around.prev with ⟨index, bound, back⟩ | ⟨pred, inside, other, back⟩
  · have slot : info.setSlot (.bucket index) (info.node p).next = some
        { info with psthashnode := Function.update info.psthashnode index (info.node p).next } := by
      rw [HashgInfo.setSlot, if_pos bound]
    rw [back] at successor ⊢
    simp only [slot, Option.bind_eq_bind, Option.bind_some, successor, finish, reduceCtorEq, if_false,
      Option.some.injEq, unlinked, back, HashgInfo.mk.injEq, true_and, and_true]
    refine ⟨?_, ?_⟩
    · funext place
      by_cases same : index = place
      · subst same
        simp
      · simp [same, Ne.symm same]
    · funext q
      by_cases itself : q = p
      · subst itself
        rw [Function.update_self, if_neg notNext, if_pos rfl, if_pos rfl]
      · rw [Function.update_of_ne itself, if_neg itself, if_neg itself]
        by_cases after : (info.node p).next ≠ 0 ∧ q = (info.node p).next
        · rw [if_pos after, if_pos after]
        · rw [if_neg after, if_neg after]
  · have slot : info.setSlot (.next pred) (info.node p).next = some
        { info with
          node := Function.update info.node pred
            { info.node pred with next := (info.node p).next } } := by
      rw [HashgInfo.setSlot, HashgInfo.setNode, if_pos (alloced pred inside)]
    rw [back] at successor ⊢
    simp only [slot, Option.bind_eq_bind, Option.bind_some, successor, finish, reduceCtorEq, if_false,
      Option.some.injEq, unlinked, back, HashgInfo.mk.injEq, true_and, and_true]
    funext q
    by_cases itself : q = p
    · subst itself
      rw [Function.update_self, if_neg notNext, Function.update_of_ne other.symm, if_pos rfl,
        if_pos rfl]
    · rw [Function.update_of_ne itself, if_neg itself, if_neg itself]
      by_cases before : pred = q
      · subst before
        by_cases after : (info.node p).next ≠ 0 ∧ pred = (info.node p).next
        · rw [if_pos after, if_pos after, if_pos rfl, Function.update_self]
        · rw [if_neg after, if_neg after, if_pos rfl, Function.update_self]
      · rw [Function.update_of_ne (Ne.symm before), if_neg fun same => before (Slot.next.inj same)]
        by_cases after : (info.node p).next ≠ 0 ∧ q = (info.node p).next
        · rw [if_pos after, if_pos after]
        · rw [if_neg after, if_neg after]

theorem bucket_erase (distinct : live.Nodup) (p index : Nat) :
    info.bucket (live.erase p) index = (info.bucket live index).erase p := by
  rw [HashgInfo.bucket, HashgInfo.bucket, distinct.erase_eq_filter,
    (distinct.filter _).erase_eq_filter, List.filter_filter, List.filter_filter]
  apply List.filter_congr
  intro q _
  rw [Bool.and_comm]

theorem unlinked_chains (linked : Linked info live) (member : p ∈ live) {index : Nat}
    (bound : index < info.uiHashSize) :
    Chained (unlinked info p).links Slot.next (pointed ((unlinked info p).psthashnode index))
      (.bucket index) ((unlinked info p).bucket (live.erase p) index) := by
  have buckets : (unlinked info p).bucket (live.erase p) index =
      (info.bucket live index).erase p := by
    have keys : ∀ q ∈ live.erase p, ((unlinked info p).node q).pstKey = (info.node q).pstKey :=
      fun _ _ => rfl
    have func : (unlinked info p).func = info.func := rfl
    rw [← bucket_erase linked.distinct, bucket_congr func keys]
  rw [buckets]
  have old := linked.chains index bound
  by_cases own : info.func (info.node p).pstKey = index
  · have here : p ∈ info.bucket live index := by
      simp [HashgInfo.bucket, member, own]
    obtain ⟨front, rest, split⟩ := List.append_of_mem here
    have spread : (front ++ p :: rest).Nodup := by
      rw [← split]
      exact linked.distinct.filter _
    have away : ∀ q ∈ front ++ rest, q ≠ p := by
      rintro q inside rfl
      rcases List.mem_append.mp inside with inFront | inRest
      · exact List.disjoint_of_nodup_append spread inFront List.mem_cons_self
      · exact (List.nodup_cons.mp (List.nodup_append.mp spread).2.1).1 inRest
    rw [split] at old ⊢
    rw [List.erase_append_right _ fun inFront => away p (List.mem_append_left _ inFront) rfl,
      List.erase_cons_head]
    have injective : Function.Injective Slot.next := fun _ _ same => Slot.next.inj same
    have outside : ∀ q ∈ front ++ p :: rest, Slot.next q ≠ .bucket index := by
      intro q _ same
      cases same
    refine chained_remove old spread injective outside ?_ ?_ ?_ ?_
    · intro first
      have back : (info.node p).prev = .bucket index := first
      simp [unlinked, back, HashgInfo.links]
    · intro later
      have back : (info.node p).prev ≠ .bucket index := later
      simp [unlinked, back]
    · intro q inside
      constructor
      · intro refers
        have back : (info.node p).prev = .next q := refers
        simp [HashgInfo.links, unlinked, back, away q inside]
      · intro elsewhere
        have back : (info.node p).prev ≠ .next q := elsewhere
        simp [HashgInfo.links, unlinked, back, away q inside]
    · intro q inside
      constructor
      · intro follows
        obtain ⟨same, filled⟩ := pointed_some follows
        have after : (info.node p).next ≠ 0 ∧ q = (info.node p).next := ⟨filled, same.symm⟩
        simp only [HashgInfo.links, unlinked, if_neg (away q inside), if_pos after]
      · intro elsewhere
        have notNext : ¬((info.node p).next ≠ 0 ∧ q = (info.node p).next) := by
          rintro ⟨filled, rfl⟩
          exact elsewhere (pointed_pos filled)
        simp only [HashgInfo.links, unlinked, if_neg (away q inside), if_neg notNext]
  · have absent : p ∉ info.bucket live index := fun inside => own (bucket_subset inside).2
    have ownBound := linked.inRange p member
    have ownOld := linked.chains _ ownBound
    have here : p ∈ info.bucket live (info.func (info.node p).pstKey) := by
      simp [HashgInfo.bucket, member]
    obtain ⟨front, rest, split⟩ := List.append_of_mem here
    rw [split] at ownOld
    obtain ⟨place, tail⟩ := chained_split ownOld
    have home : ∀ q ∈ front ++ p :: rest, info.func (info.node q).pstKey ≠ index := by
      intro q inside
      rw [← split] at inside
      rw [(bucket_subset inside).2]
      exact own
    -- the pointer before the node is in its own bucket, and so is its successor
    have notHere : (info.node p).prev ≠ .bucket index := by
      intro back
      rcases place with ⟨-, -, first⟩ | ⟨pred, -, -, later⟩
      · exact own (Slot.bucket.inj (first.symm.trans back))
      · cases later.symm.trans back
    have arrayEq : (unlinked info p).psthashnode index = info.psthashnode index := if_neg notHere
    rw [List.erase_of_not_mem absent, arrayEq]
    refine chained_congr old ?_
    intro q inside
    have elsewhere : q ≠ p := fun same => absent (same ▸ inside)
    have notPred : (info.node p).prev ≠ .next q := by
      intro back
      rcases place with ⟨-, -, first⟩ | ⟨pred, inFront, -, later⟩
      · cases first.symm.trans back
      · obtain rfl := Slot.next.inj (later.symm.trans back)
        exact home pred (List.mem_append_left _ inFront) (bucket_subset inside).2
    have notNext : ¬((info.node p).next ≠ 0 ∧ q = (info.node p).next) := by
      rintro ⟨filled, rfl⟩
      have follows : info.links.next p = some (info.node p).next := pointed_pos filled
      rw [chained_head tail] at follows
      have inRest := List.mem_of_head? follows
      exact home _ (List.mem_append_right _ (List.mem_cons_of_mem _ inRest)) (bucket_subset inside).2
    simp only [HashgInfo.links, unlinked, if_neg elsewhere, if_neg notPred, if_neg notNext, and_self]

/-- A linked node becomes a loose one. -/
theorem unlink_stores (linked : Linked info live) (member : p ∈ live) :
    hashgUnlinkNode info p = some (unlinked info p) ∧ Linked (unlinked info p) (live.erase p) := by
  refine ⟨unlink_unlinked linked.alloced member (neighbours linked member), ?_⟩
  have kept : ∀ q ∈ live.erase p, q ∈ live := fun _ => List.mem_of_mem_erase
  refine ⟨linked.distinct.erase p, fun q inside => linked.positive q (kept q inside),
    fun q inside => linked.alloced q (kept q inside), ?_, ?_,
    fun q inside => linked.inRange q (kept q inside), fun index => unlinked_chains linked member⟩
  · exact Nat.lt_of_le_of_lt List.length_erase_le linked.small
  · show u32Pred info.uiLinkedCnt = (live.erase p).length
    rw [linked.count, List.length_erase_of_mem member,
      u32_pred_pos (List.length_pos_of_mem member)]

end Unlink

end Upst.Hashg
