import Mathlib.Tactic.SplitIfs
import Upst.CList

/-!
The lists of `clisto.h`, whose links are offsets from `infoptr`. A pointer is given by its distance
from there, and the offset 0 reads as NULL, behind which nothing is written. The links of a family of
disjoint rings stay those of a family, whatever their sizes.
-/

namespace Upst.Clisto

open CList

set_option autoImplicit false

section Source

abbrev Offset := Int

/-- `clisto_ptr`, without a result for NULL. -/
def clistoPtr (offset : Offset) : Option Offset := if offset = 0 then none else some offset

def setNext (links : Links Offset) (node offset : Offset) : Links Offset :=
  { links with next := Function.update links.next node offset }

def setPrev (links : Links Offset) (node offset : Offset) : Links Offset :=
  { links with prev := Function.update links.prev node offset }

/-- `CINIT_LIST_HEAD` -/
def cinitListHead (links : Links Offset) (ptr : Offset) : Links Offset :=
  setPrev (setNext links ptr ptr) ptr ptr

/-- `__clist_add` -/
def clistAdd (links : Links Offset) (new prev next : Offset) : Links Offset :=
  setNext (setPrev (setNext (setPrev links next new) new next) new prev) prev new

def clistAddHead (links : Links Offset) (new head : Offset) : Option (Links Offset) := do
  let next ← clistoPtr (links.next head)
  some (clistAdd links new head next)

def clistAddTail (links : Links Offset) (new head : Offset) : Option (Links Offset) := do
  let prev ← clistoPtr (links.prev head)
  some (clistAdd links new prev head)

/-- `__clist_del` -/
def clistDel (links : Links Offset) (prev next : Offset) : Links Offset :=
  setNext (setPrev links next prev) prev next

def clistDelInit (links : Links Offset) (entry : Offset) : Option (Links Offset) := do
  let prev ← clistoPtr (links.prev entry)
  let next ← clistoPtr (links.next entry)
  some (cinitListHead (clistDel links prev next) entry)

def clistSplice (links : Links Offset) (list head : Offset) : Option (Links Offset) := do
  let last ← clistoPtr (links.prev list)
  let at_ ← clistoPtr (links.prev head)
  let links := setNext (setPrev links head last) last head
  some (setNext (setPrev links list at_) at_ list)

end Source

section Refine

variable {links : Links Offset} {node head list : Offset}

theorem clisto_ptr_some {offset : Offset} (nonzero : offset ≠ 0) : clistoPtr offset = some offset :=
  if_neg nonzero

theorem clist_add_head_eq (nonzero : links.next head ≠ 0) :
    clistAddHead links node head = some (links.addHead node head) := by
  rw [clistAddHead, clisto_ptr_some nonzero]
  rfl

theorem clist_add_tail_eq (nonzero : links.prev head ≠ 0) :
    clistAddTail links node head = some (links.addTail node head) := by
  rw [clistAddTail, clisto_ptr_some nonzero]
  rfl

theorem clist_del_init_eq (before : links.prev node ≠ 0) (after : links.next node ≠ 0) :
    clistDelInit links node = some (links.delInit node) := by
  rw [clistDelInit, clisto_ptr_some before, clisto_ptr_some after]
  rfl

theorem clist_splice_eq (last : links.prev list ≠ 0) (last' : links.prev head ≠ 0) :
    clistSplice links list head = some (links.splice list head) := by
  rw [clistSplice, clisto_ptr_some last, clisto_ptr_some last']
  rfl

end Refine

section Rings

variable {links : Links Offset} {others : List (List Offset)}

/-- Disjoint rings, none of them with a node at `infoptr`. -/
structure Rings (links : Links Offset) (rings : List (List Offset)) : Prop where
  ring : ∀ nodes ∈ rings, IsRing links nodes
  apart : rings.Pairwise List.Disjoint
  nonzero : ∀ nodes ∈ rings, (0 : Offset) ∉ nodes

/-- In a ring the two links of every node are inverse to each other. -/
structure Linked (links : Links Offset) (nodes : List Offset) (node : Offset) : Prop where
  next : links.next node ∈ nodes
  prev : links.prev node ∈ nodes
  prevNext : links.prev (links.next node) = node
  nextPrev : links.next (links.prev node) = node

theorem linked_head {node : Offset} {rest : List Offset} (ring : IsRing links (node :: rest)) :
    Linked links (node :: rest) node := by
  have last := ring_prev_head ring
  have back := ring_next_last ring
  rw [← last] at back
  have prev : links.prev node ∈ node :: rest := last ▸ List.getLast_mem _
  cases rest with
  | nil =>
      have alone : links.prev node = node := List.mem_singleton.mp prev
      rw [alone] at back
      exact ⟨by rw [back]; exact List.mem_cons_self, prev, by rw [back, alone], by rw [alone, back]⟩
  | cons follower more =>
      obtain ⟨next, prevNext⟩ := ring_adjacent (show IsRing links ([] ++ node :: follower :: more) from ring)
      exact ⟨by rw [next]; exact List.mem_cons_of_mem _ List.mem_cons_self, prev,
        by rw [next, prevNext], back⟩

theorem linked_ring {nodes : List Offset} (ring : IsRing links nodes) {node : Offset}
    (member : node ∈ nodes) : Linked links nodes node := by
  obtain ⟨front, back, rfl⟩ := List.append_of_mem member
  have linked := linked_head (ring_append_comm ring : IsRing links (node :: (back ++ front)))
  have same (other : Offset) : other ∈ node :: (back ++ front) ↔ other ∈ front ++ node :: back := by
    simp only [List.mem_append, List.mem_cons]
    tauto
  exact ⟨(same _).mp linked.next, (same _).mp linked.prev, linked.prevNext, linked.nextPrev⟩

theorem Rings.offset_ne {rings : List (List Offset)} (family : Rings links rings) {nodes : List Offset}
    (member : nodes ∈ rings) {node : Offset} (inside : node ∈ nodes) : node ≠ 0 := by
  rintro rfl
  exact family.nonzero nodes member inside

/-- A write between nodes outside of them keeps the rings. -/
theorem rings_join {before after : Offset} (family : Rings links others)
    (outside : ∀ nodes ∈ others, before ∉ nodes ∧ after ∉ nodes) :
    Rings (links.join before after) others where
  ring nodes member :=
    ring_join_frame (family.ring nodes member) (outside nodes member).1 (outside nodes member).2
  apart := family.apart
  nonzero := family.nonzero

theorem rings_tail {nodes : List Offset} (family : Rings links (nodes :: others)) :
    Rings links others where
  ring other member := family.ring other (List.mem_cons_of_mem _ member)
  apart := (List.pairwise_cons.mp family.apart).2
  nonzero other member := family.nonzero other (List.mem_cons_of_mem _ member)

theorem rings_cons {nodes : List Offset} (family : Rings links others) (ring : IsRing links nodes)
    (apart : ∀ other ∈ others, List.Disjoint nodes other) (nonzero : (0 : Offset) ∉ nodes) :
    Rings links (nodes :: others) where
  ring other member := by
    rcases List.mem_cons.mp member with rfl | member
    · exact ring
    · exact family.ring other member
  apart := List.pairwise_cons.mpr ⟨apart, family.apart⟩
  nonzero other member := by
    rcases List.mem_cons.mp member with rfl | member
    · exact nonzero
    · exact family.nonzero other member

/-- What is in the first ring is in no other one. -/
theorem rings_outside {nodes : List Offset} (family : Rings links (nodes :: others)) {node : Offset}
    (inside : node ∈ nodes) (other : List Offset) (member : other ∈ others) : node ∉ other := fun here =>
  (List.pairwise_cons.mp family.apart).1 other member inside here

theorem rings_insert {node before after : Offset} {nodes : List Offset}
    (family : Rings links (nodes :: others)) (fresh : ∀ other ∈ others, node ∉ other)
    (first : before ∈ nodes) (second : after ∈ nodes) :
    Rings (links.insertBetween node before after) others :=
  rings_join (rings_join (rings_tail family) fun other member =>
    ⟨fresh other member, rings_outside family second other member⟩) fun other member =>
      ⟨rings_outside family first other member, fresh other member⟩

theorem rings_add_head {head : Offset} {rest : List Offset} (node : Offset)
    (family : Rings links ((head :: rest) :: others)) (nonzero : node ≠ 0)
    (fresh : ∀ nodes ∈ (head :: rest) :: others, node ∉ nodes) :
    ∃ links', clistAddHead links node head = some links' ∧
      Rings links' ((head :: node :: rest) :: others) := by
  have ring := family.ring _ List.mem_cons_self
  have linked := linked_head ring
  have free := fresh _ List.mem_cons_self
  refine ⟨_, clist_add_head_eq (family.offset_ne List.mem_cons_self linked.next), ?_⟩
  have kept := rings_insert family (fun other member => fresh other (List.mem_cons_of_mem _ member))
    List.mem_cons_self linked.next
  refine rings_cons kept (ring_addHead node ring free) (fun other member _ here inside => ?_) ?_
  · rcases List.mem_cons.mp here with rfl | here
    · exact rings_outside family List.mem_cons_self other member inside
    · rcases List.mem_cons.mp here with rfl | here
      · exact fresh other (List.mem_cons_of_mem _ member) inside
      · exact rings_outside family (List.mem_cons_of_mem _ here) other member inside
  · have old := family.nonzero _ List.mem_cons_self
    simp only [List.mem_cons, not_or] at old ⊢
    exact ⟨old.1, nonzero.symm, old.2⟩

theorem rings_add_tail {head : Offset} {rest : List Offset} (node : Offset)
    (family : Rings links ((head :: rest) :: others)) (nonzero : node ≠ 0)
    (fresh : ∀ nodes ∈ (head :: rest) :: others, node ∉ nodes) :
    ∃ links', clistAddTail links node head = some links' ∧
      Rings links' ((head :: (rest ++ [node])) :: others) := by
  have ring := family.ring _ List.mem_cons_self
  have linked := linked_head ring
  have free := fresh _ List.mem_cons_self
  refine ⟨_, clist_add_tail_eq (family.offset_ne List.mem_cons_self linked.prev), ?_⟩
  have kept := rings_insert family (fun other member => fresh other (List.mem_cons_of_mem _ member))
    linked.prev List.mem_cons_self
  refine rings_cons kept (ring_addTail ring free) (fun other member _ here inside => ?_) ?_
  · rcases List.mem_append.mp (List.cons_append ▸ here : _ ∈ (head :: rest) ++ [node]) with here | here
    · exact rings_outside family here other member inside
    · rw [List.mem_singleton] at here
      exact fresh other (List.mem_cons_of_mem _ member) (here ▸ inside)
  · have old := family.nonzero _ List.mem_cons_self
    simp only [List.mem_cons, List.mem_append, List.not_mem_nil, or_false, not_or] at old ⊢
    exact ⟨old.1, old.2, nonzero.symm⟩

/-- The entry becomes a ring of its own, and what is left of its ring keeps its order. -/
theorem rings_del_init {front back : List Offset} (entry : Offset)
    (family : Rings links ((front ++ entry :: back) :: others)) :
    ∃ links', clistDelInit links entry = some links' ∧ Rings links' ([entry] :: others) ∧
      (front ++ back ≠ [] → Rings links' ((front ++ back) :: [entry] :: others)) := by
  have ring := family.ring _ List.mem_cons_self
  have inside : entry ∈ front ++ entry :: back := List.mem_append_right _ List.mem_cons_self
  have linked := linked_ring ring inside
  have turned : IsRing links (entry :: (back ++ front)) := ring_append_comm ring
  have old := family.nonzero _ List.mem_cons_self
  refine ⟨_, clist_del_init_eq (family.offset_ne List.mem_cons_self linked.prev)
    (family.offset_ne List.mem_cons_self linked.next), ?_⟩
  have kept : Rings (links.delInit entry) others :=
    rings_join (rings_join (rings_tail family) fun other member =>
      ⟨rings_outside family linked.prev other member, rings_outside family linked.next other member⟩)
      fun other member =>
        ⟨rings_outside family inside other member, rings_outside family inside other member⟩
  have alone : Rings (links.delInit entry) ([entry] :: others) := by
    refine rings_cons kept (ring_init _ entry) (fun other member _ here => ?_) ?_
    · rw [List.mem_singleton] at here
      subst here
      exact rings_outside family inside other member
    · rw [List.mem_singleton]
      exact (family.offset_ne List.mem_cons_self inside).symm
  refine ⟨alone, fun more => rings_cons alone ?_ (fun other member _ here among => ?_) fun zero => ?_⟩
  · refine ring_append_comm (ring_delInit turned fun none => more ?_)
    exact List.append_eq_nil_iff.mpr (List.append_eq_nil_iff.mp none).symm
  · rcases List.mem_cons.mp member with rfl | member
    · rw [List.mem_singleton] at among
      subst among
      exact (List.nodup_cons.mp turned.2.1).1 (List.mem_append.mpr (List.mem_append.mp here).symm)
    · refine rings_outside family ?_ other member among
      exact (List.mem_append.mp here).elim (List.mem_append_left _) fun here =>
        List.mem_append_right _ (List.mem_cons_of_mem _ here)
  · exact old ((List.mem_append.mp zero).elim (List.mem_append_left _) fun here =>
      List.mem_append_right _ (List.mem_cons_of_mem _ here))

theorem rings_splice {head list : Offset} {front back : List Offset}
    (family : Rings links ((head :: front) :: (list :: back) :: others)) :
    ∃ links', clistSplice links list head = some links' ∧
      Rings links' ((head :: front ++ list :: back) :: others) := by
  have second := List.mem_cons_of_mem (head :: front) (@List.mem_cons_self _ (list :: back) others)
  have ring := family.ring _ List.mem_cons_self
  have ring' := family.ring _ second
  have linked := linked_head ring
  have linked' := linked_head ring'
  have rest := rings_tail family
  refine ⟨_, clist_splice_eq (family.offset_ne second linked'.prev)
    (family.offset_ne List.mem_cons_self linked.prev), ?_⟩
  have outside {node : Offset} (inside : node ∈ head :: front) (other : List Offset)
      (member : other ∈ others) : node ∉ other :=
    rings_outside family inside other (List.mem_cons_of_mem _ member)
  have kept : Rings (links.splice list head) others :=
    rings_join (rings_join (rings_tail rest) fun other member =>
      ⟨rings_outside rest linked'.prev other member, outside List.mem_cons_self other member⟩)
      fun other member =>
        ⟨outside linked.prev other member, rings_outside rest List.mem_cons_self other member⟩
  refine rings_cons kept (ring_splice ring ring' ?_) (fun other member _ here among => ?_) fun zero => ?_
  · exact (List.pairwise_cons.mp family.apart).1 _ List.mem_cons_self
  · rcases List.mem_append.mp here with here | here
    · exact outside here other member among
    · exact rings_outside rest here other member among
  · rcases List.mem_append.mp zero with zero | zero
    · exact family.nonzero _ List.mem_cons_self zero
    · exact family.nonzero _ second zero

/-- The operations keep families of rings, in which all links are inverse to each other and a ring is
read from its head in the order given. -/
theorem clist_rings (links : Links Offset) (others : List (List Offset)) :
    (∀ head rest node, Rings links ((head :: rest) :: others) → node ≠ 0 →
      (∀ nodes ∈ (head :: rest) :: others, node ∉ nodes) →
      (∃ links', clistAddHead links node head = some links' ∧
        Rings links' ((head :: node :: rest) :: others)) ∧
      ∃ links', clistAddTail links node head = some links' ∧
        Rings links' ((head :: (rest ++ [node])) :: others)) ∧
    (∀ front entry back, Rings links ((front ++ entry :: back) :: others) →
      ∃ links', clistDelInit links entry = some links' ∧ Rings links' ([entry] :: others) ∧
        (front ++ back ≠ [] → Rings links' ((front ++ back) :: [entry] :: others))) ∧
    (∀ head front list back, Rings links ((head :: front) :: (list :: back) :: others) →
      ∃ links', clistSplice links list head = some links' ∧
        Rings links' ((head :: front ++ list :: back) :: others)) ∧
    ∀ rings, Rings links rings → ∀ nodes ∈ rings,
      (∀ node ∈ nodes, links.next (links.prev node) = node ∧ links.prev (links.next node) = node) ∧
        ∀ head rest, nodes = head :: rest → links.ringFrom head = nodes := by
  refine ⟨fun head rest node family nonzero fresh => ⟨rings_add_head node family nonzero fresh,
    rings_add_tail node family nonzero fresh⟩, fun front entry back => rings_del_init entry,
    fun head front list back => rings_splice, fun rings family nodes member => ⟨?_, ?_⟩⟩
  · intro node inside
    have linked := linked_ring (family.ring nodes member) inside
    exact ⟨linked.nextPrev, linked.prevNext⟩
  · rintro head rest rfl
    exact ring_from (family.ring _ member)

/-- Three lists of one node each: the second is spliced to the first, and its node taken out again. -/
theorem singletons_spliced : ∃ links', clistSplice ⟨id, id⟩ 16 8 = some links' ∧
    Rings links' [[8, 16], [24]] ∧ ∃ links'', clistDelInit links' 16 = some links'' ∧
      Rings links'' [[8], [16], [24]] := by
  have single (node : Offset) : IsRing ⟨id, id⟩ [node] :=
    ⟨List.cons_ne_nil node [], List.nodup_singleton node, by simp [Links.Adj]⟩
  have family : Rings ⟨id, id⟩ [[8], [16], [24]] :=
    ⟨by simp [single], by simp, by decide⟩
  obtain ⟨links', spliced, joined⟩ := (clist_rings ⟨id, id⟩ [[24]]).2.2.1 8 [] 16 [] family
  obtain ⟨links'', deleted, -, parted⟩ := (clist_rings links' [[24]]).2.1 [8] 16 [] joined
  exact ⟨links', spliced, joined, links'', deleted, parted (by decide)⟩

end Rings

end Upst.Clisto
