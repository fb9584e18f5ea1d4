import Mathlib.Data.List.Cycle
import Mathlib.Data.List.Iterate
import Mathlib.Dynamics.PeriodicPts.Defs

/-!
Circular doubly linked lists over an arbitrary node type. A list is held only by
its `next` and `prev` maps; `IsRing links nodes` says that the nodes of a Lean
list are exactly one closed ring of these maps, read from its first member. All
primitives are built from `join`, which writes the two links between neighbours.
-/

namespace Upst.CList

set_option autoImplicit false

variable {Node : Type*}

structure Links (Node : Type*) where
  next : Node → Node
  prev : Node → Node

/-- `after` follows `before`, seen from both ends. -/
def Links.Adj (links : Links Node) (before after : Node) : Prop :=
  links.next before = after ∧ links.prev after = before

/-- The nodes form one closed ring, in this order and up to rotation. -/
def IsRing (links : Links Node) (nodes : List Node) : Prop :=
  nodes ≠ [] ∧ nodes.Nodup ∧ Cycle.Chain links.Adj (nodes : Cycle Node)

variable {links : Links Node}

theorem ring_rotated {nodes other : List Node}
    (ring : IsRing links nodes) (rotated : nodes ~r other) : IsRing links other := by
  obtain ⟨nonempty, distinct, closed⟩ := ring
  refine ⟨?_, rotated.nodup_iff.mp distinct, ?_⟩
  · rintro rfl
    exact nonempty (List.isRotated_nil_iff.mp rotated)
  · rw [← Cycle.coe_eq_coe.mpr rotated]
    exact closed

theorem ring_append_comm {front back : List Node}
    (ring : IsRing links (front ++ back)) : IsRing links (back ++ front) :=
  ring_rotated ring List.isRotated_append

theorem ring_cons_iff (head : Node) (rest : List Node) :
    IsRing links (head :: rest) ↔
      (head :: rest).Nodup ∧ List.IsChain links.Adj (head :: (rest ++ [head])) := by
  simp [IsRing]

theorem ring_adjacent {front back : List Node} {before after : Node}
    (ring : IsRing links (front ++ before :: after :: back)) :
    links.next before = after ∧ links.prev after = before := by
  have turned : IsRing links (before :: (after :: back ++ front)) := by
    simpa using ring_append_comm ring
  rw [ring_cons_iff] at turned
  simp only [List.cons_append, List.isChain_cons_cons] at turned
  exact turned.2.1

theorem ring_last_adjacent {front : List Node} {last head : Node}
    (ring : IsRing links (head :: (front ++ [last]))) :
    links.next last = head ∧ links.prev head = last := by
  have turned : IsRing links ([] ++ last :: head :: front) := by
    have split : head :: (front ++ [last]) = (head :: front) ++ [last] := by simp
    rw [split] at ring
    simpa using ring_append_comm ring
  exact ring_adjacent turned

theorem ring_prev_head {head : Node} {rest : List Node} (ring : IsRing links (head :: rest)) :
    links.prev head = (head :: rest).getLast (by simp) := by
  rcases List.eq_nil_or_concat rest with rfl | ⟨front, last, rfl⟩
  · rw [ring_cons_iff] at ring
    simp only [List.nil_append, List.isChain_cons_cons] at ring
    simpa using ring.2.1.2
  · have closing := ring_last_adjacent (by simpa using ring)
    simpa using closing.2

/-- Leaving the last member of a ring returns to its head. -/
theorem ring_next_last {head : Node} {rest : List Node} (ring : IsRing links (head :: rest)) :
    links.next ((head :: rest).getLast (by simp)) = head := by
  rcases List.eq_nil_or_concat rest with rfl | ⟨front, last, rfl⟩
  · rw [ring_cons_iff] at ring
    simp only [List.nil_append, List.isChain_cons_cons] at ring
    simpa using ring.2.1.1
  · have closing := ring_last_adjacent (by simpa using ring)
    simpa using closing.1

/-- The nodes met by following `next` from `head` until it comes back. -/
noncomputable def Links.ringFrom (links : Links Node) (head : Node) : List Node :=
  List.iterate links.next head (Function.minimalPeriod links.next head)

theorem chain_iterate {head : Node} {tail : List Node}
    (chain : List.IsChain links.Adj (head :: tail)) :
    head :: tail = List.iterate links.next head (tail.length + 1) := by
  induction tail generalizing head with
  | nil => rfl
  | cons second tail ih =>
      rw [List.isChain_cons_cons] at chain
      have walked := ih chain.2
      show head :: second :: tail = head :: List.iterate links.next (links.next head) (tail.length + 1)
      rw [chain.1.1, ← walked]

theorem ring_from {head : Node} {rest : List Node}
    (ring : IsRing links (head :: rest)) : links.ringFrom head = head :: rest := by
  have chain := ((ring_cons_iff head rest).mp ring).2
  have around := chain_iterate chain
  rw [← List.cons_append] at chain
  have walked := chain_iterate chain.left_of_append
  have closed : links.next^[rest.length + 1] head = head := by
    have entry := List.getElem?_iterate links.next head (rest.length + 2) (rest.length + 1) (by simp)
    have size : (rest ++ [head]).length + 1 = rest.length + 2 := by simp
    rw [size] at around
    rw [← around] at entry
    simpa using entry.symm
  have periodic : Function.IsPeriodicPt links.next (rest.length + 1) head := closed
  have upper := periodic.minimalPeriod_le (Nat.succ_pos _)
  have positive := periodic.minimalPeriod_pos (Nat.succ_pos _)
  have full : Function.minimalPeriod links.next head = rest.length + 1 := by
    refine Nat.le_antisymm upper (Nat.le_of_not_lt ?_)
    intro below
    have returned := List.getElem?_iterate links.next head _ _ below
    rw [← walked, Function.iterate_minimalPeriod] at returned
    have again : (head :: rest)[0]? = some head := rfl
    have same := (List.getElem?_inj below ring.2.1).mp (returned.trans again.symm)
    omega
  rw [Links.ringFrom, full, ← walked]

/-- Links kept at all its nodes keep a ring. -/
theorem ring_relink {links other : Links Nat} {nodes : List Nat} (ring : IsRing links nodes)
    (kept : ∀ node ∈ nodes, other.next node = links.next node ∧
      other.prev node = links.prev node) : IsRing other nodes := by
  cases nodes with
  | nil => exact absurd rfl ring.1
  | cons head rest =>
      rw [ring_cons_iff] at ring ⊢
      refine ⟨ring.1, ?_⟩
      refine List.IsChain.imp_of_mem_imp ?_ ring.2
      intro left right leftMember rightMember adj
      have inside : ∀ node ∈ head :: (rest ++ [head]), node ∈ head :: rest := by
        intro node member
        simp only [List.mem_cons, List.mem_append, List.not_mem_nil, or_false] at member ⊢
        tauto
      exact ⟨(kept left (inside left leftMember)).1.trans adj.1,
        (kept right (inside right rightMember)).2.trans adj.2⟩

section Primitives

variable [DecidableEq Node]

/-- The one write of the whole library: both links between two neighbours. -/
def Links.join (links : Links Node) (before after : Node) : Links Node where
  next := Function.update links.next before after
  prev := Function.update links.prev after before

/-- A one-member ring. -/
def Links.init (links : Links Node) (node : Node) : Links Node :=
  links.join node node

/-- Insert `node` between two members that follow each other. -/
def Links.insertBetween (links : Links Node) (node before after : Node) : Links Node :=
  (links.join node after).join before node

def Links.addHead (links : Links Node) (node head : Node) : Links Node :=
  links.insertBetween node head (links.next head)

def Links.addTail (links : Links Node) (node head : Node) : Links Node :=
  links.insertBetween node (links.prev head) head

def Links.delInit (links : Links Node) (node : Node) : Links Node :=
  (links.join (links.prev node) (links.next node)).init node

/-- Append the ring of `list` to the ring of `head`. -/
def Links.splice (links : Links Node) (list head : Node) : Links Node :=
  let last := links.prev list
  let atNode := links.prev head
  (links.join last head).join atNode list

theorem join_adj (links : Links Node) (before after : Node) :
    (links.join before after).Adj before after := by
  simp [Links.Adj, Links.join]

theorem join_adj_other {before after left right : Node}
    (adj : links.Adj left right) (fresh : left ≠ before) (fresh' : right ≠ after) :
    (links.join before after).Adj left right := by
  simpa [Links.Adj, Links.join, fresh, fresh'] using adj

/-- A chain survives a write that starts outside all but its last node and ends
outside all but its first. -/
theorem chain_join {before after : Node} {nodes : List Node}
    (chain : List.IsChain links.Adj nodes) (starts : before ∉ nodes.dropLast)
    (ends : after ∉ nodes.tail) :
    List.IsChain (links.join before after).Adj nodes := by
  induction nodes with
  | nil => exact List.isChain_nil
  | cons first rest ih =>
      cases rest with
      | nil => exact List.isChain_singleton first
      | cons second rest =>
          simp only [List.isChain_cons_cons] at chain ⊢
          simp only [List.dropLast_cons_cons, List.mem_cons, not_or, List.tail_cons] at starts ends
          refine ⟨join_adj_other chain.1 (Ne.symm starts.1) (Ne.symm ends.1), ?_⟩
          exact ih chain.2 starts.2 (by simpa using ends.2)

/-- A ring is untouched by a write between nodes outside it. -/
theorem ring_join_frame {nodes : List Node} {before after : Node}
    (ring : IsRing links nodes) (outside : before ∉ nodes) (outside' : after ∉ nodes) :
    IsRing (links.join before after) nodes := by
  cases nodes with
  | nil => exact absurd rfl ring.1
  | cons head rest =>
      rw [ring_cons_iff] at ring ⊢
      refine ⟨ring.1, chain_join ring.2 ?_ ?_⟩
      · rw [← List.cons_append, List.dropLast_concat]
        exact outside
      · simp only [List.mem_cons, not_or] at outside'
        simp only [List.tail_cons, List.mem_append, List.mem_singleton, not_or]
        exact ⟨outside'.2, outside'.1⟩

theorem ring_init (links : Links Node) (node : Node) : IsRing (links.init node) [node] := by
  rw [ring_cons_iff]
  simpa [Links.init] using join_adj links node node

theorem ring_init_frame {nodes : List Node} {node : Node}
    (ring : IsRing links nodes) (outside : node ∉ nodes) : IsRing (links.init node) nodes :=
  ring_join_frame ring outside outside

theorem ring_addHead (node : Node) {head : Node} {rest : List Node}
    (ring : IsRing links (head :: rest)) (fresh : node ∉ head :: rest) :
    IsRing (links.addHead node head) (head :: node :: rest) := by
  rw [ring_cons_iff] at ring ⊢
  obtain ⟨distinct, chain⟩ := ring
  simp only [List.mem_cons, not_or] at fresh
  simp only [List.nodup_cons] at distinct
  -- `follower` is the node that `node` is put in front of, `head` itself in a one-member ring
  obtain ⟨follower, others, split⟩ : ∃ follower others, rest ++ [head] = follower :: others := by
    cases rest with
    | nil => exact ⟨head, [], rfl⟩
    | cons first tail => exact ⟨first, tail ++ [head], rfl⟩
  have following : links.next head = follower := by
    rw [split, List.isChain_cons_cons] at chain
    exact chain.1.1
  have followerDistinct : (follower :: others).Nodup := by
    rw [← split]
    exact List.nodup_append_comm.mp (by simpa using distinct)
  have followerNe : follower ≠ node := by
    rintro rfl
    have member : follower ∈ rest ++ [head] := by simp [split]
    simp only [List.mem_append, List.mem_singleton] at member
    exact member.elim fresh.2 fresh.1
  refine ⟨?_, ?_⟩
  · simp only [List.nodup_cons, List.mem_cons, not_or]
    exact ⟨⟨Ne.symm fresh.1, distinct.1⟩, fresh.2, distinct.2⟩
  · have rest_chain : List.IsChain links.Adj (follower :: others) := by
      rw [split] at chain
      exact chain.tail
    have joined : List.IsChain ((links.join node follower).join head node).Adj
        (follower :: others) := by
      rw [← split] at rest_chain followerDistinct ⊢
      refine chain_join (chain_join rest_chain ?_ ?_) ?_ ?_
      · simpa using fresh.2
      · have outside := (List.nodup_cons.mp (split ▸ followerDistinct)).1
        rw [split]
        simpa using outside
      · simpa using distinct.1
      · intro member
        have := List.mem_of_mem_tail member
        simp only [List.mem_append, List.mem_singleton] at this
        exact this.elim fresh.2 fresh.1
    simp only [Links.addHead, Links.insertBetween, following, List.cons_append, split,
      List.isChain_cons_cons]
    refine ⟨join_adj _ _ _, ?_, joined⟩
    exact join_adj_other (join_adj links node follower) fresh.1 followerNe

theorem ring_addTail {node head : Node} {rest : List Node}
    (ring : IsRing links (head :: rest)) (fresh : node ∉ head :: rest) :
    IsRing (links.addTail node head) (head :: (rest ++ [node])) := by
  have last := ring_prev_head ring
  have back := ring_next_last ring
  have same : links.addTail node head = links.addHead node (links.prev head) := by
    rw [Links.addTail, Links.addHead, last, back]
  rw [same]
  rcases List.eq_nil_or_concat rest with rfl | ⟨front, final, rfl⟩
  · simp only [List.getLast_singleton] at last
    rw [last]
    simpa using ring_addHead node ring fresh
  · have turned : IsRing links (final :: head :: front) := by
      have split : head :: (front.concat final) = (head :: front) ++ [final] := by simp
      rw [split] at ring
      simpa using ring_append_comm ring
    have lastFinal : links.prev head = final := by simpa using last
    rw [lastFinal]
    have inserted := ring_addHead node turned (by
      simp only [List.concat_eq_append, List.mem_cons, List.mem_append] at fresh ⊢
      tauto)
    have split : final :: node :: head :: front = [final, node] ++ (head :: front) := rfl
    rw [split] at inserted
    simpa using ring_append_comm inserted

theorem ring_delInit {node : Node} {rest : List Node}
    (ring : IsRing links (node :: rest)) (others : rest ≠ []) :
    IsRing (links.delInit node) rest := by
  obtain ⟨first, tail, rfl⟩ := List.exists_cons_of_ne_nil others
  have distinct := ring.2.1
  have whole : IsRing links ([] ++ node :: first :: tail) := ring
  have following : links.next node = first := (ring_adjacent whole).1
  have preceding : links.prev node = (first :: tail).getLast (by simp) := by
    rw [ring_prev_head ring, List.getLast_cons]
  rw [ring_cons_iff] at ring
  simp only [List.nodup_cons] at distinct
  refine ring_init_frame ?_ distinct.1
  rw [ring_cons_iff, following, preceding]
  refine ⟨by simpa using distinct.2, ?_⟩
  have inner : List.IsChain links.Adj (first :: tail) := by
    have chain := ring.2.tail
    exact List.IsChain.left_of_append (by simpa using chain)
  have closed : List.IsChain (links.join ((first :: tail).getLast (by simp)) first).Adj
      (first :: tail) := by
    refine chain_join inner ?_ (by simpa using distinct.2.1)
    have lastOnce : (first :: tail).Nodup := by simpa using distinct.2
    rw [← List.dropLast_append_getLast (l := first :: tail) (by simp)] at lastOnce
    intro member
    exact (List.nodup_append.mp lastOnce).2.2 _ member _ (by simp) rfl
  rw [← List.cons_append, List.isChain_append]
  refine ⟨closed, List.isChain_singleton _, ?_⟩
  intro left leftLast right rightFirst
  have leftEq : left = (first :: tail).getLast (by simp) := by
    rw [List.getLast?_eq_getLast_of_ne_nil (by simp)] at leftLast
    exact (Option.some.inj leftLast).symm
  have rightEq : right = first := by simpa using rightFirst.symm
  rw [leftEq, rightEq]
  exact join_adj _ _ _

theorem splice_frame {nodes : List Node} {list head : Node}
    {front back : List Node} (ring : IsRing links nodes)
    (first : IsRing links (head :: front)) (second : IsRing links (list :: back))
    (apart : List.Disjoint nodes (head :: front)) (apart' : List.Disjoint nodes (list :: back)) :
    IsRing (links.splice list head) nodes := by
  have lastMember : links.prev list ∈ list :: back := by
    rw [ring_prev_head second]
    exact List.getLast_mem _
  have atMember : links.prev head ∈ head :: front := by
    rw [ring_prev_head first]
    exact List.getLast_mem _
  refine ring_join_frame (ring_join_frame ring ?_ ?_) ?_ ?_
  · exact fun member => apart' member lastMember
  · exact fun member => apart member List.mem_cons_self
  · exact fun member => apart member atMember
  · exact fun member => apart' member List.mem_cons_self

theorem ring_splice {list head : Node} {front back : List Node}
    (first : IsRing links (head :: front)) (second : IsRing links (list :: back))
    (apart : List.Disjoint (head :: front) (list :: back)) :
    IsRing (links.splice list head) ((head :: front) ++ (list :: back)) := by
  have atNode := ring_prev_head first
  have last := ring_prev_head second
  have lastMember : links.prev list ∈ list :: back := last ▸ List.getLast_mem _
  have atMember : links.prev head ∈ head :: front := atNode ▸ List.getLast_mem _
  have distinct : ((head :: front) ++ (list :: back)).Nodup :=
    List.nodup_append'.mpr ⟨first.2.1, second.2.1, apart⟩
  have opened : ∀ {node : Node} {others : List Node}, IsRing links (node :: others) →
      links.prev node ∉ (node :: others).dropLast := by
    intro node others ring member
    have once := ring.2.1
    rw [← List.dropLast_append_getLast (l := node :: others) (by simp)] at once
    rw [ring_prev_head ring] at member
    exact (List.nodup_append.mp once).2.2 _ member _ (by simp) rfl
  have firstChain : List.IsChain (links.splice list head).Adj (head :: front) := by
    have chain := ((ring_cons_iff head front).mp first).2
    rw [← List.cons_append] at chain
    refine chain_join (chain_join chain.left_of_append ?_ ?_) ?_ ?_
    · exact fun member => apart (List.mem_of_mem_dropLast member) lastMember
    · exact (List.nodup_cons.mp first.2.1).1
    · exact opened first
    · exact fun member => apart (List.mem_of_mem_tail member) List.mem_cons_self
  have secondChain : List.IsChain (links.splice list head).Adj (list :: back) := by
    have chain := ((ring_cons_iff list back).mp second).2
    rw [← List.cons_append] at chain
    refine chain_join (chain_join chain.left_of_append ?_ ?_) ?_ ?_
    · exact opened second
    · exact fun member => apart List.mem_cons_self (List.mem_of_mem_tail member)
    · exact fun member => apart atMember (List.mem_of_mem_dropLast member)
    · exact (List.nodup_cons.mp second.2.1).1
  have crossing : (links.splice list head).Adj (links.prev head) list := join_adj _ _ _
  have closing : (links.splice list head).Adj (links.prev list) head := by
    refine join_adj_other (join_adj _ _ _) ?_ ?_
    · exact fun same => apart atMember (same ▸ lastMember)
    · exact fun same => apart List.mem_cons_self (same ▸ List.mem_cons_self)
  have split : (head :: front) ++ (list :: back) = head :: (front ++ list :: back) := rfl
  rw [split, ring_cons_iff]
  refine ⟨distinct, ?_⟩
  have whole : head :: (front ++ list :: back ++ [head]) =
      (head :: front) ++ ((list :: back) ++ [head]) := by simp
  rw [whole, List.isChain_append, List.isChain_append]
  refine ⟨firstChain, ⟨secondChain, List.isChain_singleton _, ?_⟩, ?_⟩
  · intro left leftLast right rightFirst
    rw [List.getLast?_eq_getLast_of_ne_nil (by simp)] at leftLast
    have leftEq : left = links.prev list := last ▸ (Option.some.inj leftLast).symm
    have rightEq : right = head := by simpa using rightFirst.symm
    rw [leftEq, rightEq]
    exact closing
  · intro left leftLast right rightFirst
    rw [List.getLast?_eq_getLast_of_ne_nil (by simp)] at leftLast
    have leftEq : left = links.prev head := atNode ▸ (Option.some.inj leftLast).symm
    have rightEq : right = list := by simpa using rightFirst.symm
    rw [leftEq, rightEq]
    exact crossing

end Primitives

end Upst.CList
