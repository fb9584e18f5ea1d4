import Mathlib.Data.List.Nodup
import Mathlib.Logic.Function.Basic

/-!
Chains of nodes that start at a head and end at nothing. Each node knows its successor, and
keeps a reference back to the place that leads to it: the head's place for the first node,
and its predecessor's, as `ref` gives it, for the others.
-/

namespace Upst.Chain

set_option autoImplicit false

variable {Node Back : Type}

structure Links (Node Back : Type) where
  next : Node → Option Node
  back : Node → Back

/-- From `head`, which is at the place `before`, the links lead through these nodes. -/
def Chained (links : Links Node Back) (ref : Node → Back) : Option Node → Back → List Node → Prop
  | head, _, [] => head = none
  | head, before, node :: rest =>
      head = some node ∧ links.back node = before ∧
        Chained links ref (links.next node) (ref node) rest

section Pointers

/-- The node that a pointer leads to, where 0 leads to no node. -/
def pointed (pointer : Nat) : Option Nat := if pointer = 0 then none else some pointer

theorem pointed_zero : pointed 0 = none := rfl

theorem pointed_pos {pointer : Nat} (positive : pointer ≠ 0) : pointed pointer = some pointer :=
  if_neg positive

theorem pointed_none {pointer : Nat} (nothing : pointed pointer = none) : pointer = 0 := by
  by_contra positive
  rw [pointed_pos positive] at nothing
  cases nothing

theorem pointed_some {pointer node : Nat} (found : pointed pointer = some node) :
    pointer = node ∧ pointer ≠ 0 := by
  by_cases nothing : pointer = 0
  · rw [nothing] at found
    cases found
  · rw [pointed_pos nothing] at found
    exact ⟨Option.some.inj found, nothing⟩

end Pointers

variable {links links' : Links Node Back} {ref : Node → Back} {head : Option Node} {before : Back}
  {nodes : List Node}

/-- A chain reads nothing but the links of its nodes. -/
theorem chained_congr (chain : Chained links ref head before nodes)
    (same : ∀ node ∈ nodes, links'.next node = links.next node ∧ links'.back node = links.back node) :
    Chained links' ref head before nodes := by
  induction nodes generalizing head before with
  | nil => exact chain
  | cons node rest ih =>
      obtain ⟨first, back, later⟩ := chain
      obtain ⟨next, kept⟩ := same node List.mem_cons_self
      refine ⟨first, kept.trans back, ?_⟩
      rw [next]
      exact ih later fun other member => same other (List.mem_cons_of_mem _ member)

theorem chained_head (chain : Chained links ref head before nodes) : head = nodes.head? := by
  cases nodes with
  | nil => exact chain
  | cons node rest => exact chain.1

/-- A fresh node before the first one. -/
theorem chained_push (chain : Chained links ref head before nodes) {fresh : Node}
    (distinct : nodes.Nodup)
    (next : links'.next fresh = head) (back : links'.back fresh = before)
    (kept : ∀ node ∈ nodes, links'.next node = links.next node)
    (moved : ∀ node ∈ nodes,
      (head = some node → links'.back node = ref fresh) ∧
        (head ≠ some node → links'.back node = links.back node)) :
    Chained links' ref (some fresh) before (fresh :: nodes) := by
  refine ⟨rfl, back, ?_⟩
  rw [next]
  cases nodes with
  | nil => exact chain
  | cons node rest =>
      obtain ⟨first, -, later⟩ := chain
      refine ⟨first, (moved node List.mem_cons_self).1 first, ?_⟩
      rw [kept node List.mem_cons_self]
      refine chained_congr later fun other member => ⟨kept other (List.mem_cons_of_mem _ member), ?_⟩
      refine (moved other (List.mem_cons_of_mem _ member)).2 ?_
      rw [first, Ne, Option.some.injEq]
      rintro rfl
      exact (List.nodup_cons.mp distinct).1 member

/-- The place that leads to the first node of the rest of a chain. -/
theorem chained_split {front rest : List Node} {node : Node}
    (chain : Chained links ref head before (front ++ node :: rest)) :
    (front = [] ∧ head = some node ∧ links.back node = before ∨
      ∃ pred ∈ front, links.next pred = some node ∧ links.back node = ref pred) ∧
      Chained links ref (links.next node) (ref node) rest := by
  induction front generalizing head before with
  | nil => exact ⟨Or.inl ⟨rfl, chain.1, chain.2.1⟩, chain.2.2⟩
  | cons first front ih =>
      obtain ⟨-, -, later⟩ := chain
      obtain ⟨place, tail⟩ := ih later
      refine ⟨Or.inr ?_, tail⟩
      rcases place with ⟨rfl, follows, back⟩ | ⟨pred, member, follows, back⟩
      · exact ⟨first, List.mem_cons_self, follows, back⟩
      · exact ⟨pred, List.mem_cons_of_mem _ member, follows, back⟩

/-- The neighbours of a node of a chain that refers back to nodes. -/
theorem chained_around {links : Links Node (Option Node)} {before : Option Node}
    {front rest : List Node} {node : Node} {head : Option Node}
    (chain : Chained links some head before (front ++ node :: rest)) :
    links.back node = front.getLast?.or before ∧ links.next node = rest.head? ∧
      (∀ pred, front.getLast? = some pred → links.next pred = some node) ∧
      ∀ succ, rest.head? = some succ → links.back succ = some node := by
  induction front generalizing head before with
  | nil =>
      obtain ⟨-, back, later⟩ := chain
      refine ⟨by simpa using back, chained_head later, by simp, ?_⟩
      intro succ follows
      cases rest with
      | nil => simp at follows
      | cons first rest =>
          obtain rfl := Option.some.inj follows
          exact later.2.1
  | cons first front ih =>
      obtain ⟨-, -, later⟩ := chain
      obtain ⟨back, next, leads, returns⟩ := ih later
      refine ⟨?_, next, ?_, returns⟩
      · rw [back, List.getLast?_cons]
        cases front.getLast? <;> rfl
      · intro pred last
        cases front with
        | nil =>
            obtain rfl : first = pred := by simpa using last
            exact later.1
        | cons second front =>
            apply leads
            simpa using last

/-- A node taken out: what led to it leads to its successor, and the successor refers back
to there. -/
theorem chained_remove {front rest : List Node} {node : Node}
    (chain : Chained links ref head before (front ++ node :: rest))
    (distinct : (front ++ node :: rest).Nodup) (injective : Function.Injective ref)
    (outside : ∀ other ∈ front ++ node :: rest, ref other ≠ before) {head' : Option Node}
    (atHead : links.back node = before → head' = links.next node)
    (offHead : links.back node ≠ before → head' = head)
    (next : ∀ other ∈ front ++ rest,
      (links.back node = ref other → links'.next other = links.next node) ∧
        (links.back node ≠ ref other → links'.next other = links.next other))
    (back : ∀ other ∈ front ++ rest,
      (links.next node = some other → links'.back other = links.back node) ∧
        (links.next node ≠ some other → links'.back other = links.back other)) :
    Chained links' ref head' before (front ++ rest) := by
  induction front generalizing head before head' with
  | nil =>
      obtain ⟨-, atBefore, later⟩ := chain
      rw [atHead atBefore]
      have stays : ∀ other ∈ rest, links'.next other = links.next other := by
        intro other member
        refine (next other member).2 ?_
        rw [atBefore]
        exact (outside other (List.mem_cons_of_mem _ member)).symm
      cases rest with
      | nil => exact later
      | cons second rest =>
          obtain ⟨follows, -, tail⟩ := later
          refine ⟨follows, ((back second List.mem_cons_self).1 follows).trans atBefore, ?_⟩
          rw [stays second List.mem_cons_self]
          refine chained_congr tail fun other member =>
            ⟨stays other (List.mem_cons_of_mem _ member), ?_⟩
          refine (back other (List.mem_cons_of_mem _ member)).2 ?_
          rw [follows, Ne, Option.some.injEq]
          rintro rfl
          exact (List.nodup_cons.mp (List.nodup_cons.mp distinct).2).1 member
  | cons first front ih =>
      obtain ⟨entry, backFirst, later⟩ := chain
      obtain ⟨fresh, distinct'⟩ := List.nodup_cons.mp distinct
      obtain ⟨place, tail⟩ := chained_split later
      have away : links.back node ≠ before := by
        rcases place with ⟨-, -, refers⟩ | ⟨pred, member, -, refers⟩
        · rw [refers]
          exact outside first List.mem_cons_self
        · rw [refers]
          exact outside pred (List.mem_cons_of_mem _ (List.mem_append_left _ member))
      have notNext : links.next node ≠ some first := by
        rw [chained_head tail]
        intro follows
        exact fresh (List.mem_append_right _ (List.mem_cons_of_mem _ (List.mem_of_head? follows)))
      rw [offHead away]
      refine ⟨entry, ((back first List.mem_cons_self).2 notNext).trans backFirst, ?_⟩
      refine ih later distinct' ?_ (next first List.mem_cons_self).1 (next first List.mem_cons_self).2
        (fun other member => next other (List.mem_cons_of_mem _ member))
        fun other member => back other (List.mem_cons_of_mem _ member)
      intro other member same
      rw [injective same] at member
      exact fresh member

section DoublyLinked

/-- The links of nodes that keep two pointers. -/
def pointers (next prev : Nat → Nat) : Links Nat (Option Nat) where
  next := fun node => pointed (next node)
  back := fun node => pointed (prev node)

variable {next prev next' prev' : Nat → Nat} {head before node : Nat} {front rest nodes : List Nat}

theorem pointers_positive {before : Option Nat}
    (chain : Chained (pointers next prev) some (pointed head) before nodes) :
    ∀ member ∈ nodes, member ≠ 0 := by
  induction nodes generalizing head before with
  | nil => simp
  | cons first rest ih =>
      obtain ⟨found, -, later⟩ := chain
      obtain ⟨-, positive⟩ := pointed_some found
      obtain rfl : head = first := (pointed_some found).1
      intro member inside
      rcases List.mem_cons.mp inside with rfl | inside
      · exact positive
      · exact ih later member inside

theorem pointed_eq (pointer : Nat) {node : Nat} (positive : node ≠ 0) :
    pointed pointer = some node ↔ pointer = node := by
  constructor
  · exact fun found => (pointed_some found).1
  · rintro rfl
    exact pointed_pos positive

/-- A fresh node before the first one, whose back pointer is turned to it. -/
theorem pointers_push (chain : Chained (pointers next prev) some (pointed head) (pointed before) nodes)
    (distinct : nodes.Nodup) {fresh : Nat} (positive : fresh ≠ 0)
    (own : next' fresh = head ∧ prev' fresh = before)
    (nexts : ∀ other ∈ nodes, next' other = next other)
    (prevs : ∀ other ∈ nodes, prev' other = if head = other then fresh else prev other) :
    Chained (pointers next' prev') some (pointed fresh) (pointed before) (fresh :: nodes) := by
  rw [pointed_pos positive]
  apply chained_push chain distinct
  · exact congrArg pointed own.1
  · exact congrArg pointed own.2
  · exact fun other member => congrArg pointed (nexts other member)
  · intro other member
    have meant := pointed_eq head (pointers_positive chain other member)
    constructor
    · intro first
      show pointed (prev' other) = some fresh
      rw [prevs other member, if_pos (meant.mp first), pointed_pos positive]
    · intro later
      show pointed (prev' other) = pointed (prev other)
      rw [prevs other member, if_neg (meant.not.mp later)]

/-- A node taken out, whose neighbours' pointers are turned to each other. -/
theorem pointers_remove
    (chain : Chained (pointers next prev) some (pointed head) none (front ++ node :: rest))
    (distinct : (front ++ node :: rest).Nodup)
    (nexts : ∀ other ∈ front ++ rest,
      next' other = if prev node = other then next node else next other)
    (prevs : ∀ other ∈ front ++ rest,
      prev' other = if next node = other then prev node else prev other) :
    Chained (pointers next' prev') some (pointed (if prev node = 0 then next node else head)) none
      (front ++ rest) := by
  have positive : ∀ other ∈ front ++ rest, other ≠ 0 := by
    intro other member
    apply pointers_positive chain
    rcases List.mem_append.mp member with inside | inside
    · exact List.mem_append_left _ inside
    · exact List.mem_append_right _ (List.mem_cons_of_mem _ inside)
  apply chained_remove chain distinct (fun _ _ => Option.some.inj) fun _ _ => nofun
  · intro first
    rw [if_pos (pointed_none first)]
    rfl
  · intro later
    have filled : prev node ≠ 0 := fun nothing => later (congrArg pointed nothing)
    rw [if_neg filled]
  · intro other member
    have meant := pointed_eq (prev node) (positive other member)
    constructor
    · intro leads
      show pointed (next' other) = pointed (next node)
      rw [nexts other member, if_pos (meant.mp leads)]
    · intro apart
      show pointed (next' other) = pointed (next other)
      rw [nexts other member, if_neg (meant.not.mp apart)]
  · intro other member
    have meant := pointed_eq (next node) (positive other member)
    constructor
    · intro follows
      show pointed (prev' other) = pointed (prev node)
      rw [prevs other member, if_pos (meant.mp follows)]
    · intro apart
      show pointed (prev' other) = pointed (prev other)
      rw [prevs other member, if_neg (meant.not.mp apart)]

/-- The neighbours of a node refer to it. -/
theorem pointers_around
    (chain : Chained (pointers next prev) some (pointed head) none (front ++ node :: rest)) :
    pointed (prev node) = front.getLast? ∧ pointed (next node) = rest.head? ∧
      (prev node ≠ 0 → next (prev node) = node) ∧ (next node ≠ 0 → prev (next node) = node) := by
  obtain ⟨back, follows, leads, returns⟩ := chained_around chain
  rw [Option.or_none] at back
  refine ⟨back, follows, ?_, ?_⟩
  · intro filled
    exact (pointed_some (leads _ (back.symm.trans (pointed_pos filled)))).1
  · intro filled
    exact (pointed_some (returns _ (follows.symm.trans (pointed_pos filled)))).1

end DoublyLinked

end Upst.Chain
