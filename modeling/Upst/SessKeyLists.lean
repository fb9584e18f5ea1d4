import Upst.SessKey
import Upst.Chain
import Mathlib.Data.List.Perm.Subperm

/-!
What the table of session keys holds between two calls: a list of free nodes and a list of the
nodes in use, and over the latter the chains of the clients. Each call is described by what it
does to these lists.
-/

namespace Upst.SessKey

open Bytes Word Tcp Chain

set_option autoImplicit false

def SesskeyTbl.freeLinks (tbl : SesskeyTbl) : Links Nat Unit where
  next := fun i => pointed (tbl.stNode i).next
  back := fun _ => ()

def SesskeyTbl.usedLinks (tbl : SesskeyTbl) : Links Nat (Option Nat) :=
  pointers (fun i => (tbl.stNode i).next) fun i => (tbl.stNode i).prev

def SesskeyTbl.chainLinks (tbl : SesskeyTbl) : Links Nat (Option Nat) :=
  pointers (fun i => (tbl.stNode i).uiTCPNext) fun i => (tbl.stNode i).uiTCPPrev

/-- The table whose free nodes are `free` and whose nodes in use are `used`, the newest first. -/
structure Lists (tbl : SesskeyTbl) (free used : List Nat) : Prop where
  index : ∀ i < MAX_SESSKEY_LIST, (tbl.stNode i).uiIndex = i
  parts : (free ++ used).Perm (List.range' 1 (MAX_SESSKEY_LIST - 1))
  spare : free ≠ []
  freeChain : Chained tbl.freeLinks (fun _ => ()) (pointed tbl.uiFreeList) () free
  usedChain : Chained tbl.usedLinks some (pointed tbl.uiUsedFirst) none used
  last : pointed tbl.uiUsedLast = used.getLast?
  count : tbl.uiCurrCount = used.length
  cleared : ∀ i ∈ free, (tbl.stNode i).uiTCPNext = 0 ∧ (tbl.stNode i).uiTCPPrev = 0

/-- A chain of nodes in use. -/
structure ChainOf (tbl : SesskeyTbl) (used nodes : List Nat) : Prop where
  chain : ∃ head, Chained tbl.chainLinks some (pointed head) none nodes
  distinct : nodes.Nodup
  inUse : ∀ i ∈ nodes, i ∈ used

/-- What a node is for the chains. -/
def SesskeyList.session (node : SesskeyList) : TcpSessKey × Nat × Nat × Nat :=
  (node.stSessKey, node.SessStartTime, node.uiTCPNext, node.uiTCPPrev)

def SesskeyList.content (node : SesskeyList) : TcpSessKey × Nat :=
  (node.stSessKey, node.SessStartTime)

variable {tbl : SesskeyTbl} {free used nodes : List Nat} {i : Nat}

theorem Lists.distinct (lists : Lists tbl free used) : (free ++ used).Nodup :=
  lists.parts.nodup_iff.mpr List.nodup_range'

theorem Lists.within (lists : Lists tbl free used) (member : i ∈ free ++ used) :
    0 < i ∧ i < MAX_SESSKEY_LIST := by
  have inside := lists.parts.mem_iff.mp member
  rw [List.mem_range'_1] at inside
  simp only [MAX_SESSKEY_LIST] at inside ⊢
  omega

theorem Lists.used_length (lists : Lists tbl free used) : used.length < MAX_SESSKEY_LIST := by
  have total := lists.parts.length_eq
  rw [List.length_append, List.length_range'] at total
  simp only [MAX_SESSKEY_LIST] at total ⊢
  omega

theorem Lists.used_distinct (lists : Lists tbl free used) : used.Nodup :=
  (List.nodup_append.mp lists.distinct).2.1

theorem Lists.used_within (lists : Lists tbl free used) (member : i ∈ used) :
    0 < i ∧ i < MAX_SESSKEY_LIST :=
  lists.within (List.mem_append_right _ member)

theorem Lists.not_free (lists : Lists tbl free used) (member : i ∈ used) : i ∉ free :=
  fun inside => List.disjoint_of_nodup_append lists.distinct inside member

/-- The lists read nothing but the pointers, the index and, of a free node, the chain. -/
theorem lists_congr (lists : Lists tbl free used) {tbl' : SesskeyTbl}
    (heads : tbl'.uiFreeList = tbl.uiFreeList ∧ tbl'.uiUsedFirst = tbl.uiUsedFirst ∧
      tbl'.uiUsedLast = tbl.uiUsedLast ∧ tbl'.uiCurrCount = tbl.uiCurrCount)
    (fields : ∀ i, (tbl'.stNode i).next = (tbl.stNode i).next ∧
      (tbl'.stNode i).prev = (tbl.stNode i).prev ∧ (tbl'.stNode i).uiIndex = (tbl.stNode i).uiIndex)
    (chains : ∀ i ∈ free, (tbl'.stNode i).uiTCPNext = (tbl.stNode i).uiTCPNext ∧
      (tbl'.stNode i).uiTCPPrev = (tbl.stNode i).uiTCPPrev) : Lists tbl' free used := by
  obtain ⟨freeList, usedFirst, usedLast, currCount⟩ := heads
  refine ⟨fun i bound => (fields i).2.2.trans (lists.index i bound), lists.parts, lists.spare,
    ?_, ?_, ?_, ?_, ?_⟩
  · rw [freeList]
    exact chained_congr lists.freeChain fun i _ => ⟨congrArg pointed (fields i).1, rfl⟩
  · rw [usedFirst]
    exact chained_congr lists.usedChain fun i _ =>
      ⟨congrArg pointed (fields i).1, congrArg pointed (fields i).2.1⟩
  · rw [usedLast]
    exact lists.last
  · exact currCount.trans lists.count
  · intro i member
    rw [(chains i member).1, (chains i member).2]
    exact lists.cleared i member

theorem chain_of_congr (own : ChainOf tbl used nodes) {tbl' : SesskeyTbl} {used' : List Nat}
    (same : ∀ i ∈ nodes, (tbl'.stNode i).session = (tbl.stNode i).session)
    (inUse : ∀ i ∈ nodes, i ∈ used') : ChainOf tbl' used' nodes := by
  obtain ⟨head, chain⟩ := own.chain
  refine ⟨⟨head, chained_congr chain ?_⟩, own.distinct, inUse⟩
  intro i member
  have kept := Prod.mk.inj (Prod.mk.inj (Prod.mk.inj (same i member)).2).2
  exact ⟨congrArg pointed kept.1, congrArg pointed kept.2⟩

section Init

theorem init_lists (raw : Nat → SesskeyList) :
    Lists (initTCPKeyList raw) (List.range' 1 (MAX_SESSKEY_LIST - 1)) [] := by
  have node (i : Nat) (bound : i < MAX_SESSKEY_LIST) : (initTCPKeyList raw).stNode i =
      { raw i with
        prev := 0
        next := if i < MAX_SESSKEY_LIST - 1 then i + 1 else 0
        uiIndex := i
        uiTCPNext := 0
        uiTCPPrev := 0
        stSessKey := zeroKey } := if_pos bound
  have chain (length : Nat) : ∀ first, 0 < first → first + length = MAX_SESSKEY_LIST →
      Chained (initTCPKeyList raw).freeLinks (fun _ => ())
        (pointed (if first < MAX_SESSKEY_LIST then first else 0)) () (List.range' first length) := by
    induction length with
    | zero =>
        intro first positive total
        rw [if_neg (by omega)]
        rfl
    | succ length ih =>
        intro first positive total
        have bound : first < MAX_SESSKEY_LIST := by omega
        rw [if_pos bound, List.range'_succ]
        refine ⟨pointed_pos (Nat.ne_of_gt positive), rfl, ?_⟩
        have later := ih (first + 1) (Nat.succ_pos first) (by omega)
        have next : (initTCPKeyList raw).freeLinks.next first =
            pointed (if first + 1 < MAX_SESSKEY_LIST then first + 1 else 0) := by
          show pointed ((initTCPKeyList raw).stNode first).next = _
          have same : first < MAX_SESSKEY_LIST - 1 ↔ first + 1 < MAX_SESSKEY_LIST := by omega
          rw [node first bound]
          exact congrArg pointed (if_congr same rfl rfl)
        rw [next]
        exact later
  refine ⟨?_, ?_, ?_, ?_, rfl, rfl, rfl, ?_⟩
  · intro i bound
    rw [node i bound]
  · rw [List.append_nil]
  · simp [MAX_SESSKEY_LIST]
  · exact chain (MAX_SESSKEY_LIST - 1) 1 Nat.one_pos (by decide)
  · intro i member
    rw [List.mem_range'_1] at member
    rw [node i (by simp only [MAX_SESSKEY_LIST] at member ⊢; omega)]
    exact ⟨rfl, rfl⟩

end Init

/-- A node that is changed on a condition. -/
theorem set_node_if (condition : Prop) [Decidable condition] (tbl : SesskeyTbl) (index : Nat)
    (change : SesskeyList → SesskeyList) :
    (if condition then tbl.setNode index change else tbl) =
      { tbl with
        stNode := fun k =>
          if condition ∧ index = k then change (tbl.stNode k) else tbl.stNode k } := by
  by_cases holds : condition
  · rw [if_pos holds, SesskeyTbl.setNode]
    congr 1
    funext k
    by_cases own : index = k
    · subst own
      simp [holds]
    · simp [own, Ne.symm own]
  · simp [holds]

section Get

/-- The table after the first free node was put before the nodes in use. -/
def taken (tbl : SesskeyTbl) (i : Nat) : SesskeyTbl where
  uiFreeList := (tbl.stNode i).next
  uiUsedFirst := i
  uiUsedLast := if tbl.uiUsedLast = 0 then i else tbl.uiUsedLast
  uiCurrCount := u32 (tbl.uiCurrCount + 1)
  stNode := fun k =>
    { tbl.stNode k with
      next := if k = i then tbl.uiUsedFirst else (tbl.stNode k).next
      prev :=
        if 0 < tbl.uiUsedFirst ∧ tbl.uiUsedFirst = k then i
        else if k = i then 0
        else (tbl.stNode k).prev }

theorem get_taken (more : 0 < (tbl.stNode i).next) (first : tbl.uiFreeList = i)
    (index : (tbl.stNode i).uiIndex = i) : pGetSessKeyList tbl = (some i, taken tbl i) := by
  subst first
  rw [pGetSessKeyList, if_neg (by omega), if_neg (not_not.mpr index)]
  generalize tbl.uiFreeList = i
  simp only [set_node_if]
  simp only [SesskeyTbl.setNode, taken, Prod.mk.injEq, true_and]
  congr 1
  funext k
  by_cases top : 0 < tbl.uiUsedFirst ∧ tbl.uiUsedFirst = k
  · obtain ⟨filled, rfl⟩ := top
    by_cases own : tbl.uiUsedFirst = i
    · subst own
      simp [filled]
    · simp [filled, own]
  · by_cases own : k = i
    · subst own
      simp only [if_neg top, Function.update_self, if_true]
    · simp only [if_neg top, Function.update_of_ne own, if_neg own]

theorem get_none (lists : Lists tbl [i] used) : pGetSessKeyList tbl = (none, tbl) := by
  obtain ⟨first, -, alone⟩ := lists.freeChain
  have last : (tbl.stNode i).next = 0 := pointed_none alone
  rw [pGetSessKeyList, (pointed_some first).1, last, if_pos Nat.one_pos]

/-- The first free node goes before the nodes in use, if it is not the only one. -/
theorem get_spec {j : Nat} {rest : List Nat} (lists : Lists tbl (i :: j :: rest) used) :
    pGetSessKeyList tbl = (some i, taken tbl i) ∧ Lists (taken tbl i) (j :: rest) (i :: used) := by
  obtain ⟨first, -, later⟩ := lists.freeChain
  have second : (tbl.stNode i).next = j ∧ (tbl.stNode i).next ≠ 0 := pointed_some later.1
  obtain ⟨positive, bound⟩ := lists.within (List.mem_append_left used List.mem_cons_self)
  have fresh : ∀ k ∈ j :: rest ++ used, k ≠ i := by
    rintro k member rfl
    exact (List.nodup_cons.mp lists.distinct).1 member
  have inFree {k : Nat} (member : k ∈ j :: rest) : k ≠ i := fresh k (List.mem_append_left _ member)
  have inUsed {k : Nat} (member : k ∈ used) : k ≠ i := fresh k (List.mem_append_right _ member)
  have index := lists.index i bound
  refine ⟨get_taken (Nat.pos_of_ne_zero second.2) (pointed_some first).1 index,
    lists.index, List.perm_middle.trans lists.parts, List.cons_ne_nil j rest, ?_, ?_, ?_, ?_, ?_⟩
  · have chain : Chained tbl.freeLinks (fun _ => ()) (pointed (taken tbl i).uiFreeList) () (j :: rest) :=
      later
    apply chained_congr chain
    intro k member
    exact ⟨congrArg pointed (if_neg (inFree member)), rfl⟩
  · refine @pointers_push _ _ _ _ _ 0 _ lists.usedChain lists.used_distinct i
      (Nat.ne_of_gt positive) ⟨if_pos rfl, ?_⟩ ?_ ?_
    · show (if 0 < tbl.uiUsedFirst ∧ tbl.uiUsedFirst = i then i else if i = i then 0 else _) = 0
      have notFirst : ¬(0 < tbl.uiUsedFirst ∧ tbl.uiUsedFirst = i) := by
        rintro ⟨filled, same⟩
        have head := chained_head lists.usedChain
        rw [pointed_pos (Nat.ne_of_gt filled), same] at head
        exact inUsed (List.mem_of_head? head.symm) rfl
      rw [if_neg notFirst, if_pos rfl]
    · exact fun k member => if_neg (inUsed member)
    · intro k member
      have filled := (lists.used_within member).1
      show (if 0 < tbl.uiUsedFirst ∧ tbl.uiUsedFirst = k then i else if k = i then 0 else _) = _
      by_cases top : tbl.uiUsedFirst = k
      · rw [if_pos ⟨top ▸ filled, top⟩, if_pos top]
      · rw [if_neg fun both => top both.2, if_neg (inUsed member), if_neg top]
  · show pointed (if tbl.uiUsedLast = 0 then i else tbl.uiUsedLast) = (i :: used).getLast?
    have last := lists.last
    rw [List.getLast?_cons, ← last]
    by_cases empty : tbl.uiUsedLast = 0
    · rw [if_pos empty, empty, pointed_pos (Nat.ne_of_gt positive)]
      rfl
    · rw [if_neg empty, pointed_pos empty]
      rfl
  · have short := lists.used_length
    show u32 (tbl.uiCurrCount + 1) = used.length + 1
    rw [lists.count, u32_small (by simp only [MAX_SESSKEY_LIST] at short; omega)]
  · exact fun k member => lists.cleared k (List.mem_cons_of_mem _ member)

end Get

section Free

/-- The table after a node in use was put before the free ones. -/
def freed (tbl : SesskeyTbl) (i : Nat) : SesskeyTbl where
  uiFreeList := i
  uiUsedFirst := if 0 < (tbl.stNode i).prev then tbl.uiUsedFirst else (tbl.stNode i).next
  uiUsedLast := if 0 < (tbl.stNode i).next then tbl.uiUsedLast else (tbl.stNode i).prev
  uiCurrCount := u32Pred tbl.uiCurrCount
  stNode := fun k =>
    if k = i then
      { tbl.stNode i with
        prev := 0
        next := tbl.uiFreeList
        uiTCPNext := 0
        uiTCPPrev := 0
        stSessKey := zeroKey }
    else
      { tbl.stNode k with
        next :=
          if 0 < (tbl.stNode i).prev ∧ (tbl.stNode i).prev = k then (tbl.stNode i).next
          else (tbl.stNode k).next
        prev :=
          if 0 < (tbl.stNode i).next ∧ (tbl.stNode i).next = k then (tbl.stNode i).prev
          else (tbl.stNode k).prev }

theorem free_freed (lists : Lists tbl free used) (member : i ∈ used) :
    freeSessKeyList tbl i = freed tbl i := by
  obtain ⟨positive, bound⟩ := lists.used_within member
  obtain ⟨front, rest, rfl⟩ := List.append_of_mem member
  obtain ⟨back, follows, leads, returns⟩ := pointers_around lists.usedChain
  have index := lists.index i bound
  have first : ¬0 < (tbl.stNode i).prev → i = tbl.uiUsedFirst := by
    intro nothing
    rw [Nat.eq_zero_of_not_pos nothing] at back
    obtain rfl := List.getLast?_eq_none_iff.mp back.symm
    exact (pointed_some lists.usedChain.1).1.symm
  have final : ¬0 < (tbl.stNode i).next → i = tbl.uiUsedLast := by
    intro nothing
    rw [Nat.eq_zero_of_not_pos nothing] at follows
    obtain rfl := List.head?_eq_none_iff.mp follows.symm
    have last := lists.last
    rw [List.getLast?_append, List.getLast?_singleton] at last
    exact (pointed_some last).1.symm
  have inRange : ¬(i < 1 ∨ i > MAX_SESSKEY_LIST) := by omega
  rw [freeSessKeyList, if_neg inRange]
  dsimp only
  rw [index]
  have left : (if 0 < (tbl.stNode i).prev then
      if (tbl.stNode (tbl.stNode i).prev).next = i then
        tbl.setNode (tbl.stNode i).prev fun pred => { pred with next := (tbl.stNode i).next }
      else tbl
    else if i = tbl.uiUsedFirst then { tbl with uiUsedFirst := (tbl.stNode i).next } else tbl) =
      { tbl with
        uiUsedFirst := if 0 < (tbl.stNode i).prev then tbl.uiUsedFirst else (tbl.stNode i).next
        stNode := fun k =>
          { tbl.stNode k with
            next :=
              if 0 < (tbl.stNode i).prev ∧ (tbl.stNode i).prev = k then (tbl.stNode i).next
              else (tbl.stNode k).next } } := by
    by_cases filled : 0 < (tbl.stNode i).prev
    · rw [if_pos filled, if_pos (leads (Nat.ne_of_gt filled)), if_pos filled, SesskeyTbl.setNode]
      congr 1
      funext k
      by_cases own : (tbl.stNode i).prev = k
      · subst own
        simp [filled]
      · simp [own, Ne.symm own]
    · rw [if_neg filled, if_pos (first filled), if_neg filled]
      simp [filled]
  let mid : SesskeyTbl :=
    { tbl with
      uiUsedFirst := if 0 < (tbl.stNode i).prev then tbl.uiUsedFirst else (tbl.stNode i).next
      stNode := fun k =>
        { tbl.stNode k with
          next :=
            if 0 < (tbl.stNode i).prev ∧ (tbl.stNode i).prev = k then (tbl.stNode i).next
            else (tbl.stNode k).next } }
  have right : (if 0 < (tbl.stNode i).next then
      if (mid.stNode (tbl.stNode i).next).prev = i then
        mid.setNode (tbl.stNode i).next fun succ => { succ with prev := (tbl.stNode i).prev }
      else mid
    else if i = mid.uiUsedLast then { mid with uiUsedLast := (tbl.stNode i).prev } else mid) =
      { mid with
        uiUsedLast := if 0 < (tbl.stNode i).next then tbl.uiUsedLast else (tbl.stNode i).prev
        stNode := fun k =>
          { mid.stNode k with
            prev :=
              if 0 < (tbl.stNode i).next ∧ (tbl.stNode i).next = k then (tbl.stNode i).prev
              else (tbl.stNode k).prev } } := by
    by_cases filled : 0 < (tbl.stNode i).next
    · rw [if_pos filled, if_pos (returns (Nat.ne_of_gt filled)), if_pos filled, SesskeyTbl.setNode]
      congr 1
      funext k
      by_cases own : (tbl.stNode i).next = k
      · subst own
        simp [filled]
      · simp [mid, own, Ne.symm own]
    · rw [if_neg filled, if_pos (final filled), if_neg filled]
      simp [mid, filled]
  rw [left, right, SesskeyTbl.setNode, freed]
  congr 1
  funext k
  by_cases own : k = i
  · subst own
    exact (Function.update_self ..).trans (if_pos rfl).symm
  · exact (Function.update_of_ne own ..).trans (if_neg own).symm

theorem freed_other {k : Nat} (other : k ≠ i) :
    ((freed tbl i).stNode k).session = (tbl.stNode k).session := by
  have node : (freed tbl i).stNode k = _ := if_neg other
  rw [node]
  rfl

theorem erase_split {front rest : List Nat} (distinct : (front ++ i :: rest).Nodup) :
    (front ++ i :: rest).erase i = front ++ rest := by
  rw [List.erase_append_right _ fun inside =>
    List.disjoint_of_nodup_append distinct inside List.mem_cons_self, List.erase_cons_head]

/-- A node in use goes before the free ones. -/
theorem free_spec (lists : Lists tbl free used) (member : i ∈ used) :
    freeSessKeyList tbl i = freed tbl i ∧ Lists (freed tbl i) (i :: free) (used.erase i) := by
  refine ⟨free_freed lists member, ?_⟩
  obtain ⟨positive, bound⟩ := lists.used_within member
  have distinct := lists.used_distinct
  have notFree := lists.not_free member
  have short := lists.used_length
  obtain ⟨front, rest, rfl⟩ := List.append_of_mem member
  obtain ⟨back, follows, leads, returns⟩ := pointers_around lists.usedChain
  have own : (freed tbl i).stNode i =
      { tbl.stNode i with
        prev := 0
        next := tbl.uiFreeList
        uiTCPNext := 0
        uiTCPPrev := 0
        stSessKey := zeroKey } := if_pos rfl
  have other {k : Nat} (apart : k ≠ i) : (freed tbl i).stNode k =
      { tbl.stNode k with
        next :=
          if 0 < (tbl.stNode i).prev ∧ (tbl.stNode i).prev = k then (tbl.stNode i).next
          else (tbl.stNode k).next
        prev :=
          if 0 < (tbl.stNode i).next ∧ (tbl.stNode i).next = k then (tbl.stNode i).prev
          else (tbl.stNode k).prev } := if_neg apart
  have prevUsed : 0 < (tbl.stNode i).prev → (tbl.stNode i).prev ∈ front := by
    intro filled
    rw [pointed_pos (Nat.ne_of_gt filled)] at back
    exact List.mem_of_getLast? back.symm
  have freeApart {k : Nat} (inside : k ∈ free) : k ≠ i := by
    rintro rfl
    exact notFree inside
  have restApart {k : Nat} (inside : k ∈ front ++ rest) : k ≠ i := by
    rintro rfl
    rw [← erase_split distinct, distinct.mem_erase_iff] at inside
    exact inside.1 rfl
  have kept {k : Nat} (inside : k ∈ front ++ rest) : k ∈ front ++ i :: rest :=
    ((List.sublist_cons_self i rest).append_left front).subset inside
  rw [erase_split distinct]
  refine ⟨?_, ?_, List.cons_ne_nil i free, ?_, ?_, ?_, ?_, ?_⟩
  · intro k within
    by_cases same : k = i
    · subst same
      rw [own]
      exact lists.index k within
    · rw [other same]
      exact lists.index k within
  · refine List.Perm.trans ?_ lists.parts
    rw [List.cons_append]
    refine List.perm_middle.symm.trans ?_
    exact List.Perm.append_left free List.perm_middle.symm
  · refine ⟨pointed_pos (Nat.ne_of_gt positive), rfl, ?_⟩
    have next : (freed tbl i).freeLinks.next i = pointed tbl.uiFreeList := by
      show pointed ((freed tbl i).stNode i).next = _
      rw [own]
    rw [next]
    apply chained_congr lists.freeChain
    intro k inside
    refine ⟨?_, rfl⟩
    have notPrev : ¬(0 < (tbl.stNode i).prev ∧ (tbl.stNode i).prev = k) := by
      rintro ⟨filled, rfl⟩
      exact lists.not_free (List.mem_append_left _ (prevUsed filled)) inside
    show pointed ((freed tbl i).stNode k).next = pointed (tbl.stNode k).next
    rw [other (freeApart inside)]
    exact congrArg pointed (if_neg notPrev)
  · have first : (freed tbl i).uiUsedFirst =
        if (tbl.stNode i).prev = 0 then (tbl.stNode i).next else tbl.uiUsedFirst := by
      show (if 0 < (tbl.stNode i).prev then tbl.uiUsedFirst else (tbl.stNode i).next) = _
      simp only [Nat.pos_iff_ne_zero, ite_not]
    rw [first]
    apply pointers_remove lists.usedChain distinct
    · intro k inside
      have filled := (lists.used_within (kept inside)).1
      rw [other (restApart inside)]
      apply if_congr _ rfl rfl
      exact and_iff_right_of_imp fun same => same ▸ filled
    · intro k inside
      have filled := (lists.used_within (kept inside)).1
      rw [other (restApart inside)]
      apply if_congr _ rfl rfl
      exact and_iff_right_of_imp fun same => same ▸ filled
  · show pointed (if 0 < (tbl.stNode i).next then tbl.uiUsedLast else (tbl.stNode i).prev) = _
    cases rest with
    | nil =>
        have final : (tbl.stNode i).next = 0 := pointed_none follows
        rw [final, if_neg (Nat.lt_irrefl 0), back, List.append_nil]
    | cons next rest =>
        have filled : 0 < (tbl.stNode i).next := Nat.pos_of_ne_zero (pointed_some follows).2
        rw [if_pos filled, lists.last]
        simp
  · show u32Pred tbl.uiCurrCount = (front ++ rest).length
    have total : (front ++ i :: rest).length = (front ++ rest).length + 1 := by simp [Nat.add_assoc]
    rw [lists.count, total, u32_pred_pos (Nat.succ_pos _)]
    rfl
  · intro k inside
    rcases List.mem_cons.mp inside with rfl | inside
    · rw [own]
      exact ⟨rfl, rfl⟩
    · rw [other (freeApart inside)]
      exact lists.cleared k inside

end Free

section Remove

/-- The table after a node was taken out of its chain. -/
def unlinked (tbl : SesskeyTbl) (i : Nat) : SesskeyTbl :=
  { tbl with
    stNode := fun k =>
      { tbl.stNode k with
        uiTCPNext :=
          if 0 < (tbl.stNode i).uiTCPPrev ∧ (tbl.stNode i).uiTCPPrev = k then
            (tbl.stNode i).uiTCPNext
          else (tbl.stNode k).uiTCPNext
        uiTCPPrev :=
          if 0 < (tbl.stNode i).uiTCPNext ∧ (tbl.stNode i).uiTCPNext = k then
            (tbl.stNode i).uiTCPPrev
          else (tbl.stNode k).uiTCPPrev } }

theorem unlink_unlinked (index : (tbl.stNode i).uiIndex = i)
    (leads : (tbl.stNode i).uiTCPPrev ≠ 0 → (tbl.stNode (tbl.stNode i).uiTCPPrev).uiTCPNext = i)
    (returns : (tbl.stNode i).uiTCPNext ≠ 0 →
      (tbl.stNode (tbl.stNode i).uiTCPNext).uiTCPPrev = i) :
    unlinkSessKey tbl i = unlinked tbl i := by
  rw [unlinkSessKey, index]
  have left : (if 0 < (tbl.stNode i).uiTCPPrev then
      if (tbl.stNode (tbl.stNode i).uiTCPPrev).uiTCPNext = i then
        tbl.setNode (tbl.stNode i).uiTCPPrev fun pred =>
          { pred with uiTCPNext := (tbl.stNode i).uiTCPNext }
      else tbl
    else tbl) =
      { tbl with
        stNode := fun k =>
          { tbl.stNode k with
            uiTCPNext :=
              if 0 < (tbl.stNode i).uiTCPPrev ∧ (tbl.stNode i).uiTCPPrev = k then
                (tbl.stNode i).uiTCPNext
              else (tbl.stNode k).uiTCPNext } } := by
    by_cases filled : 0 < (tbl.stNode i).uiTCPPrev
    · rw [if_pos filled, if_pos (leads (Nat.ne_of_gt filled)), SesskeyTbl.setNode]
      congr 1
      funext k
      by_cases own : (tbl.stNode i).uiTCPPrev = k
      · subst own
        simp [filled]
      · simp [own, Ne.symm own]
    · simp [filled]
  rw [left]
  by_cases filled : 0 < (tbl.stNode i).uiTCPNext
  · rw [if_pos filled, if_pos (returns (Nat.ne_of_gt filled)), SesskeyTbl.setNode, unlinked]
    congr 1
    funext k
    by_cases own : (tbl.stNode i).uiTCPNext = k
    · subst own
      simp [filled]
    · simp [own, Ne.symm own]
  · simp [unlinked, filled]

variable {front rest : List Nat}

/-- A node of a chain is deleted: it leaves the chain and the nodes in use. -/
theorem remove_spec (lists : Lists tbl free used) (own : ChainOf tbl used (front ++ i :: rest)) :
    unlinkSessKey tbl i = unlinked tbl i ∧
      freeSessKeyList (unlinked tbl i) i = freed (unlinked tbl i) i ∧
      Lists (freed (unlinked tbl i) i) (i :: free) (used.erase i) ∧
      ChainOf (freed (unlinked tbl i) i) (used.erase i) (front ++ rest) ∧
      (∀ k ∉ front ++ i :: rest,
        ((freed (unlinked tbl i) i).stNode k).session = (tbl.stNode k).session) ∧
      (∀ k, k ≠ i → ((freed (unlinked tbl i) i).stNode k).content = (tbl.stNode k).content) ∧
      pointed (tbl.stNode i).uiTCPPrev = front.getLast? ∧
      pointed ((unlinked tbl i).stNode i).uiTCPNext = rest.head? := by
  have inside : i ∈ front ++ i :: rest := List.mem_append_right _ List.mem_cons_self
  have member := own.inUse i inside
  have distinct := own.distinct
  have bound := (lists.used_within member).2
  obtain ⟨head, chain⟩ := own.chain
  obtain ⟨back, follows, leads, returns⟩ := pointers_around chain
  have apart {k : Nat} (kept : k ∈ front ++ rest) : k ≠ i := by
    rintro rfl
    rw [← erase_split distinct, distinct.mem_erase_iff] at kept
    exact kept.1 rfl
  have still {k : Nat} (kept : k ∈ front ++ rest) : k ∈ front ++ i :: rest :=
    ((List.sublist_cons_self i rest).append_left front).subset kept
  have prevInside : 0 < (tbl.stNode i).uiTCPPrev → (tbl.stNode i).uiTCPPrev ∈ front := by
    intro filled
    rw [pointed_pos (Nat.ne_of_gt filled)] at back
    exact List.mem_of_getLast? back.symm
  have nextInside : 0 < (tbl.stNode i).uiTCPNext → (tbl.stNode i).uiTCPNext ∈ rest := by
    intro filled
    rw [pointed_pos (Nat.ne_of_gt filled)] at follows
    exact List.mem_of_head? follows.symm
  have untouched {k : Nat} (outside : k ∉ front ++ rest) :
      ((unlinked tbl i).stNode k).session = (tbl.stNode k).session := by
    have notPrev : ¬(0 < (tbl.stNode i).uiTCPPrev ∧ (tbl.stNode i).uiTCPPrev = k) := by
      rintro ⟨filled, rfl⟩
      exact outside (List.mem_append_left _ (prevInside filled))
    have notNext : ¬(0 < (tbl.stNode i).uiTCPNext ∧ (tbl.stNode i).uiTCPNext = k) := by
      rintro ⟨filled, rfl⟩
      exact outside (List.mem_append_right _ (nextInside filled))
    simp only [SesskeyList.session, unlinked, if_neg notPrev, if_neg notNext]
  have lists' : Lists (unlinked tbl i) free used := by
    refine lists_congr lists ⟨rfl, rfl, rfl, rfl⟩ (fun k => ⟨rfl, rfl, rfl⟩) ?_
    intro k inFree
    have outside : k ∉ front ++ rest := fun kept => lists.not_free (own.inUse k (still kept)) inFree
    have same := Prod.mk.inj (Prod.mk.inj (Prod.mk.inj (untouched outside)).2).2
    exact same
  have own' : ChainOf (unlinked tbl i) used (front ++ rest) := by
    refine ⟨⟨_, pointers_remove chain distinct ?_ ?_⟩, ?_, fun k kept => own.inUse k (still kept)⟩
    · intro k kept
      have filled := (lists.used_within (own.inUse k (still kept))).1
      exact if_congr (and_iff_right_of_imp fun same => same ▸ filled) rfl rfl
    · intro k kept
      have filled := (lists.used_within (own.inUse k (still kept))).1
      exact if_congr (and_iff_right_of_imp fun same => same ▸ filled) rfl rfl
    · rw [← erase_split distinct]
      exact distinct.erase i
  obtain ⟨freeing, lists''⟩ := free_spec lists' member
  refine ⟨unlink_unlinked (lists.index i bound) leads returns, freeing, lists'', ?_, ?_, ?_, back, ?_⟩
  · apply chain_of_congr own' fun k kept => freed_other (apart kept)
    intro k kept
    exact (lists.used_distinct.mem_erase_iff).mpr ⟨apart kept, own.inUse k (still kept)⟩
  · intro k outside
    have other : k ≠ i := by
      rintro rfl
      exact outside inside
    exact (freed_other other).trans (untouched fun kept => outside (still kept))
  · intro k other
    have same : ((freed (unlinked tbl i) i).stNode k).session =
        ((unlinked tbl i).stNode k).session := freed_other other
    exact congrArg (fun session => (session.1, session.2.1)) same
  · have same := untouched fun kept => apart kept rfl
    rw [← follows]
    exact congrArg (fun session => pointed session.2.2.1) same

end Remove

section Loops

/-- The walk to the end of a chain finds its last node and counts its nodes. -/
theorem count_spec {before : Option Nat} {last dSessCnt fuel : Nat} :
    ∀ {nodes : List Nat} {head : Nat}, Chained tbl.chainLinks some (pointed head) before nodes →
      nodes.getLast? = some last → nodes.length ≤ fuel →
        countLoop tbl fuel head dSessCnt = some (last, dSessCnt + nodes.length) := by
  induction fuel generalizing before dSessCnt with
  | zero =>
      intro nodes head chain final enough
      obtain rfl := List.length_eq_zero_iff.mp (Nat.le_zero.mp enough)
      cases final
  | succ fuel ih =>
      intro nodes head chain final enough
      cases nodes with
      | nil => cases final
      | cons first rest =>
          obtain ⟨found, -, later⟩ := chain
          obtain ⟨rfl, positive⟩ := pointed_some found
          rw [countLoop, if_neg positive]
          have follows := chained_head later
          cases rest with
          | nil =>
              have alone : (tbl.stNode head).uiTCPNext = 0 := pointed_none follows
              have own : head = last := by simpa using final
              rw [alone, if_neg (Nat.lt_irrefl 0), own]
              rfl
          | cons second rest =>
              have filled : 0 < (tbl.stNode head).uiTCPNext :=
                Nat.pos_of_ne_zero (pointed_some follows).2
              rw [if_pos filled]
              have walked := @ih (some head) (dSessCnt + 1) _ _ later
                (by simpa using final) (by simpa using enough)
              rw [walked, List.length_cons, List.length_cons, List.length_cons]
              congr 2
              omega

/-- The nodes of a chain that are not doomed. -/
def survivors (tbl : SesskeyTbl) (doomed : SesskeyList → Bool) (nodes : List Nat) : List Nat :=
  nodes.filter fun i => !doomed (tbl.stNode i)

/-- What the deletion of nodes of a chain leaves, where `left` stay. -/
structure Deleted (tbl tbl' : SesskeyTbl) (used used' nodes left : List Nat) : Prop where
  lists : ∃ free, Lists tbl' free used'
  own : ChainOf tbl' used' left
  gone : ∀ i, i ∈ used' ↔ i ∈ used ∧ ¬(i ∈ nodes ∧ i ∉ left)
  others : ∀ i ∉ nodes, (tbl'.stNode i).session = (tbl.stNode i).session
  kept : ∀ i ∈ left, (tbl'.stNode i).content = (tbl.stNode i).content

/-- The copy of a node is that of the first node of a chain. -/
def Names (copy : SesskeyList) (nodes : List Nat) : Prop :=
  ∀ first, nodes.head? = some first → copy.uiIndex = first

variable {doomed : SesskeyList → Bool}

theorem survivors_congr {tbl' : SesskeyTbl}
    (reads : ∀ node node', node.content = node'.content → doomed node = doomed node')
    (same : ∀ i ∈ nodes, (tbl'.stNode i).content = (tbl.stNode i).content) :
    survivors tbl' doomed nodes = survivors tbl doomed nodes := by
  apply List.filter_congr
  intro i member
  rw [reads _ _ (same i member)]

theorem survivors_snoc (front : List Nat) (i : Nat) :
    survivors tbl doomed (front ++ [i]) =
      if doomed (tbl.stNode i) then survivors tbl doomed front
      else survivors tbl doomed front ++ [i] := by
  rw [survivors, List.filter_append]
  by_cases dooms : doomed (tbl.stNode i)
  · simp [dooms, survivors]
  · simp [dooms, survivors]

/-- One more node of the chain is deleted first. -/
theorem Deleted.after {tbl₁ tbl' : SesskeyTbl} {used' front kept left : List Nat}
    (distinct : used.Nodup) (fresh : i ∉ left)
    (others : ∀ k ∉ front ++ i :: kept, (tbl₁.stNode k).session = (tbl.stNode k).session)
    (contents : ∀ k, k ≠ i → (tbl₁.stNode k).content = (tbl.stNode k).content)
    (deleted : Deleted tbl₁ tbl' (used.erase i) used' (front ++ kept) left) :
    Deleted tbl tbl' used used' (front ++ i :: kept) left := by
  have split (k : Nat) : k ∈ front ++ i :: kept ↔ k = i ∨ k ∈ front ++ kept := by
    simp only [List.mem_append, List.mem_cons]
    tauto
  refine ⟨deleted.lists, deleted.own, ?_, ?_, ?_⟩
  · intro k
    rw [deleted.gone, distinct.mem_erase_iff, split]
    by_cases own : k = i
    · subst own
      simp [fresh]
    · simp only [own, ne_eq, not_false_eq_true, true_and, false_or]
  · intro k outside
    have away : k ∉ front ++ kept := fun inside => outside ((split k).mpr (Or.inr inside))
    exact (deleted.others k away).trans (others k outside)
  · intro k stays
    have other : k ≠ i := by
      rintro rfl
      exact fresh stays
    exact (deleted.kept k stays).trans (contents k other)

/-- The loop deletes the doomed nodes of the front of a chain and counts the others. -/
theorem del_loop_spec
    (reads : ∀ node node', node.content = node'.content → doomed node = doomed node')
    (front : List Nat) :
    ∀ {tbl : SesskeyTbl} {free used kept : List Nat} {index : Nat} {copy : SesskeyList}
      {dCurrSessCnt : Nat}, Lists tbl free used → ChainOf tbl used (front ++ kept) →
        (∀ last, front.getLast? = some last → index = last) → Names copy (front ++ kept) →
          ∃ tbl' copy' used', delLoop doomed front.length index tbl copy dCurrSessCnt =
              (dCurrSessCnt + (survivors tbl doomed front).length, tbl', copy') ∧
            Deleted tbl tbl' used used' (front ++ kept) (survivors tbl doomed front ++ kept) ∧
            Names copy' (survivors tbl doomed front ++ kept) := by
  induction front using List.reverseRecOn with
  | nil =>
      intro tbl free used kept index copy dCurrSessCnt lists own _ names
      exact ⟨tbl, copy, used, rfl, ⟨⟨free, lists⟩, own, by simp [survivors], fun _ _ => rfl,
        fun _ _ => rfl⟩, names⟩
  | append_singleton front i ih =>
      intro tbl free used kept index copy dCurrSessCnt lists own last names
      rw [List.append_assoc, List.singleton_append] at own names ⊢
      have inside : i ∈ front ++ i :: kept := List.mem_append_right _ List.mem_cons_self
      have positive := (lists.used_within (own.inUse i inside)).1
      obtain rfl : index = i := last i (by simp)
      rw [List.length_append, List.length_singleton, delLoop, if_neg (Nat.ne_of_gt positive),
        survivors_snoc]
      by_cases dooms : doomed (tbl.stNode index)
      · obtain ⟨unlink, freeing, lists', own', others, contents, back, follows⟩ :=
          remove_spec lists own
        have spread := List.nodup_middle.mp own.distinct
        have fresh : index ∉ survivors tbl doomed front ++ kept := by
          intro stays
          apply (List.nodup_cons.mp spread).1
          exact ((List.filter_sublist).append_right kept).subset stays
        have same : survivors (freed (unlinked tbl index) index) doomed front =
            survivors tbl doomed front := by
          apply survivors_congr reads
          intro k member
          apply contents
          rintro rfl
          exact (List.nodup_cons.mp spread).1 (List.mem_append_left _ member)
        have named : Names
            (if front.length = 0 ∧ 0 < ((unlinked tbl index).stNode index).uiTCPNext then
              (unlinked tbl index).stNode ((unlinked tbl index).stNode index).uiTCPNext
            else copy) (front ++ kept) := by
          intro first top
          cases front with
          | nil =>
              rw [List.nil_append] at top
              rw [top] at follows
              obtain ⟨next, filled⟩ := pointed_some follows
              rw [if_pos ⟨rfl, Nat.pos_of_ne_zero filled⟩, next]
              have member := own.inUse first (List.mem_cons_of_mem _ (List.mem_of_head? top))
              exact lists.index first (lists.used_within member).2
          | cons head front =>
              rw [if_neg fun both => Nat.succ_ne_zero _ both.1]
              exact names first top
        have prior : ∀ last, front.getLast? = some last → (tbl.stNode index).uiTCPPrev = last := by
          intro last final
          exact (pointed_some (back.trans final)).1
        obtain ⟨tbl', copy', used', ran, deleted, names'⟩ :=
          @ih _ _ _ _ _ _ dCurrSessCnt lists' own' prior named
        rw [same] at ran deleted names'
        rw [if_pos dooms, if_pos dooms, unlink]
        dsimp only
        rw [freeing]
        exact ⟨tbl', copy', used', ran,
          deleted.after lists.used_distinct fresh others contents, names'⟩
      · have prior : ∀ last, front.getLast? = some last → (tbl.stNode index).uiTCPPrev = last := by
          intro last final
          obtain ⟨head, chain⟩ := own.chain
          exact (pointed_some ((pointers_around chain).1.trans final)).1
        obtain ⟨tbl', copy', used', ran, deleted, names'⟩ :=
          @ih _ _ _ (index :: kept) _ _ (dCurrSessCnt + 1) lists own prior names
        rw [if_neg dooms, if_neg dooms, List.append_assoc, List.singleton_append]
        refine ⟨tbl', copy', used', ?_, deleted, names'⟩
        rw [ran, List.length_append, List.length_singleton, Nat.add_right_comm, Nat.add_assoc]

/-- The doomed nodes of a chain are deleted, and the others counted. -/
theorem del_spec (lists : Lists tbl free used) (own : ChainOf tbl used nodes) {copy : SesskeyList}
    (reads : ∀ node node', node.content = node'.content → doomed node = doomed node')
    (named : nodes.head? = some copy.uiIndex) :
    ∃ tbl' copy' used', delSessKeys doomed tbl copy =
        some (((survivors tbl doomed nodes).length : Int), tbl', copy') ∧
      Deleted tbl tbl' used used' nodes (survivors tbl doomed nodes) ∧
      Names copy' (survivors tbl doomed nodes) := by
  obtain ⟨positive, bound⟩ := lists.used_within (own.inUse _ (List.mem_of_head? named))
  obtain ⟨head, chain⟩ := own.chain
  obtain ⟨last, final⟩ : ∃ last, nodes.getLast? = some last := by
    cases nodes with
    | nil => cases named
    | cons first rest => exact ⟨_, List.getLast?_eq_some_getLast (List.cons_ne_nil first rest)⟩
  have start : copy.uiIndex = head := ((pointed_some ((chained_head chain).trans named)).1).symm
  have short : nodes.length ≤ MAX_SESSKEY_LIST := by
    have within := (List.subperm_of_subset own.distinct own.inUse).length_le
    have total := lists.used_length
    omega
  have counted := @count_spec tbl none last 0 MAX_SESSKEY_LIST nodes head chain final short
  have whole : nodes ++ [] = nodes := List.append_nil nodes
  obtain ⟨tbl', copy', used', ran, deleted, names⟩ :=
    @del_loop_spec _ reads nodes tbl free used [] last copy 0 lists (whole.symm ▸ own)
      (fun other same => Option.some.inj (final.symm.trans same))
      (fun first top => Option.some.inj (named.symm.trans (whole ▸ top)))
  rw [List.append_nil] at deleted names
  rw [List.append_nil] at deleted
  refine ⟨tbl', copy', used', ?_, deleted, names⟩
  have inRange : ¬(copy.uiIndex ≥ MAX_SESSKEY_LIST ∨ copy.uiIndex = 0) := by omega
  rw [Nat.zero_add] at counted ran
  rw [delSessKeys, if_neg inRange, start, counted]
  simp only [Option.bind_eq_bind, Option.bind_some, ran]

end Loops

section Add

variable {head add : Nat} {rest : List Nat}

/-- The table after a node was put behind the head of a chain. -/
def inserted (tbl : SesskeyTbl) (head add : Nat) : SesskeyTbl :=
  { tbl with
    stNode := fun k =>
      { tbl.stNode k with
        uiTCPNext :=
          if k = head then add
          else if k = add then (tbl.stNode head).uiTCPNext
          else (tbl.stNode k).uiTCPNext
        uiTCPPrev :=
          if 0 < (tbl.stNode head).uiTCPNext ∧ (tbl.stNode head).uiTCPNext = k then add
          else if k = add then head
          else (tbl.stNode k).uiTCPPrev } }

theorem inserted_content (tbl : SesskeyTbl) (head add k : Nat) :
    ((inserted tbl head add).stNode k).content = (tbl.stNode k).content := rfl

theorem add_same {copy : SesskeyList} (bound : 0 < add ∧ add < MAX_SESSKEY_LIST)
    (index : (tbl.stNode add).uiIndex = add)
    (same : (tbl.stNode copy.uiIndex).stSessKey = (tbl.stNode add).stSessKey) :
    dAddSessKeyNext tbl copy add = (-2, tbl) := by
  have inRange : ¬(add ≥ MAX_SESSKEY_LIST ∨ add = 0) := by omega
  rw [dAddSessKeyNext, index, if_neg inRange, if_pos same]

/-- A node in use that is in no chain goes behind the head of one. -/
theorem add_spec (lists : Lists tbl free used) (own : ChainOf tbl used (head :: rest))
    {copy : SesskeyList} (named : copy.uiIndex = head) (member : add ∈ used)
    (fresh : add ∉ head :: rest)
    (distinct : (tbl.stNode head).stSessKey ≠ (tbl.stNode add).stSessKey) :
    dAddSessKeyNext tbl copy add = (0, inserted tbl head add) ∧
      Lists (inserted tbl head add) free used ∧
      ChainOf (inserted tbl head add) used (head :: add :: rest) ∧
      ∀ k ∉ head :: add :: rest,
        ((inserted tbl head add).stNode k).session = (tbl.stNode k).session := by
  obtain ⟨first, found, back, later⟩ := own.chain
  have headInside : head ∈ used := own.inUse head List.mem_cons_self
  obtain ⟨headPositive, headBound⟩ := lists.used_within headInside
  obtain ⟨positive, bound⟩ := lists.used_within member
  obtain ⟨notHead, notRest⟩ := not_or.mp (List.mem_cons.not.mp fresh)
  obtain ⟨headFresh, spread⟩ := List.nodup_cons.mp own.distinct
  have inRange : ¬(add ≥ MAX_SESSKEY_LIST ∨ add = 0) := by omega
  have second : 0 < (tbl.stNode head).uiTCPNext → (tbl.stNode head).uiTCPNext ∈ rest ∧
      (tbl.stNode (tbl.stNode head).uiTCPNext).uiTCPPrev = head := by
    intro filled
    have follows := chained_head later
    cases rest with
    | nil => exact absurd (pointed_none follows) (Nat.ne_of_gt filled)
    | cons next rest =>
        have same : (tbl.stNode head).uiTCPNext = next := (pointed_some follows).1
        rw [same]
        exact ⟨List.mem_cons_self, (pointed_some later.2.1).1⟩
  have apart : 0 < (tbl.stNode head).uiTCPNext → (tbl.stNode head).uiTCPNext ≠ add := by
    intro filled same
    exact notRest (same ▸ (second filled).1)
  have toHead : ¬(0 < (tbl.stNode head).uiTCPNext ∧ (tbl.stNode head).uiTCPNext = head) := by
    rintro ⟨filled, same⟩
    exact headFresh (same ▸ (second filled).1)
  have toAdd : ¬(0 < (tbl.stNode head).uiTCPNext ∧ (tbl.stNode head).uiTCPNext = add) :=
    fun both => apart both.1 both.2
  refine ⟨?_, ?_, ?_, ?_⟩
  · rw [dAddSessKeyNext, lists.index add bound, if_neg inRange, named]
    dsimp only
    rw [if_neg distinct, lists.index head headBound]
    congr 1
    by_cases filled : 0 < (tbl.stNode head).uiTCPNext
    · have next := apart filled
      have ofHead : (tbl.stNode head).uiTCPNext ≠ head := fun same => toHead ⟨filled, same⟩
      simp only [SesskeyTbl.setNode, Function.update_of_ne next, (second filled).2, if_true,
        inserted, filled, true_and]
      congr 1
      funext k
      by_cases first : k = head
      · subst first
        simp [ofHead, Ne.symm notHead, Ne.symm ofHead]
      · by_cases behind : k = add
        · subst behind
          simp [notHead, next, Ne.symm next]
        · by_cases after : k = (tbl.stNode head).uiTCPNext
          · simp [after, ofHead, next]
          · simp [first, behind, after, Ne.symm after]
    · simp only [SesskeyTbl.setNode, inserted, filled, false_and, if_false]
      congr 1
      funext k
      by_cases first : k = head
      · subst first
        simp [Ne.symm notHead]
      · by_cases behind : k = add
        · subst behind
          simp [notHead]
        · simp [first, behind]
  · refine lists_congr lists ⟨rfl, rfl, rfl, rfl⟩ (fun k => ⟨rfl, rfl, rfl⟩) ?_
    intro k inFree
    have unused : k ∉ used := fun inUsed => lists.not_free inUsed inFree
    have ofHead : k ≠ head := fun same => unused (same ▸ headInside)
    have ofAdd : k ≠ add := fun same => unused (same ▸ member)
    have ofNext : ¬(0 < (tbl.stNode head).uiTCPNext ∧ (tbl.stNode head).uiTCPNext = k) := by
      rintro ⟨filled, rfl⟩
      exact unused (own.inUse _ (List.mem_cons_of_mem _ (second filled).1))
    simp only [inserted, if_neg ofHead, if_neg ofAdd, if_neg ofNext, and_self]
  · refine ⟨⟨head, pointed_pos (Nat.ne_of_gt headPositive), ?_, ?_⟩, ?_, ?_⟩
    · show pointed ((inserted tbl head add).stNode head).uiTCPPrev = none
      simp only [inserted, if_neg toHead, if_neg (Ne.symm notHead)]
      exact back
    · have next : (inserted tbl head add).chainLinks.next head = pointed add := by
        show pointed ((inserted tbl head add).stNode head).uiTCPNext = _
        simp only [inserted, if_true]
      rw [next]
      have later' : Chained tbl.chainLinks some (pointed (tbl.stNode head).uiTCPNext)
          (pointed head) rest := (pointed_pos (Nat.ne_of_gt headPositive)).symm ▸ later
      rw [← pointed_pos (Nat.ne_of_gt headPositive)]
      apply pointers_push later' spread (Nat.ne_of_gt positive)
      · simp only [inserted, if_neg notHead, if_neg toAdd, if_true, and_self]
      · intro k inside
        have ofHead : k ≠ head := fun same => headFresh (same ▸ inside)
        have ofAdd : k ≠ add := fun same => notRest (same ▸ inside)
        simp only [inserted, if_neg ofHead, if_neg ofAdd]
      · intro k inside
        have filled := (lists.used_within (own.inUse k (List.mem_cons_of_mem _ inside))).1
        have ofAdd : k ≠ add := fun same => notRest (same ▸ inside)
        simp only [inserted, if_neg ofAdd]
        exact if_congr (and_iff_right_of_imp fun same => same ▸ filled) rfl rfl
    · rw [List.nodup_cons, List.nodup_cons, List.mem_cons]
      exact ⟨not_or.mpr ⟨Ne.symm notHead, headFresh⟩, notRest, spread⟩
    · intro k inside
      rcases List.mem_cons.mp inside with rfl | inside
      · exact headInside
      · rcases List.mem_cons.mp inside with rfl | inside
        · exact member
        · exact own.inUse k (List.mem_cons_of_mem _ inside)
  · intro k outside
    obtain ⟨ofHead, outside⟩ := not_or.mp (List.mem_cons.not.mp outside)
    obtain ⟨ofAdd, outside⟩ := not_or.mp (List.mem_cons.not.mp outside)
    have ofNext : ¬(0 < (tbl.stNode head).uiTCPNext ∧ (tbl.stNode head).uiTCPNext = k) := by
      rintro ⟨filled, rfl⟩
      exact outside (second filled).1
    simp only [SesskeyList.session, inserted, if_neg ofHead, if_neg ofAdd, if_neg ofNext]

end Add

end Upst.SessKey
