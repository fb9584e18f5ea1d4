import Upst.GreentryRun

/-!
The search for a key, and the selection of the next key of an interval. The descent of the
selection keeps on its stack the nodes that it left for a smaller key; the last of them is the
first record, in the order of the tree, whose key is greater than the lower bound.
-/

namespace Upst.Greentry

open Avl Avl.BinTree

set_option autoImplicit false

section Source

/-- A record that links to itself is not initialized: a return of 0. -/
def avlSearchGreentry (tuple : Tuples) (key : GreentryKey) : Nat → Option Nat → Option (Option Nat)
  | 0, _ => none
  | _ + 1, none => some none
  | fuel + 1, some tindex => do
      let tree ← getGreentry (some tindex)
      if memcmpKey key (tuple tree).key < 0 then
        if some tindex = (tuple tree).left then some none
        else avlSearchGreentry tuple key fuel (tuple tree).left
      else if memcmpKey key (tuple tree).key > 0 then
        if some tindex = (tuple tree).right then some none
        else avlSearchGreentry tuple key fuel (tuple tree).right
      else some (some tree)

def searchGREENTRY (tbl : GreentryTable) (key : GreentryKey) : Option (Option Nat) :=
  avlSearchGreentry tbl.tuple key (JMM_GREENTRY_RECORD + 1) tbl.root

/-- The walk to the leftmost node of a subtree, pushing every node passed. -/
def selectLeftmost (tuple : Tuples) :
    Nat → Option Nat → List (Option Nat) → Option (List (Option Nat))
  | 0, _, _ => none
  | _ + 1, none, stack => some stack
  | fuel + 1, some index, stack => do
      let stack ← pushStack index stack
      let tree ← getGreentry (some index)
      selectLeftmost tuple fuel (tuple tree).left stack

/-- The descent of `avl_select_greentry`: the stack after it, or a return of 0 at a record
that links to itself. -/
def selectDescend (tuple : Tuples) (first : GreentryKey) :
    Nat → Option Nat → List (Option Nat) → Option (Except Unit (List (Option Nat)))
  | 0, _, _ => none
  | _ + 1, none, stack => some (.ok stack)
  | fuel + 1, some index, stack => do
      let tree ← getGreentry (some index)
      if memcmpKey first (tuple tree).key < 0 then
        if some index = (tuple tree).left then some (.error ())
        else do
          let stack ← pushStack index stack
          selectDescend tuple first fuel (tuple tree).left stack
      else if memcmpKey first (tuple tree).key > 0 then
        if some index = (tuple tree).right then some (.error ())
        else selectDescend tuple first fuel (tuple tree).right stack
      else do
        let stack ← selectLeftmost tuple fuel (tuple tree).right stack
        some (.ok stack)

/-- `stack[--top]`, when its key is below `last`. -/
def selectTop (tuple : Tuples) (last : GreentryKey) :
    List (Option Nat) → Option (Option Nat)
  | [] => none
  | none :: _ => some (getGreentry none)
  | some index :: _ => do
      let tree ← getGreentry (some index)
      if memcmpKey (tuple tree).key last ≥ 0 then some none
      else some (getGreentry (some index))

/-- The record returned, or NULL. -/
def avlSelectGreentry (tbl : GreentryTable) (first last : GreentryKey) :
    Option (Option Nat) := do
  if tbl.root = none ∨ memcmpKey first last ≥ 0 then some none
  else
    match ← selectDescend tbl.tuple first (JMM_GREENTRY_RECORD + 1) tbl.root [none] with
    | .error () => some none
    | .ok stack => selectTop tbl.tuple last stack

def selectGREENTRY (tbl : GreentryTable) (first last : GreentryKey) : Option (Option Nat) :=
  avlSelectGreentry tbl first last

end Source

section Descent

/-- A record above the lower bound. -/
def above (first : GreentryKey) (label : Rec) : Bool :=
  decide (memcmpKey first label.key < 0)

def below (last : GreentryKey) (label : Rec) : Bool :=
  decide (memcmpKey label.key last < 0)

/-- The stack when its top stands for `found`, or is the old top where nothing was found. -/
def Tops (found : Option Rec) (old new : List (Option Nat)) : Prop :=
  match found with
  | none => new.head? = old.head?
  | some label => new.head? = some (some label.index)

theorem stored_left (label : Rec) (bf : Int) (near far : Option Nat) :
    (stored .left label bf near far).left = near := rfl

theorem stored_right (label : Rec) (bf : Int) (near far : Option Nat) :
    (stored .left label bf near far).right = far := rfl

theorem below_label {left right : BinTree Rec} {label : Rec} {bf : Int}
    (sorted : (BinTree.node left label bf right).Sorted Rec.rank) :
    (∀ other ∈ left.toList, other.rank < label.rank) ∧
      (∀ other ∈ right.toList, label.rank < other.rank) ∧
      left.Sorted Rec.rank ∧ right.Sorted Rec.rank := by
  obtain ⟨leftSorted, rightSorted, cross⟩ := List.pairwise_append.mp sorted
  obtain ⟨larger, rightSorted⟩ := List.pairwise_cons.mp rightSorted
  exact ⟨fun other member => cross other member label List.mem_cons_self, larger, leftSorted,
    rightSorted⟩

theorem find_key_none {labels : List Rec} {key : GreentryKey}
    (apart : ∀ label ∈ labels, label.rank ≠ rank key) :
    labels.find? (fun label => label.key = key) = none := by
  rw [List.find?_eq_none]
  intro label member found
  exact apart label member (congrArg rank (of_decide_eq_true found))

theorem search_spec {tuple : Tuples} {key : GreentryKey} {fuel : Nat} {sub : BinTree Rec}
    (bound : sub.height < fuel) (holds : Holds tuple sub) (nodup : (indices sub).Nodup)
    (sorted : sub.Sorted Rec.rank) :
    avlSearchGreentry tuple key fuel (link sub) =
      some ((sub.toList.find? fun label => label.key = key).map Rec.index) := by
  induction fuel generalizing sub with
  | zero => omega
  | succ fuel ih =>
      cases sub with
      | nil => rfl
      | node left label bf right =>
          obtain ⟨inside, record, leftHolds, rightHolds⟩ := holds
          obtain ⟨under, larger, leftSorted, rightSorted⟩ := below_label sorted
          obtain ⟨⟨leftApart, rightApart⟩, leftNodup, rightNodup, -⟩ :=
            (@nodup_join .left left right label bf).mp nodup
          obtain ⟨lower, equal, higher⟩ := memcmpKey_rank key label.key
          rw [BinTree.height] at bound
          simp only [link_node, avlSearchGreentry, getGreentry_some inside, Option.bind_eq_bind,
            Option.bind_some, record]
          rw [stored_key, stored_left, stored_right, toList, List.find?_append, List.find?_cons]
          rcases Int.lt_trichotomy (memcmpKey key label.key) 0 with less | same | more
          · have small : rank key < label.rank := lower.mp less
            have other : ¬label.key = key := fun named => absurd (equal.mpr named.symm) (by omega)
            have beyond := @find_key_none right.toList key fun node member => by
              have high := larger node member
              omega
            rw [if_pos less, if_neg (link_ne_self leftApart), decide_eq_false other, beyond,
              Option.or_none]
            exact ih (by omega) leftHolds leftNodup leftSorted
          · have here := (equal.mp same).symm
            have beneath := @find_key_none left.toList key fun node member =>
              Nat.ne_of_lt (here ▸ under node member)
            rw [if_neg (by omega), if_neg (by omega), decide_eq_true here, beneath]
            rfl
          · have large : label.rank < rank key := higher.mp more
            have other : ¬label.key = key := fun named => absurd (equal.mpr named.symm) (by omega)
            have beneath := @find_key_none left.toList key fun node member => by
              have low := under node member
              omega
            rw [if_neg (by omega), if_pos more, if_neg (link_ne_self rightApart),
              decide_eq_false other, beneath]
            exact ih (by omega) rightHolds rightNodup rightSorted

theorem above_rank (first : GreentryKey) (label : Rec) :
    above first label = true ↔ rank first < label.rank := by
  rw [above, decide_eq_true_iff, (memcmpKey_rank first label.key).1, Rec.rank]

theorem below_rank (last : GreentryKey) (label : Rec) :
    below last label = true ↔ label.rank < rank last := by
  rw [below, decide_eq_true_iff, (memcmpKey_rank label.key last).1, Rec.rank]

section Tops

variable {first : GreentryKey} {left right : BinTree Rec} {label : Rec} {bf : Int}
  {stack new : List (Option Nat)}

/-- The label is the candidate for what the walk to the left finds nothing for. -/
theorem tops_left (high : above first label = true)
    (tops : Tops (left.toList.find? (above first)) (some label.index :: stack) new) :
    Tops ((BinTree.node left label bf right).toList.find? (above first)) stack new := by
  rw [toList, List.find?_append, List.find?_cons, high]
  cases found : left.toList.find? (above first) with
  | none =>
      rw [found] at tops
      exact tops
  | some other =>
      rw [found] at tops
      exact tops

theorem tops_right (under : ∀ other ∈ left.toList, other.rank < label.rank)
    (passed : label.rank ≤ rank first) (tops : Tops (right.toList.find? (above first)) stack new) :
    Tops ((BinTree.node left label bf right).toList.find? (above first)) stack new := by
  have low : above first label = false := by
    rw [Bool.eq_false_iff, ne_eq, above_rank]
    omega
  have none : left.toList.find? (above first) = none := by
    rw [List.find?_eq_none]
    intro other member found
    have less := under other member
    rw [above_rank] at found
    omega
  rw [toList, List.find?_append, none, Option.none_or, List.find?_cons, low]
  exact tops

end Tops

theorem leftmost_spec {tuple : Tuples} {fuel : Nat} {sub : BinTree Rec} {first : GreentryKey}
    {stack : List (Option Nat)} (bound : sub.height < fuel)
    (room : stack.length + sub.height ≤ 100) (holds : Holds tuple sub)
    (larger : ∀ label ∈ sub.toList, above first label = true) :
    ∃ new, selectLeftmost tuple fuel (link sub) stack = some new ∧
      Tops (sub.toList.find? (above first)) stack new := by
  induction fuel generalizing sub stack with
  | zero => omega
  | succ fuel ih =>
      cases sub with
      | nil => exact ⟨stack, rfl, rfl⟩
      | node left label bf right =>
          obtain ⟨inside, record, leftHolds, -⟩ := holds
          have high : above first label = true := larger label (by simp [toList])
          rw [BinTree.height] at bound room
          have fits : stack.length < 100 := by omega
          obtain ⟨new, walked, tops⟩ := @ih left (some label.index :: stack)
            (by omega) (by rw [List.length_cons]; omega) leftHolds
            (fun other member => larger other (by simp [toList, member]))
          refine ⟨new, ?_, tops_left high tops⟩
          simp only [link_node, selectLeftmost, pushStack, if_pos fits, getGreentry_some inside,
            Option.bind_eq_bind, Option.bind_some, record]
          exact walked

/-- The stack room needed is the height, and its top is the first record above the bound. -/
theorem descend_spec {tuple : Tuples} {fuel : Nat} {sub : BinTree Rec} (first : GreentryKey)
    {stack : List (Option Nat)} (bound : sub.height < fuel)
    (room : stack.length + sub.height ≤ 100) (holds : Holds tuple sub)
    (nodup : (indices sub).Nodup) (sorted : sub.Sorted Rec.rank) :
    ∃ new, selectDescend tuple first fuel (link sub) stack = some (.ok new) ∧
      Tops (sub.toList.find? (above first)) stack new := by
  induction fuel generalizing sub stack with
  | zero => omega
  | succ fuel ih =>
      cases sub with
      | nil => exact ⟨stack, rfl, rfl⟩
      | node left label bf right =>
          obtain ⟨inside, record, leftHolds, rightHolds⟩ := holds
          obtain ⟨under, larger, leftSorted, rightSorted⟩ := below_label sorted
          obtain ⟨⟨leftApart, rightApart⟩, leftNodup, rightNodup, -⟩ :=
            (@nodup_join .left left right label bf).mp nodup
          obtain ⟨lower, equal, higher⟩ := memcmpKey_rank first label.key
          rw [BinTree.height] at bound room
          simp only [link_node, selectDescend, getGreentry_some inside, Option.bind_eq_bind,
            Option.bind_some, record]
          rcases Int.lt_trichotomy (memcmpKey first label.key) 0 with less | same | more
          · -- the label is a candidate, and what is smaller lies on the left
            have high : above first label = true := decide_eq_true less
            have fits : stack.length < 100 := by omega
            obtain ⟨new, walked, tops⟩ := @ih left (some label.index :: stack)
              (by omega) (by rw [List.length_cons]; omega) leftHolds leftNodup leftSorted
            refine ⟨new, ?_, tops_left high tops⟩
            rw [stored_key, stored_left, if_pos less, if_neg (link_ne_self leftApart)]
            simp only [pushStack, if_pos fits, Option.bind_some]
            exact walked
          · have passed : label.rank ≤ rank first :=
              Nat.le_of_eq (congrArg rank (equal.mp same)).symm
            obtain ⟨new, walked, tops⟩ := @leftmost_spec tuple fuel right first stack (by omega) (by omega) rightHolds
              (fun other member => by
                rw [above_rank, equal.mp same]
                exact larger other member)
            refine ⟨new, ?_, tops_right under passed tops⟩
            rw [stored_key, if_neg (by omega), if_neg (by omega)]
            show (selectLeftmost tuple fuel (link right) stack).bind _ = _
            rw [walked]
            rfl
          · have passed : label.rank ≤ rank first := Nat.le_of_lt (higher.mp more)
            obtain ⟨new, walked, tops⟩ := @ih right stack
              (by omega) (by omega) rightHolds rightNodup rightSorted
            refine ⟨new, ?_, tops_right under passed tops⟩
            rw [stored_key, stored_right, if_neg (by omega), if_pos more,
              if_neg (link_ne_self rightApart)]
            exact walked

end Descent

section Selection

variable {tbl : GreentryTable} {tree : BinTree Rec} {rest : List Nat}

/-- The record selected is the first one above `first`, unless it is not below `last`. -/
theorem select_spec (inv : Represents tbl tree rest) (first last : GreentryKey) :
    selectGREENTRY tbl first last =
      some (((tree.toList.find? (above first)).filter (below last)).map Rec.index) := by
  have height := inv.height_bound
  rw [selectGREENTRY, avlSelectGreentry]
  by_cases empty : tbl.root = none ∨ memcmpKey first last ≥ 0
  · rw [if_pos empty]
    rcases empty with noRoot | crossed
    · rw [inv.root, link_eq_none] at noRoot
      rw [noRoot]
      rfl
    · cases found : tree.toList.find? (above first) with
      | none => rfl
      | some label =>
          have high := (above_rank first label).mp (List.find?_some found)
          have bounds : rank last ≤ rank first := by
            by_contra under
            have less := (memcmpKey_rank first last).1.mpr (Nat.lt_of_not_le under)
            omega
          have outside : below last label = false := by
            rw [Bool.eq_false_iff, ne_eq, below_rank]
            omega
          rw [Option.filter_some, outside]
          rfl
  · rw [if_neg empty]
    obtain ⟨stack, walked, tops⟩ := @descend_spec tbl.tuple (JMM_GREENTRY_RECORD + 1) tree first [none]
      (by rw [JMM_GREENTRY_RECORD]; omega)
      (by rw [List.length_singleton]; omega) inv.holds inv.apart.1 inv.sorted
    rw [inv.root, walked]
    show selectTop tbl.tuple last stack = _
    cases found : tree.toList.find? (above first) with
    | none =>
        rw [found] at tops
        obtain ⟨others, rfl⟩ := List.head?_eq_some_iff.mp tops
        rfl
    | some label =>
        rw [found] at tops
        obtain ⟨others, rfl⟩ := List.head?_eq_some_iff.mp tops
        obtain ⟨inside, sameKey, -⟩ := record_of_label inv.holds (List.mem_of_find?_eq_some found)
        simp only [selectTop, getGreentry_some inside, Option.bind_eq_bind, Option.bind_some,
          sameKey, Option.filter_some]
        by_cases less : memcmpKey label.key last < 0
        · rw [if_neg (by omega), below, decide_eq_true less]
          rfl
        · rw [if_pos (by omega), below, decide_eq_false less]
          rfl

/-- The records above a bound, from the second on, are those above the first of them. -/
theorem above_next {labels : List Rec} {first : GreentryKey} {label : Rec} {others : List Rec}
    (sorted : labels.Pairwise fun one two => one.rank < two.rank)
    (start : labels.filter (above first) = label :: others) :
    labels.filter (above label.key) = others := by
  have high : above first label = true := by
    have member : label ∈ labels.filter (above first) := by
      rw [start]
      exact List.mem_cons_self
    exact List.of_mem_filter member
  have keep : ∀ other ∈ labels,
      above label.key other = (above label.key other && above first other) := by
    intro other _
    by_cases larger : above label.key other = true
    · have one := (above_rank first label).mp high
      have two := (above_rank label.key other).mp larger
      have three : above first other = true := (above_rank first other).mpr (one.trans two)
      rw [three, Bool.and_true]
    · rw [Bool.not_eq_true] at larger
      rw [larger, Bool.false_and]
  have order : (label :: others).Pairwise fun one two => one.rank < two.rank := by
    rw [← start]
    exact sorted.filter _
  obtain ⟨larger, -⟩ := List.pairwise_cons.mp order
  have self : ¬above label.key label = true := by
    rw [above_rank]
    exact Nat.lt_irrefl _
  calc labels.filter (above label.key)
      = (labels.filter (above first)).filter (above label.key) := by
        rw [List.filter_filter]
        exact List.filter_congr keep
    _ = others.filter (above label.key) := by
        rw [start, List.filter_cons_of_neg self]
    _ = others := by
        rw [List.filter_eq_self]
        intro other member
        exact (above_rank _ _).mpr (larger other member)

/-- The calls that start over at the key that the last one returned, until NULL. -/
def selectAll (tbl : GreentryTable) (last : GreentryKey) : Nat → GreentryKey → Option (List Nat)
  | 0, _ => none
  | fuel + 1, first => do
      match ← selectGREENTRY tbl first last with
      | none => some []
      | some index => do
          let others ← selectAll tbl last fuel (tbl.tuple index).key
          some (index :: others)

theorem select_all_spec (inv : Represents tbl tree rest) {fuel : Nat} {first : GreentryKey}
    (last : GreentryKey) (bound : (tree.toList.filter (above first)).length < fuel) :
    selectAll tbl last fuel first =
      some (((tree.toList.filter (above first)).filter (below last)).map Rec.index) := by
  induction fuel generalizing first with
  | zero => omega
  | succ fuel ih =>
      rw [selectAll, select_spec inv, ← List.head?_filter]
      cases start : tree.toList.filter (above first) with
      | nil => rfl
      | cons label others =>
          have member : label ∈ tree.toList.filter (above first) := by
            rw [start]
            exact List.mem_cons_self
          obtain ⟨-, sameKey, -⟩ := record_of_label inv.holds (List.mem_of_mem_filter member)
          have next := above_next inv.sorted start
          rw [start, List.length_cons] at bound
          rw [List.head?_cons, Option.filter_some]
          by_cases low : below last label = true
          · rw [if_pos low, List.filter_cons_of_pos low]
            show (selectAll tbl last fuel (tbl.tuple label.index).key).bind _ = _
            rw [sameKey, ih (by rw [next]; omega), next]
            rfl
          · rw [if_neg low, List.filter_cons_of_neg low]
            have order : (label :: others).Pairwise fun one two => one.rank < two.rank := by
              rw [← start]
              exact inv.sorted.filter _
            have beyond : others.filter (below last) = [] := by
              rw [List.filter_eq_nil_iff]
              intro other inOthers under
              have larger := (List.pairwise_cons.mp order).1 other inOthers
              rw [below_rank] at under low
              omega
            rw [beyond]
            rfl

end Selection

section Enumeration

/-- A key of the open interval. -/
def Between (first last key : GreentryKey) : Prop :=
  memcmpKey first key < 0 ∧ memcmpKey key last < 0

/-- NULL where no stored key lies between, and otherwise a record of the map whose key is the
least of those. -/
def Answers (map : Contents) (tuple : Tuples) (first last : GreentryKey) : Option Nat → Prop
  | none => ∀ key ∈ map, ¬Between first last key
  | some index =>
      map.lookup (tuple index).key = some (tuple index).body ∧
        Between first last (tuple index).key ∧
        ∀ key ∈ map, Between first last key → memcmpKey (tuple index).key key ≤ 0

/-- The records of all stored keys between the bounds, each once and in ascending order. -/
def Enumerates (map : Contents) (tuple : Tuples) (first last : GreentryKey) (all : List Nat) :
    Prop :=
  (all.Pairwise fun one two => memcmpKey (tuple one).key (tuple two).key < 0) ∧
    (∀ index ∈ all, map.lookup (tuple index).key = some (tuple index).body) ∧
    ∀ key, (∃ index ∈ all, (tuple index).key = key) ↔ key ∈ map ∧ Between first last key

variable {tbl : GreentryTable} {map : Contents} {tree : BinTree Rec} {rest : List Nat}

theorem between_rank (first last : GreentryKey) (label : Rec) :
    Between first last label.key ↔ above first label = true ∧ below last label = true := by
  rw [Between, above, below, decide_eq_true_iff, decide_eq_true_iff]

theorem lookup_label (inv : Represents tbl tree rest) (same : SameEntries map tree) {label : Rec}
    (member : label ∈ tree.toList) :
    (tbl.tuple label.index).key = label.key ∧
      map.lookup (tbl.tuple label.index).key = some (tbl.tuple label.index).body := by
  obtain ⟨-, sameKey, sameBody⟩ := record_of_label inv.holds member
  rw [sameKey, sameBody]
  exact ⟨rfl, (same _ _).mpr (List.mem_map_of_mem member)⟩

theorem select_answers (inv : Represents tbl tree rest) (same : SameEntries map tree)
    (first last : GreentryKey) :
    Answers map tbl.tuple first last
      (((tree.toList.find? (above first)).filter (below last)).map Rec.index) := by
  rw [← List.head?_filter]
  cases start : tree.toList.filter (above first) with
  | nil =>
      intro key stored between
      obtain ⟨label, member, rfl⟩ := (mem_iff_entry same key).mp stored
      rw [List.filter_eq_nil_iff] at start
      exact start label member ((between_rank first last label).mp between).1
  | cons label others =>
      have member : label ∈ tree.toList.filter (above first) := by
        rw [start]
        exact List.mem_cons_self
      have order : (label :: others).Pairwise fun one two => one.rank < two.rank := by
        rw [← start]
        exact inv.sorted.filter _
      have least (other : Rec) (inTree : other ∈ tree.toList) (larger : above first other = true) :
          label.rank ≤ other.rank := by
        have kept : other ∈ label :: others := by
          rw [← start]
          exact List.mem_filter.mpr ⟨inTree, larger⟩
        rcases List.mem_cons.mp kept with rfl | behind
        · exact Nat.le_refl _
        · exact Nat.le_of_lt ((List.pairwise_cons.mp order).1 other behind)
      rw [List.head?_cons, Option.filter_some]
      by_cases low : below last label = true
      · obtain ⟨sameKey, found⟩ := lookup_label inv same (List.mem_of_mem_filter member)
        rw [if_pos low]
        refine ⟨found, ?_, ?_⟩
        · rw [sameKey, between_rank]
          exact ⟨List.of_mem_filter member, low⟩
        · intro key stored between
          obtain ⟨other, inTree, rfl⟩ := (mem_iff_entry same key).mp stored
          have first := least other inTree ((between_rank _ last other).mp between).1
          rw [sameKey]
          by_contra greater
          have under := (memcmpKey_rank label.key other.key).2.2.mp (by omega)
          rw [Rec.rank, Rec.rank] at first
          omega
      · rw [if_neg low]
        intro key stored between
        obtain ⟨other, inTree, rfl⟩ := (mem_iff_entry same key).mp stored
        obtain ⟨larger, under⟩ := (between_rank first last other).mp between
        have first := least other inTree larger
        rw [below_rank] at under low
        omega

theorem select_enumerates (inv : Represents tbl tree rest) (same : SameEntries map tree)
    (first last : GreentryKey) :
    Enumerates map tbl.tuple first last
      (((tree.toList.filter (above first)).filter (below last)).map Rec.index) := by
  have inTree {label : Rec}
      (member : label ∈ (tree.toList.filter (above first)).filter (below last)) :
      label ∈ tree.toList :=
    List.mem_of_mem_filter (List.mem_of_mem_filter member)
  refine ⟨?_, ?_, ?_⟩
  · rw [List.pairwise_map]
    refine ((inv.sorted.filter _).filter _).imp_of_mem ?_
    intro one two oneIn twoIn less
    rw [(lookup_label inv same (inTree oneIn)).1, (lookup_label inv same (inTree twoIn)).1]
    exact (memcmpKey_rank one.key two.key).1.mpr less
  · intro index member
    obtain ⟨label, labelIn, rfl⟩ := List.mem_map.mp member
    exact (lookup_label inv same (inTree labelIn)).2
  · intro key
    constructor
    · rintro ⟨index, member, rfl⟩
      obtain ⟨label, labelIn, rfl⟩ := List.mem_map.mp member
      rw [(lookup_label inv same (inTree labelIn)).1, between_rank]
      refine ⟨(mem_iff_entry same _).mpr ⟨label, inTree labelIn, rfl⟩, ?_, ?_⟩
      · exact List.of_mem_filter (List.mem_of_mem_filter labelIn)
      · exact List.of_mem_filter labelIn
    · rintro ⟨stored, between⟩
      obtain ⟨label, member, rfl⟩ := (mem_iff_entry same key).mp stored
      obtain ⟨larger, under⟩ := (between_rank first last label).mp between
      refine ⟨label.index, List.mem_map_of_mem ?_, (lookup_label inv same member).1⟩
      exact List.mem_filter.mpr ⟨List.mem_filter.mpr ⟨member, larger⟩, under⟩

end Enumeration

/-- After any calls the selection returns, within its stack, the least stored key of the open
interval, and selecting again from each key returned lists the interval in order. -/
theorem select_from_init (raw : GreentryTable) (ops : List Op) (first last : GreentryKey) :
    ∃ tbl result all, run (initGreentry raw) ops = some ((specRun ∅ ops).1, tbl) ∧
      selectGREENTRY tbl first last = some result ∧
      Answers (specRun ∅ ops).2 tbl.tuple first last result ∧
      selectAll tbl last ((specRun ∅ ops).2.keys.card + 1) first = some all ∧
      Enumerates (specRun ∅ ops).2 tbl.tuple first last all := by
  obtain ⟨tbl, ran, inv⟩ := run_matches (init_matches raw) ops
  obtain ⟨tree, rest, represents, same⟩ := inv.stored
  have size := card_eq_size represents.toStores same
  have bound : (tree.toList.filter (above first)).length < (specRun ∅ ops).2.keys.card + 1 := by
    have most := List.length_filter_le (above first) tree.toList
    rw [toList_length] at most
    omega
  exact ⟨tbl, _, _, ran, select_spec represents first last,
    select_answers represents same first last, select_all_spec represents last bound,
    select_enumerates represents same first last⟩

end Upst.Greentry
