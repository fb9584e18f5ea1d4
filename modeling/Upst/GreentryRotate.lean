import Upst.GreentryTree

/-!
What the rotations of the table do to the tree in it. Each moves two or three records
and nothing else; on a subtree that leans too far the result is balanced, has the same
records in the same order, and is lower by one except after an even child.
-/

namespace Upst.Greentry

open Avl Avl.BinTree Bytes

set_option autoImplicit false

section Nodes

variable {side : Side} {near far : BinTree Rec} {label : Rec} {bf : Int}

theorem mem_indices_join {index : Nat} :
    index ∈ indices (join side near label bf far) ↔
      index = label.index ∨ index ∈ indices near ∨ index ∈ indices far := by
  rw [(indices_join side near far label bf).mem_iff, List.mem_cons, List.mem_append]

theorem nodup_join :
    (indices (join side near label bf far)).Nodup ↔
      (label.index ∉ indices near ∧ label.index ∉ indices far) ∧ (indices near).Nodup ∧
        (indices far).Nodup ∧ ∀ index ∈ indices near, index ∉ indices far := by
  rw [(indices_join side near far label bf).nodup_iff, List.nodup_cons, List.nodup_append,
    List.mem_append, not_or]
  refine and_congr_right fun _ => and_congr_right fun _ => and_congr_right fun _ => ?_
  exact ⟨fun apart index inNear inFar => apart index inNear index inFar rfl,
    fun apart index inNear other inFar same => apart index inNear (same ▸ inFar)⟩

/-- A write to the balance of the root. -/
theorem holds_setBf {tuple : Tuples} (value : Int)
    (holds : Holds tuple (join side near label bf far))
    (nodup : (indices (join side near label bf far)).Nodup) :
    Holds (setBf tuple label.index value) (join side near label value far) := by
  rw [nodup_join] at nodup
  rw [holds_join] at holds ⊢
  obtain ⟨inside, record, nearHolds, farHolds⟩ := holds
  have apart (tree : BinTree Rec) (outside : label.index ∉ indices tree) :
      ∀ index ∈ indices tree, setBf tuple label.index value index = tuple index :=
    fun index member => setBf_apart tuple value (ne_of_mem_of_not_mem member outside)
  refine ⟨inside, ?_, holds_congr (apart near nodup.1.1) nearHolds,
    holds_congr (apart far nodup.1.2) farHolds⟩
  rw [setBf_same, record, stored_withBf]

end Nodes

section Single

variable {tuple : Tuples} {side : Side} {outer inner far : BinTree Rec} {child label : Rec}
  {childBf bf : Int}

theorem rotate_single_apart {index child place : Nat} (bf childBf : Int)
    (notIndex : place ≠ index) (notChild : place ≠ child) :
    rotateSingle side tuple index child bf childBf place = tuple place := by
  rw [rotateSingle, setBf_apart _ _ notChild, setBf_apart _ _ notIndex,
    setChild_apart _ _ _ notChild, setChild_apart _ _ _ notIndex]

theorem rotate_single_holds (bf' childBf' : Int)
    (holds : Holds tuple (join side (join side outer child childBf inner) label bf far))
    (nodup : (indices (join side (join side outer child childBf inner) label bf far)).Nodup) :
    Holds (rotateSingle side tuple label.index child.index bf' childBf')
      (singleRotated side outer child childBf' inner label bf' far) := by
  simp only [nodup_join, mem_indices_join, not_or] at nodup
  obtain ⟨⟨⟨differ, labelOuter, labelInner⟩, labelFar⟩, ⟨⟨childOuter, childInner⟩, -⟩, -, cross⟩ :=
    nodup
  have childFar : child.index ∉ indices far := cross child.index (Or.inl rfl)
  simp only [holds_join, link_join] at holds
  obtain ⟨labelIn, labelRecord, ⟨childIn, childRecord, outerHolds, innerHolds⟩, farHolds⟩ := holds
  have apart (tree : BinTree Rec) (noLabel : label.index ∉ indices tree)
      (noChild : child.index ∉ indices tree) : ∀ index ∈ indices tree,
      rotateSingle side tuple label.index child.index bf' childBf' index = tuple index :=
    fun index member => rotate_single_apart bf' childBf'
      (ne_of_mem_of_not_mem member noLabel) (ne_of_mem_of_not_mem member noChild)
  simp only [singleRotated, holds_join, link_join]
  refine ⟨childIn, ?_, holds_congr (apart outer labelOuter childOuter) outerHolds, labelIn, ?_,
    holds_congr (apart inner labelInner childInner) innerHolds,
    holds_congr (apart far labelFar childFar) farHolds⟩
  · rw [rotateSingle, setBf_same, setBf_apart _ _ (Ne.symm differ), setChild_same,
      setChild_apart _ _ _ (Ne.symm differ), childRecord, stored_withChild_other, stored_withBf]
  · rw [rotateSingle, setBf_apart _ _ differ, setBf_same, setChild_apart _ _ _ differ,
      setChild_same, labelRecord, childRecord, stored_child_other, stored_withChild, stored_withBf]

end Single

section Double

variable {tuple : Tuples} {side : Side} {outer first second far : BinTree Rec}
  {child grand label : Rec} {childBf grandBf bf : Int}

theorem rotate_double_apart {index child grand place : Nat} (notIndex : place ≠ index)
    (notChild : place ≠ child) (notGrand : place ≠ grand) :
    rotateDouble side tuple index child grand place = tuple place := by
  simp only [rotateDouble]
  rw [setBf_apart _ _ notGrand, setBf_apart _ _ notChild, setBf_apart _ _ notIndex,
    setChild_apart _ _ _ notGrand, setChild_apart _ _ _ notGrand,
    setChild_apart _ _ _ notIndex, setChild_apart _ _ _ notChild]

theorem rotate_double_holds
    (holds : Holds tuple (join side (join side.other (join side first grand grandBf second) child
      childBf outer) label bf far))
    (nodup : (indices (join side (join side.other (join side first grand grandBf second) child
      childBf outer) label bf far)).Nodup) :
    Holds (rotateDouble side tuple label.index child.index grand.index)
      (doubleRotated side outer child (doubleFactors side grandBf).2 first grand second label
        (doubleFactors side grandBf).1 far) := by
  simp only [nodup_join, mem_indices_join, not_or] at nodup
  obtain ⟨⟨⟨labelChild, ⟨labelGrand, labelFirst, labelSecond⟩, labelOuter⟩, labelFar⟩,
    ⟨⟨⟨childGrand, childFirst, childSecond⟩, childOuter⟩,
      ⟨⟨grandFirst, grandSecond⟩, -⟩, -, grandCross⟩, -, cross⟩ := nodup
  have childFar : child.index ∉ indices far := cross child.index (Or.inl rfl)
  have grandFar : grand.index ∉ indices far := cross grand.index (Or.inr (Or.inl (Or.inl rfl)))
  have grandOuter : grand.index ∉ indices outer := grandCross grand.index (Or.inl rfl)
  simp only [holds_join, link_join] at holds
  obtain ⟨labelIn, labelRecord, ⟨childIn, childRecord,
    ⟨grandIn, grandRecord, firstHolds, secondHolds⟩, outerHolds⟩, farHolds⟩ := holds
  rw [stored_other] at childRecord
  have apart (tree : BinTree Rec) (noLabel : label.index ∉ indices tree)
      (noChild : child.index ∉ indices tree) (noGrand : grand.index ∉ indices tree) :
      ∀ index ∈ indices tree,
        rotateDouble side tuple label.index child.index grand.index index = tuple index :=
    fun index member => rotate_double_apart (ne_of_mem_of_not_mem member noLabel)
      (ne_of_mem_of_not_mem member noChild) (ne_of_mem_of_not_mem member noGrand)
  have grandLabel := Ne.symm labelGrand
  have grandChild := Ne.symm childGrand
  have childLabel := Ne.symm labelChild
  simp only [doubleRotated, holds_join, link_join]
  refine ⟨grandIn, ?_, ⟨childIn, ?_, holds_congr (apart outer labelOuter childOuter grandOuter)
      outerHolds, holds_congr (apart first labelFirst childFirst grandFirst) firstHolds⟩,
    labelIn, ?_, holds_congr (apart second labelSecond childSecond grandSecond) secondHolds,
    holds_congr (apart far labelFar childFar grandFar) farHolds⟩
  · simp only [rotateDouble, setBf_same, setBf_apart _ _ grandChild, setBf_apart _ _ grandLabel,
      setChild_same, setChild_apart _ _ _ grandLabel, setChild_apart _ _ _ grandChild, grandRecord,
      stored_withChild, stored_withChild_other, stored_withBf]
  · simp only [rotateDouble, setBf_same, setBf_apart _ _ childGrand, setBf_apart _ _ childLabel,
      setChild_same, setChild_apart _ _ _ childGrand, setChild_apart _ _ _ childLabel,
      setChild_apart _ _ _ grandLabel, setChild_apart _ _ _ grandChild,
      grandRecord, childRecord, stored_child, stored_withChild, stored_withChild_other, stored_bf,
      stored_withBf]
  · simp only [rotateDouble, setBf_same, setBf_apart _ _ labelGrand, setBf_apart _ _ labelChild,
      setChild_same, setChild_apart _ _ _ labelGrand, setChild_apart _ _ _ labelChild,
      setChild_apart _ _ _ grandLabel, setChild_apart _ _ _ grandChild,
      grandRecord, labelRecord, stored_child_other, stored_withChild, stored_withChild_other,
      stored_bf, stored_withBf]

end Double

section Balance

/-- A change of the records of one subtree that keeps its labels and their order. -/
structure Rebuilt (tuple changed : Tuples) (top : Nat) (old new : BinTree Rec) : Prop where
  holds : Holds changed new
  top : link new = some top
  balanced : new.HeightBalanced
  labels : new.toList = old.toList
  apart : ∀ place, place ∉ indices old → changed place = tuple place

variable {tuple : Tuples} {side : Side} {near far outer inner : BinTree Rec} {child label : Rec}
  {bf : Int}

theorem exists_join (side : Side) {tree : BinTree Rec} (some : tree.height ≠ 0) :
    ∃ near label bf far, tree = join side near label bf far := by
  cases tree with
  | nil => exact absurd rfl some
  | node left label bf right =>
      cases side
      · exact ⟨left, label, bf, right, rfl⟩
      · exact ⟨right, label, bf, left, rfl⟩

theorem rotate_single_outwards
    (holds : Holds tuple (join side (join side outer child side.sign inner) label bf far))
    (nodup : (indices (join side (join side outer child side.sign inner) label bf far)).Nodup)
    (childOk : (join side outer child side.sign inner).HeightBalanced) (farOk : far.HeightBalanced)
    (lean : (join side outer child side.sign inner).height = far.height + 2) :
    ∃ new, Rebuilt tuple (rotateSingle side tuple label.index child.index 0 0) child.index
      (join side (join side outer child side.sign inner) label bf far) new ∧
        new.height = far.height + 2 := by
  have level := single_balanced label 0 childOk farOk lean
  refine ⟨_, ⟨rotate_single_holds 0 0 holds nodup, link_join .., level.1, toList_single .., ?_⟩,
    level.2⟩
  intro place outside
  simp only [mem_indices_join, not_or] at outside
  exact rotate_single_apart 0 0 outside.1 outside.2.1.1

theorem rotate_single_even
    (holds : Holds tuple (join side (join side outer child 0 inner) label bf far))
    (nodup : (indices (join side (join side outer child 0 inner) label bf far)).Nodup)
    (childOk : (join side outer child 0 inner).HeightBalanced) (farOk : far.HeightBalanced)
    (lean : (join side outer child 0 inner).height = far.height + 2) :
    ∃ new, Rebuilt tuple
      (rotateSingle side tuple label.index child.index side.sign (-side.sign)) child.index
      (join side (join side outer child 0 inner) label bf far) new ∧
        new.height = far.height + 3 := by
  have level := single_balanced_even label side.sign childOk farOk lean
  refine ⟨_, ⟨rotate_single_holds _ _ holds nodup, link_join .., level.1, toList_single .., ?_⟩,
    level.2⟩
  intro place outside
  simp only [mem_indices_join, not_or] at outside
  exact rotate_single_apart _ _ outside.1 outside.2.1.1

theorem rotate_double_inwards
    (holds : Holds tuple (join side (join side outer child (-side.sign) inner) label bf far))
    (nodup : (indices (join side (join side outer child (-side.sign) inner) label bf far)).Nodup)
    (childOk : (join side outer child (-side.sign) inner).HeightBalanced) (farOk : far.HeightBalanced)
    (lean : (join side outer child (-side.sign) inner).height = far.height + 2) :
    ∃ grand new, link inner = some grand ∧
      Rebuilt tuple (rotateDouble side tuple label.index child.index grand) grand
        (join side (join side outer child (-side.sign) inner) label bf far) new ∧
      new.height = far.height + 2 := by
  have factor := (balanced_join side outer child (-side.sign) inner).mp childOk |>.1
  have tall : inner.height ≠ 0 := by
    rcases sign_cases side with one | one
    · rw [one] at factor
      omega
    · rw [one] at factor
      omega
  obtain ⟨first, grand, grandBf, second, rfl⟩ := exists_join side tall
  rw [← join_other side _ child] at holds nodup childOk lean ⊢
  have level := double_balanced label childOk farOk lean
  refine ⟨grand.index, _, link_join .., ⟨rotate_double_holds holds nodup, link_join .., level.1,
    toList_double .., ?_⟩, level.2⟩
  intro place outside
  simp only [mem_indices_join, not_or] at outside
  exact rotate_double_apart outside.1 outside.2.1.1 outside.2.1.2.1.1

/-- The rotations of the insertion, where the child is never even. -/
theorem insert_rotate_spec (holds : Holds tuple (join side near label bf far))
    (nodup : (indices (join side near label bf far)).Nodup) (nearOk : near.HeightBalanced)
    (farOk : far.HeightBalanced) (lean : near.height = far.height + 2) {B : Nat}
    (below : link near = some B) (uneven : (tuple B).bf ≠ 0) :
    ∃ changed top new, insertRotate side tuple label.index B = some (changed, top) ∧
      Rebuilt tuple changed top (join side near label bf far) new ∧
      new.height = far.height + 2 := by
  obtain ⟨outer, child, childBf, inner, rfl⟩ := exists_join side (by omega : near.height ≠ 0)
  rw [link_join, Option.some.injEq] at below
  subst below
  have childHolds := (holds_join ..).mp ((holds_join ..).mp holds).2.2.1
  have childRecord := childHolds.2.1
  rw [childRecord, stored_bf] at uneven
  rw [insertRotate, childRecord, stored_bf, stored_child_other]
  by_cases outwards : childBf = side.sign
  · subst outwards
    obtain ⟨new, rebuilt, high⟩ := rotate_single_outwards holds nodup nearOk farOk lean
    exact ⟨_, _, new, if_pos rfl, rebuilt, high⟩
  · have inwards : childBf = -side.sign := by
      obtain ⟨-, low, high, -⟩ := (balanced_join ..).mp nearOk
      rcases sign_cases side with one | one <;> omega
    subst inwards
    obtain ⟨grand, new, link, rebuilt, high⟩ :=
      rotate_double_inwards holds nodup nearOk farOk lean
    refine ⟨_, _, new, ?_, rebuilt, high⟩
    rw [if_neg outwards, getGreentry_link childHolds.2.2.2, link]
    rfl

/-- The rotations of the deletion, with the flag that says the subtree is lower now. -/
theorem rotation_spec (holds : Holds tuple (join side near label bf far))
    (nodup : (indices (join side near label bf far)).Nodup) (nearOk : near.HeightBalanced)
    (farOk : far.HeightBalanced) (lean : near.height = far.height + 2) :
    ∃ changed top lower new, rotation side tuple label.index = some (changed, top, lower) ∧
      Rebuilt tuple changed top (join side near label bf far) new ∧
      ((lower ≠ 0 ∧ new.height = far.height + 2) ∨
        (lower = 0 ∧ new.height = far.height + 3)) := by
  obtain ⟨outer, child, childBf, inner, rfl⟩ := exists_join side (by omega : near.height ≠ 0)
  have labelRecord := ((holds_join ..).mp holds).2.1
  have childHolds := (holds_join ..).mp ((holds_join ..).mp holds).2.2.1
  have childRecord := childHolds.2.1
  simp only [rotation, labelRecord, stored_child, link_join, getGreentry_some childHolds.1,
    Option.bind_eq_bind, Option.bind_some, childRecord, stored_bf, stored_child_other,
    getGreentry_link childHolds.2.2.2]
  by_cases outwards : childBf = side.sign
  · subst outwards
    obtain ⟨new, rebuilt, high⟩ := rotate_single_outwards holds nodup nearOk farOk lean
    exact ⟨_, _, _, new, if_pos rfl, rebuilt, Or.inl ⟨one_ne_zero, high⟩⟩
  · rw [if_neg outwards]
    by_cases inwards : childBf = -side.sign
    · subst inwards
      obtain ⟨grand, new, link, rebuilt, high⟩ :=
        rotate_double_inwards holds nodup nearOk farOk lean
      refine ⟨_, _, _, new, ?_, rebuilt, Or.inl ⟨one_ne_zero, high⟩⟩
      rw [if_pos rfl, link]
      rfl
    · have even : childBf = 0 := by
        obtain ⟨-, low, high, -⟩ := (balanced_join ..).mp nearOk
        rcases sign_cases side with one | one <;> omega
      subst even
      obtain ⟨new, rebuilt, high⟩ := rotate_single_even holds nodup nearOk farOk lean
      exact ⟨_, _, _, new, if_neg inwards, rebuilt, Or.inr ⟨rfl, high⟩⟩

end Balance

section Replace

/-- A subtree and the path above it do not share records. -/
theorem plug_nodup {path : Path} {tree : BinTree Rec} (nodup : (indices (plug path tree)).Nodup) :
    (indices tree).Nodup ∧ (pathIndices path).Nodup ∧
      ∀ index ∈ indices tree, index ∉ pathIndices path := by
  rw [(indices_plug path tree).nodup_iff, List.nodup_append] at nodup
  exact ⟨nodup.1, nodup.2.1, fun index inTree inPath =>
    nodup.2.2 index inTree index inPath rfl⟩

theorem not_mem_plug {path : Path} {tree : BinTree Rec} {place : Nat}
    (outside : place ∉ indices (plug path tree)) :
    place ∉ indices tree ∧ place ∉ pathIndices path := by
  rw [(indices_plug path tree).mem_iff, List.mem_append, not_or] at outside
  exact outside

theorem toList_plug_congr (path : Path) {old new : BinTree Rec} (same : new.toList = old.toList) :
    (plug path new).toList = (plug path old).toList := by
  rw [toList_plug, toList_plug, same]

/-- The table holds `new` where it held `old`, with the same labels in the same order, and
nothing else has changed. -/
structure Carries (tbl result : GreentryTable) (old new : BinTree Rec) : Prop where
  root : result.root = link new
  holds : Holds result.tuple new
  labels : new.toList = old.toList
  free : result.free = tbl.free
  used : result.used = tbl.used
  apart : ∀ place, place ∉ indices old → result.tuple place = tbl.tuple place

theorem Carries.refl {tbl : GreentryTable} {tree : BinTree Rec} (root : tbl.root = link tree)
    (holds : Holds tbl.tuple tree) : Carries tbl tbl tree tree :=
  ⟨root, holds, rfl, rfl, rfl, fun _ _ => rfl⟩

theorem Carries.trans {tbl mid result : GreentryTable} {old middle new : BinTree Rec}
    (first : Carries tbl mid old middle) (second : Carries mid result middle new) :
    Carries tbl result old new := by
  refine ⟨second.root, second.holds, second.labels.trans first.labels,
    second.free.trans first.free, second.used.trans first.used, ?_⟩
  intro place outside
  rw [second.apart place (indices_congr first.labels ▸ outside)]
  exact first.apart place outside

theorem Carries.content {tbl result : GreentryTable} {old new : BinTree Rec}
    (carries : Carries tbl result old new) (holds : Holds tbl.tuple old) :
    content result.tuple = content tbl.tuple := by
  funext place
  by_cases inside : place ∈ indices old
  · obtain ⟨label, member, rfl⟩ := List.mem_map.mp inside
    obtain ⟨-, key, body⟩ := record_of_label holds member
    obtain ⟨-, key', body'⟩ := record_of_label carries.holds (carries.labels ▸ member)
    exact Prod.ext (key'.trans key.symm) (body'.trans body.symm)
  · rw [Greentry.content, carries.apart place inside]
    rfl

theorem Stores.carried {tbl result : GreentryTable} {old new : BinTree Rec} {rest : List Nat}
    (inv : Stores tbl old rest) (carries : Carries tbl result old new) :
    Stores result new rest := by
  obtain ⟨-, -, cross⟩ := inv.apart
  refine ⟨carries.root, carries.holds, ?_, ?_, ?_⟩
  · rw [carries.free]
    exact freeChain_congr (fun index member => carries.apart index (cross index member)) inv.chain
  · rw [carries.free, indices_congr carries.labels]
    exact inv.parts
  · rw [carries.labels]
    exact inv.ordered

/-- A rebuilt subtree is linked to the path above it again. -/
theorem carries_plug {tbl result : GreentryTable} {changed : Tuples} {top : Nat}
    {old new : BinTree Rec} {path : Path} (rebuilt : Rebuilt tbl.tuple changed top old new)
    (nodup : (indices (plug path old)).Nodup) (root : result.root = topLink path (some top))
    (holds : HoldsPath result.tuple path (some top)) (free : result.free = tbl.free)
    (used : result.used = tbl.used)
    (same : ∀ place, place ∉ pathIndices path → result.tuple place = changed place) :
    Carries tbl result (plug path old) (plug path new) := by
  obtain ⟨-, -, apart⟩ := plug_nodup nodup
  have labels := indices_congr rebuilt.labels
  refine ⟨?_, ?_, toList_plug_congr path rebuilt.labels, free, used, ?_⟩
  · rw [link_plug, rebuilt.top]
    exact root
  · rw [holds_plug, rebuilt.top]
    refine ⟨holds_congr (fun index member => same index ?_) rebuilt.holds, holds⟩
    rw [labels] at member
    exact apart index member
  · intro place outside
    obtain ⟨offTree, offPath⟩ := not_mem_plug outside
    rw [same place offPath, rebuilt.apart place offTree]

/-- A subtree is rebuilt and its root stays, so that nothing is linked anew. -/
theorem carries_in_place {tbl : GreentryTable} {changed : Tuples} {top : Nat}
    {old new : BinTree Rec} {path : Path} (rebuilt : Rebuilt tbl.tuple changed top old new)
    (root : tbl.root = link (plug path old)) (holds : Holds tbl.tuple (plug path old))
    (nodup : (indices (plug path old)).Nodup) (same : link old = some top) :
    Carries tbl { tbl with tuple := changed } (plug path old) (plug path new) := by
  obtain ⟨-, -, apart⟩ := plug_nodup nodup
  have pathHolds := ((holds_plug ..).mp holds).2
  rw [same] at pathHolds
  refine carries_plug rebuilt nodup ?_ ?_ rfl rfl (fun _ _ => rfl)
  · rw [← same, ← link_plug]
    exact root
  · exact holdsPath_congr (fun index member => rebuilt.apart index fun inTree =>
      apart index inTree member) pathHolds

theorem set_bf_rebuilt {tuple : Tuples} {side : Side} {near far : BinTree Rec} {label : Rec}
    {bf : Int} (value : Int) (holds : Holds tuple (join side near label bf far))
    (nodup : (indices (join side near label bf far)).Nodup)
    (balanced : (join side near label value far).HeightBalanced) :
    Rebuilt tuple (setBf tuple label.index value) label.index (join side near label bf far)
      (join side near label value far) := by
  refine ⟨holds_setBf value holds nodup, link_join .., balanced, ?_, ?_⟩
  · cases side <;> rfl
  · intro place outside
    rw [mem_indices_join, not_or] at outside
    exact setBf_apart _ _ outside.1

/-- The field that leads to the place at the end of a path; none is the root. -/
def placeOf (path : Path) : Option (Nat × Side) :=
  path.head?.map fun frame => (frame.label.index, frame.side)

theorem set_pindex_spec {tbl : GreentryTable} {path : Path} {old : Nat} (top : Nat)
    (root : tbl.root = topLink path (some old)) (holds : HoldsPath tbl.tuple path (some old))
    (nodup : (pathIndices path).Nodup) :
    (setPindex tbl (placeOf path) top).root = topLink path (some top) ∧
      HoldsPath (setPindex tbl (placeOf path) top).tuple path (some top) ∧
      (setPindex tbl (placeOf path) top).free = tbl.free ∧
      (setPindex tbl (placeOf path) top).used = tbl.used ∧
      ∀ place, place ∉ pathIndices path →
        (setPindex tbl (placeOf path) top).tuple place = tbl.tuple place := by
  cases path with
  | nil => exact ⟨rfl, trivial, rfl, rfl, fun _ _ => rfl⟩
  | cons frame rest =>
      refine ⟨root, holdsPath_setChild (some top) holds nodup, rfl, rfl, ?_⟩
      intro place apart
      rw [pathIndices_cons, List.mem_cons, not_or] at apart
      exact setChild_apart _ _ _ apart.1

/-- A subtree is rebuilt and its new root linked where the old one was. -/
theorem carries_relinked {tbl : GreentryTable} {changed : Tuples} {oldTop top : Nat}
    {old new : BinTree Rec} {path : Path} (rebuilt : Rebuilt tbl.tuple changed top old new)
    (root : tbl.root = link (plug path old)) (holds : Holds tbl.tuple (plug path old))
    (nodup : (indices (plug path old)).Nodup) (link : link old = some oldTop) :
    Carries tbl (setPindex { tbl with tuple := changed } (placeOf path) top) (plug path old)
      (plug path new) := by
  obtain ⟨-, pathNodup, apart⟩ := plug_nodup nodup
  have pathHolds := ((holds_plug ..).mp holds).2
  rw [link] at pathHolds
  rw [link_plug, link] at root
  have stays : HoldsPath changed path (some oldTop) :=
    holdsPath_congr (fun index member => rebuilt.apart index fun inTree =>
      apart index inTree member) pathHolds
  obtain ⟨newRoot, newHolds, free, used, same⟩ :=
    @set_pindex_spec { tbl with tuple := changed } path oldTop top root stays pathNodup
  exact carries_plug rebuilt nodup newRoot newHolds free used same

end Replace

end Upst.Greentry
