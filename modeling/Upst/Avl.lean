import Mathlib.Data.List.Basic
import Mathlib.Tactic.Ring
import Mathlib.Order.Lattice
import Mathlib.Algebra.Order.Ring.Nat

/-!
Height-balanced binary trees with a stored balance factor, over arbitrary labels.
Left and right are one parameter: `join side near label bf far` is the node whose
child on `side` is `near`, so that every rotation and every rule is stated once for
both sides. A place in a tree is a list of frames, innermost first.
-/

namespace Upst.Avl

set_option autoImplicit false

inductive Side where
  | left
  | right
  deriving DecidableEq, Repr

def Side.other : Side → Side
  | .left => .right
  | .right => .left

/-- The balance factor of a node that is one higher on this side. -/
def Side.sign : Side → Int
  | .left => 1
  | .right => -1

@[simp] theorem other_other (side : Side) : side.other.other = side := by
  cases side <;> rfl

@[simp] theorem sign_other (side : Side) : side.other.sign = -side.sign := by
  cases side <;> rfl

theorem sign_ne_zero (side : Side) : side.sign ≠ 0 := by
  cases side <;> decide

theorem sign_cases (side : Side) : side.sign = 1 ∨ side.sign = -1 := by
  cases side
  · exact Or.inl rfl
  · exact Or.inr rfl

inductive BinTree (α : Type*) where
  | nil : BinTree α
  | node (left : BinTree α) (label : α) (bf : Int) (right : BinTree α) : BinTree α

variable {α : Type*}

namespace BinTree

def height : BinTree α → Nat
  | nil => 0
  | node left _ _ right => 1 + max left.height right.height

def size : BinTree α → Nat
  | nil => 0
  | node left _ _ right => left.size + 1 + right.size

/-- The labels from left to right. -/
def toList : BinTree α → List α
  | nil => []
  | node left label _ right => left.toList ++ label :: right.toList

/-- Every stored balance factor is the difference of the heights and at most one. -/
def HeightBalanced : BinTree α → Prop
  | nil => True
  | node left _ bf right =>
      bf = left.height - right.height ∧ -1 ≤ bf ∧ bf ≤ 1 ∧ left.HeightBalanced ∧ right.HeightBalanced

def join (side : Side) (near : BinTree α) (label : α) (bf : Int) (far : BinTree α) : BinTree α :=
  match side with
  | .left => node near label bf far
  | .right => node far label bf near

end BinTree

open BinTree

@[simp] theorem height_join (side : Side) (near : BinTree α) (label : α) (bf : Int) (far : BinTree α) :
    (join side near label bf far).height = 1 + max near.height far.height := by
  cases side
  · rfl
  · simp [join, height, max_comm]

theorem balanced_join (side : Side) (near : BinTree α) (label : α) (bf : Int) (far : BinTree α) :
    (join side near label bf far).HeightBalanced ↔
      bf = side.sign * (near.height - far.height) ∧ -1 ≤ bf ∧ bf ≤ 1 ∧ near.HeightBalanced ∧
        far.HeightBalanced := by
  cases side
  · simp [join, HeightBalanced, Side.sign]
  · simp only [join, HeightBalanced, Side.sign]
    constructor
    · rintro ⟨factor, low, high, first, second⟩
      exact ⟨by omega, low, high, second, first⟩
    · rintro ⟨factor, low, high, first, second⟩
      exact ⟨by omega, low, high, second, first⟩

theorem join_other (side : Side) (near : BinTree α) (label : α) (bf : Int) (far : BinTree α) :
    join side.other near label bf far = join side far label bf near := by
  cases side <;> rfl

theorem toList_length (tree : BinTree α) : tree.toList.length = tree.size := by
  induction tree with
  | nil => rfl
  | node left label bf right ihLeft ihRight =>
      simp only [toList, size, List.length_append, List.length_cons, ihLeft, ihRight]
      omega

/-- A balanced tree is at most about twice as high as a full one. -/
theorem balanced_size {tree : BinTree α} (balanced : tree.HeightBalanced) :
    2 ^ ((tree.height + 1) / 2) ≤ tree.size + 1 := by
  induction tree with
  | nil => simp [height, size]
  | node left label bf right ihLeft ihRight =>
      obtain ⟨factor, low, high, leftBalanced, rightBalanced⟩ := balanced
      have leftSize := ihLeft leftBalanced
      have rightSize := ihRight rightBalanced
      simp only [height, size]
      -- the higher child is one below the node, the other at most two
      have bound : ∀ {tall short : Nat}, short ≤ tall → tall ≤ short + 1 →
          2 ^ ((1 + tall + 1) / 2) ≤ 2 ^ ((tall + 1) / 2) + 2 ^ ((short + 1) / 2) := by
        intro tall short less close
        rcases Nat.even_or_odd' tall with ⟨half, rfl | rfl⟩
        · have eq₁ : (1 + 2 * half + 1) / 2 = half + 1 := by omega
          have eq₂ : (2 * half + 1) / 2 = half := by omega
          have eq₃ : (short + 1) / 2 = half := by omega
          rw [eq₁, eq₂, eq₃, pow_succ]
          omega
        · have eq₁ : (1 + (2 * half + 1) + 1) / 2 = half + 1 := by omega
          have eq₂ : (2 * half + 1 + 1) / 2 = half + 1 := by omega
          rw [eq₁, eq₂]
          exact Nat.le_add_right _ _
      rcases Nat.le_total left.height right.height with rightTall | leftTall
      · rw [max_eq_right rightTall]
        have := bound rightTall (by omega)
        omega
      · rw [max_eq_left leftTall]
        have := bound leftTall (by omega)
        omega

theorem even_level {side : Side} {height other : Nat}
    (factor : (0 : Int) = side.sign * (height - other)) : other = height := by
  rcases sign_cases side with one | one
  · rw [one] at factor
    omega
  · rw [one] at factor
    omega

/-- The three balances of a node, with what they say about its children. -/
theorem factor_cases {side : Side} {bf : Int} {near far : Nat}
    (factor : bf = side.sign * (near - far)) (low : -1 ≤ bf) (up : bf ≤ 1) :
    (bf = 0 ∧ near = far) ∨ (bf = -side.sign ∧ far = near + 1) ∨
      (bf = side.sign ∧ near = far + 1) := by
  rcases sign_cases side with one | one
  · rw [one] at factor ⊢
    omega
  · rw [one] at factor ⊢
    omega

section Rotations

/-- The child on `side` moves up; its inner subtree changes hands. -/
def singleRotated (side : Side) (outer : BinTree α) (child : α) (childBf : Int) (inner : BinTree α)
    (label : α) (bf : Int) (far : BinTree α) : BinTree α :=
  join side outer child childBf (join side inner label bf far)

/-- The inner grandchild moves up and gives one subtree to each of the two nodes. -/
def doubleRotated (side : Side) (outer : BinTree α) (child : α) (childBf : Int) (first : BinTree α)
    (grand : α) (second : BinTree α) (label : α) (bf : Int) (far : BinTree α) : BinTree α :=
  join side (join side outer child childBf first) grand 0 (join side second label bf far)

@[simp] theorem toList_single (side : Side) (outer inner far : BinTree α) (child label : α)
    (childBf bf childBf' bf' : Int) :
    (singleRotated side outer child childBf' inner label bf' far).toList =
      (join side (join side outer child childBf inner) label bf far).toList := by
  cases side <;> simp [singleRotated, join, toList]

@[simp] theorem toList_double (side : Side) (outer first second far : BinTree α)
    (child grand label : α) (childBf grandBf bf childBf' bf' : Int) :
    (doubleRotated side outer child childBf' first grand second label bf' far).toList =
      (join side (join side.other (join side first grand grandBf second) child childBf outer)
        label bf far).toList := by
  cases side <;> simp [doubleRotated, join, toList, Side.other]

/-- The balance factors of the two nodes below a double rotation, from the one that
the grandchild had. -/
def doubleFactors (side : Side) (grandBf : Int) : Int × Int :=
  if grandBf = side.sign then (-side.sign, 0)
  else if grandBf = -side.sign then (0, side.sign)
  else (0, 0)

variable {side : Side} {outer inner first second far : BinTree α} {child grand : α}

/-- A child that leans outwards: one single rotation restores the balance and takes a
level off. -/
theorem single_balanced (label : α) (bf : Int)
    (childOk : (join side outer child side.sign inner).HeightBalanced) (farOk : far.HeightBalanced)
    (lean : (join side outer child side.sign inner).height = far.height + 2) :
    (singleRotated side outer child 0 inner label 0 far).HeightBalanced ∧
      (singleRotated side outer child 0 inner label bf far).height = far.height + 2 := by
  rw [balanced_join] at childOk
  obtain ⟨factor, -, -, outerOk, innerOk⟩ := childOk
  have unit : (outer.height : Int) - inner.height = 1 := by
    rcases sign_cases side with one | one <;> rw [one] at factor <;> omega
  rw [height_join] at lean
  simp only [singleRotated, balanced_join, height_join]
  refine ⟨⟨?_, by decide, by decide, outerOk, ?_, by decide, by decide, innerOk, farOk⟩, by omega⟩
  · have even : (outer.height : Int) - (1 + max inner.height far.height : Nat) = 0 := by omega
    rw [even, mul_zero]
  · have even : (inner.height : Int) - far.height = 0 := by omega
    rw [even, mul_zero]

/-- A child that is even: the single rotation keeps the height. -/
theorem single_balanced_even (label : α) (bf : Int)
    (childOk : (join side outer child 0 inner).HeightBalanced) (farOk : far.HeightBalanced)
    (lean : (join side outer child 0 inner).height = far.height + 2) :
    (singleRotated side outer child (-side.sign) inner label side.sign far).HeightBalanced ∧
      (singleRotated side outer child (-side.sign) inner label bf far).height =
        far.height + 3 := by
  rw [balanced_join] at childOk
  obtain ⟨factor, -, -, outerOk, innerOk⟩ := childOk
  have even := even_level factor
  rw [height_join] at lean
  simp only [singleRotated, balanced_join, height_join]
  refine ⟨⟨?_, ?_, ?_, outerOk, ?_, ?_, ?_, innerOk, farOk⟩, by omega⟩
  · have down : (outer.height : Int) - (1 + max inner.height far.height : Nat) = -1 := by omega
    rw [down, mul_neg_one]
  · cases side <;> decide
  · cases side <;> decide
  · have up : (inner.height : Int) - far.height = 1 := by omega
    rw [up, mul_one]
  · cases side <;> decide
  · cases side <;> decide

/-- A child that leans inwards: its inner child comes up between the two. -/
theorem double_balanced (label : α) {grandBf : Int}
    (childOk : (join side.other (join side first grand grandBf second) child (-side.sign)
      outer).HeightBalanced) (farOk : far.HeightBalanced)
    (lean : (join side.other (join side first grand grandBf second) child (-side.sign)
      outer).height = far.height + 2) :
    (doubleRotated side outer child (doubleFactors side grandBf).2 first grand second label
        (doubleFactors side grandBf).1 far).HeightBalanced ∧
      (doubleRotated side outer child (doubleFactors side grandBf).2 first grand second label
        (doubleFactors side grandBf).1 far).height = far.height + 2 := by
  rw [balanced_join, balanced_join] at childOk
  obtain ⟨factor, -, -, ⟨grandFactor, grandLow, grandHigh, firstOk, secondOk⟩, outerOk⟩ := childOk
  rw [height_join, sign_other] at factor
  rw [height_join, height_join] at lean
  have grandHeight : (1 + max first.height second.height : Nat) = outer.height + 1 := by
    rcases sign_cases side with one | one <;> rw [one] at factor <;> omega
  simp only [doubleRotated, doubleFactors, balanced_join, height_join]
  rcases sign_cases side with one | one
  · rw [one] at grandFactor ⊢
    split_ifs with up down
    · exact ⟨⟨by omega, by decide, by decide, ⟨by omega, by decide, by decide, outerOk, firstOk⟩,
        by omega, by decide, by decide, secondOk, farOk⟩, by omega⟩
    · exact ⟨⟨by omega, by decide, by decide, ⟨by omega, by decide, by decide, outerOk, firstOk⟩,
        by omega, by decide, by decide, secondOk, farOk⟩, by omega⟩
    · exact ⟨⟨by omega, by decide, by decide, ⟨by omega, by decide, by decide, outerOk, firstOk⟩,
        by omega, by decide, by decide, secondOk, farOk⟩, by omega⟩
  · rw [one] at grandFactor ⊢
    split_ifs with up down
    · exact ⟨⟨by omega, by decide, by decide, ⟨by omega, by decide, by decide, outerOk, firstOk⟩,
        by omega, by decide, by decide, secondOk, farOk⟩, by omega⟩
    · exact ⟨⟨by omega, by decide, by decide, ⟨by omega, by decide, by decide, outerOk, firstOk⟩,
        by omega, by decide, by decide, secondOk, farOk⟩, by omega⟩
    · exact ⟨⟨by omega, by decide, by decide, ⟨by omega, by decide, by decide, outerOk, firstOk⟩,
        by omega, by decide, by decide, secondOk, farOk⟩, by omega⟩

end Rotations

section Contexts

/-- One step of a path: the node passed and the subtree on the side not taken. -/
structure Frame (α : Type*) where
  side : Side
  label : α
  bf : Int
  far : BinTree α

def Frame.fill (frame : Frame α) (near : BinTree α) : BinTree α :=
  join frame.side near frame.label frame.bf frame.far

/-- The whole tree, from a path (innermost frame first) and the subtree at its end. -/
def plug : List (Frame α) → BinTree α → BinTree α
  | [], tree => tree
  | frame :: rest, tree => plug rest (frame.fill tree)

/-- The labels left of the place. -/
def before : List (Frame α) → List α
  | [] => []
  | frame :: rest => match frame.side with
      | .left => before rest
      | .right => before rest ++ frame.far.toList ++ [frame.label]

/-- The labels right of the place. -/
def after : List (Frame α) → List α
  | [] => []
  | frame :: rest => match frame.side with
      | .left => frame.label :: frame.far.toList ++ after rest
      | .right => after rest

/-- Every node of the path is balanced when the subtree at its end is `height` high. -/
def PathBalanced : List (Frame α) → Nat → Prop
  | [], _ => True
  | frame :: rest, height =>
      frame.bf = frame.side.sign * (height - frame.far.height) ∧ -1 ≤ frame.bf ∧ frame.bf ≤ 1 ∧
        frame.far.HeightBalanced ∧ PathBalanced rest (1 + max height frame.far.height)

theorem plug_append (inner outside : List (Frame α)) (tree : BinTree α) :
    plug (inner ++ outside) tree = plug outside (plug inner tree) := by
  induction inner generalizing tree with
  | nil => rfl
  | cons frame rest ih => exact ih (frame.fill tree)

/-- A place in a child of the subtree at the end of a path. -/
theorem plug_join (path inner : List (Frame α)) (side : Side) (tree : BinTree α) (label : α)
    (bf : Int) (far : BinTree α) :
    plug path (join side (plug inner tree) label bf far) =
      plug (inner ++ ⟨side, label, bf, far⟩ :: path) tree := by
  rw [plug_append]
  rfl

theorem toList_plug (path : List (Frame α)) (tree : BinTree α) :
    (plug path tree).toList = before path ++ tree.toList ++ after path := by
  induction path generalizing tree with
  | nil => simp [plug, before, after]
  | cons frame rest ih =>
      obtain ⟨side, label, bf, far⟩ := frame
      rw [plug, ih]
      cases side <;> simp [Frame.fill, join, toList, before, after]

theorem balanced_plug (path : List (Frame α)) (tree : BinTree α) :
    (plug path tree).HeightBalanced ↔ tree.HeightBalanced ∧ PathBalanced path tree.height := by
  induction path generalizing tree with
  | nil => simp [plug, PathBalanced]
  | cons frame rest ih =>
      rw [plug, ih, Frame.fill, balanced_join, height_join, PathBalanced]
      tauto

theorem height_path_le (path : List (Frame α)) (tree : BinTree α) :
    path.length + tree.height ≤ (plug path tree).height := by
  induction path generalizing tree with
  | nil => simp [plug]
  | cons frame rest ih =>
      have step := ih (frame.fill tree)
      rw [Frame.fill, height_join] at step
      rw [plug, List.length_cons, Frame.fill]
      omega

theorem before_append (inner outside : List (Frame α)) :
    before (inner ++ outside) = before outside ++ before inner := by
  induction inner with
  | nil => simp [before]
  | cons frame rest ih =>
      obtain ⟨side, label, bf, far⟩ := frame
      cases side <;> simp [before, ih]

theorem after_append (inner outside : List (Frame α)) :
    after (inner ++ outside) = after inner ++ after outside := by
  induction inner with
  | nil => simp [after]
  | cons frame rest ih =>
      obtain ⟨side, label, bf, far⟩ := frame
      cases side <;> simp [after, ih]

theorem node_eq_join (side : Side) (left : BinTree α) (label : α) (bf : Int) (right : BinTree α) :
    ∃ near far, node left label bf right = join side near label bf far := by
  cases side
  · exact ⟨left, right, rfl⟩
  · exact ⟨right, left, rfl⟩

end Contexts

section Growth

/-- The node after the subtree below it has become higher, when it was even before. -/
def Frame.grown (frame : Frame α) : Frame α :=
  { frame with bf := frame.side.sign }

theorem toList_grown (path : List (Frame α)) (tree : BinTree α) :
    (plug (path.map Frame.grown) tree).toList = (plug path tree).toList := by
  induction path generalizing tree with
  | nil => rfl
  | cons frame rest ih =>
      rw [List.map_cons, plug, ih, plug, toList_plug, toList_plug]
      obtain ⟨side, label, bf, far⟩ := frame
      cases side <;> rfl

theorem grown_balanced {path : List (Frame α)} {height : Nat}
    (even : ∀ frame ∈ path, frame.bf = 0) (balanced : PathBalanced path height) :
    PathBalanced (path.map Frame.grown) (height + 1) := by
  induction path generalizing height with
  | nil => trivial
  | cons frame rest ih =>
      obtain ⟨factor, -, -, farOk, restOk⟩ := balanced
      rw [even frame List.mem_cons_self] at factor
      have level := even_level factor
      have lift := ih (fun other member => even other (List.mem_cons_of_mem _ member)) restOk
      rw [level, max_self] at lift
      refine ⟨?_, ?_, ?_, farOk, ?_⟩
      · have unit : ((height + 1 : Nat) : Int) - frame.far.height = 1 := by omega
        simp only [Frame.grown, unit, mul_one]
      · rcases sign_cases frame.side with one | one <;> simp [Frame.grown, one]
      · rcases sign_cases frame.side with one | one <;> simp [Frame.grown, one]
      · have higher : 1 + max (height + 1) frame.far.height = 1 + height + 1 := by omega
        simp only [Frame.grown]
        rw [higher]
        exact lift

theorem grown_height {path : List (Frame α)} {old new : BinTree α}
    (even : ∀ frame ∈ path, frame.bf = 0) (balanced : PathBalanced path old.height)
    (higher : new.height = old.height + 1) :
    (plug (path.map Frame.grown) new).height = (plug path old).height + 1 := by
  induction path generalizing old new with
  | nil => exact higher
  | cons frame rest ih =>
      obtain ⟨factor, -, -, -, restOk⟩ := balanced
      rw [even frame List.mem_cons_self] at factor
      have level := even_level factor
      apply ih (fun other member => even other (List.mem_cons_of_mem _ member))
      · rw [Frame.fill, height_join]
        exact restOk
      · simp only [Frame.fill, Frame.grown, height_join]
        omega

end Growth

section Search

variable {K : Type*} [LinearOrder K] (key : α → K)

def BinTree.Sorted (tree : BinTree α) : Prop :=
  tree.toList.Pairwise fun first second => key first < key second

/-- The place where `wanted` belongs: it is above all labels to the left of the place
and below all to the right. -/
def Located (wanted : K) (path : List (Frame α)) : Prop :=
  (∀ label ∈ before path, key label < wanted) ∧ ∀ label ∈ after path, wanted < key label

variable {key}

theorem sorted_near {path : List (Frame α)} {left right : BinTree α} {label : α} {bf : Int}
    (sorted : (plug path (node left label bf right)).Sorted key) :
    (∀ other ∈ left.toList, key other < key label) ∧
      ∀ other ∈ right.toList, key label < key other := by
  rw [BinTree.Sorted, toList_plug, toList, List.pairwise_append, List.pairwise_append] at sorted
  have middle := sorted.1.2.1
  rw [List.pairwise_append] at middle
  refine ⟨fun other member => middle.2.2 other member label (by simp), ?_⟩
  exact fun other member => (List.pairwise_cons.mp middle.2.1).1 other member

/-- The side of a node on which `wanted` belongs. -/
def Toward (side : Side) (wanted here : K) : Prop :=
  match side with
  | .left => wanted < here
  | .right => here < wanted

/-- One step of a search keeps the place. -/
theorem located_step {path : List (Frame α)} {side : Side} {near far : BinTree α} {label : α}
    {bf : Int} {wanted : K} (sorted : (plug path (join side near label bf far)).Sorted key)
    (located : Located key wanted path) (toward : Toward side wanted (key label)) :
    Located key wanted (⟨side, label, bf, far⟩ :: path) := by
  cases side with
  | left =>
      refine ⟨located.1, ?_⟩
      intro other member
      simp only [after, List.cons_append, List.mem_cons, List.mem_append] at member
      rcases member with rfl | inRight | outside
      · exact toward
      · exact toward.trans ((sorted_near sorted).2 other inRight)
      · exact located.2 other outside
  | right =>
      refine ⟨?_, located.2⟩
      intro other member
      simp only [before, List.mem_append, List.mem_singleton] at member
      rcases member with (outside | inLeft) | rfl
      · exact located.1 other outside
      · exact ((sorted_near sorted).1 other inLeft).trans toward
      · exact toward

theorem located_toward {path : List (Frame α)} {frame : Frame α} {wanted : K}
    (located : Located key wanted path) (member : frame ∈ path) :
    Toward frame.side wanted (key frame.label) := by
  obtain ⟨inner, outside, rfl⟩ := List.append_of_mem member
  obtain ⟨side, label, bf, far⟩ := frame
  obtain ⟨lower, upper⟩ := located
  rw [before_append] at lower
  rw [after_append] at upper
  cases side with
  | left => exact upper label (by simp [after])
  | right => exact lower label (by simp [before])

/-- The labels of a subtree are on its side of the node above. -/
theorem sorted_toward {frame : Frame α} {path : List (Frame α)} {tree : BinTree α} {label : α}
    (sorted : (plug (frame :: path) tree).Sorted key) (member : label ∈ tree.toList) :
    Toward frame.side (key label) (key frame.label) := by
  obtain ⟨side, here, bf, far⟩ := frame
  cases side with
  | left => exact (@sorted_near _ _ _ _ path tree far here bf sorted).1 label member
  | right => exact (@sorted_near _ _ _ _ path far tree here bf sorted).2 label member

/-- Putting a label at its place keeps the order. -/
theorem sorted_insert {path : List (Frame α)} {label : α} {labels : List α}
    (split : labels = before path ++ after path)
    (sorted : labels.Pairwise fun first second => key first < key second)
    (located : Located key (key label) path) :
    (before path ++ [label] ++ after path).Pairwise
      fun first second => key first < key second := by
  subst split
  rw [List.pairwise_append] at sorted
  rw [List.append_assoc, List.pairwise_append, List.singleton_append, List.pairwise_cons]
  refine ⟨sorted.1, ⟨located.2, sorted.2.1⟩, ?_⟩
  intro first inBefore second member
  rcases List.mem_cons.mp member with rfl | inAfter
  · exact located.1 first inBefore
  · exact sorted.2.2 first inBefore second inAfter

end Search

end Upst.Avl
