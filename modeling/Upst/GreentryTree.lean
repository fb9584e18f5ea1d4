import Upst.Greentry
import Mathlib.Data.List.Perm.Basic
import Mathlib.Data.List.Nodup

/-!
The table as a tree: which records of the array hold which tree, and what a write to
one record leaves alone. Keys are ordered by the number that their bytes spell, the
order `memcmp` tests.
-/

namespace Upst.Greentry

open Avl Avl.BinTree Bytes

set_option autoImplicit false

section Order

/-- Bytes as the digits of a number, the first byte the highest. -/
def digits : List UInt8 → Nat
  | [] => 0
  | byte :: rest => byte.toNat * 256 ^ rest.length + digits rest

def rank (key : GreentryKey) : Nat :=
  digits (keyBytes key)

theorem digits_lt (bytes : List UInt8) : digits bytes < 256 ^ bytes.length := by
  induction bytes with
  | nil => exact Nat.one_pos
  | cons byte rest ih =>
      have byteLt : byte.toNat < 256 := byte.toNat_lt
      calc digits (byte :: rest) < byte.toNat * 256 ^ rest.length + 256 ^ rest.length :=
            Nat.add_lt_add_left ih _
        _ = (byte.toNat + 1) * 256 ^ rest.length := by ring
        _ ≤ 256 * 256 ^ rest.length := Nat.mul_le_mul_right _ byteLt
        _ = 256 ^ (byte :: rest).length := by rw [List.length_cons, pow_succ, Nat.mul_comm]

/-- A smaller first digit decides. -/
theorem digits_lt_of_head {x y : UInt8} {xs ys : List UInt8} (same : xs.length = ys.length)
    (less : x.toNat < y.toNat) : digits (x :: xs) < digits (y :: ys) := by
  have low := digits_lt xs
  rw [same] at low
  calc digits (x :: xs) < x.toNat * 256 ^ ys.length + 256 ^ ys.length := by
        rw [digits, same]
        exact Nat.add_lt_add_left low _
    _ = (x.toNat + 1) * 256 ^ ys.length := by ring
    _ ≤ y.toNat * 256 ^ ys.length := Nat.mul_le_mul_right _ less
    _ ≤ digits (y :: ys) := Nat.le_add_right _ _

theorem memcmp_digits {xs ys : List UInt8} (same : xs.length = ys.length) :
    (memcmp xs ys < 0 ↔ digits xs < digits ys) ∧ (memcmp xs ys = 0 ↔ xs = ys) ∧
      (0 < memcmp xs ys ↔ digits ys < digits xs) := by
  induction xs generalizing ys with
  | nil =>
      cases ys with
      | nil => simp [memcmp, digits]
      | cons y ys => cases same
  | cons x xs ih =>
      cases ys with
      | nil => cases same
      | cons y ys =>
          have tails : xs.length = ys.length := Nat.succ.inj same
          obtain ⟨lower, equal, higher⟩ := ih tails
          by_cases heads : x = y
          · subst heads
            simp only [memcmp, if_true, digits, tails, Nat.add_lt_add_iff_left, List.cons.injEq,
              true_and]
            exact ⟨lower, equal, higher⟩
          · have differ : x.toNat ≠ y.toNat := fun eq => heads (UInt8.toNat_inj.mp eq)
            have first : memcmp (x :: xs) (y :: ys) = (x.toNat : Int) - y.toNat := if_neg heads
            have unequal : x :: xs ≠ y :: ys := fun eq => heads (List.cons.inj eq).1
            rw [first]
            rcases Nat.lt_or_gt_of_ne differ with less | more
            · have smaller := digits_lt_of_head tails less
              exact ⟨⟨fun _ => smaller, fun _ => by omega⟩, ⟨by omega, (absurd · unequal)⟩,
                ⟨by omega, by omega⟩⟩
            · have greater := digits_lt_of_head tails.symm more
              exact ⟨⟨by omega, by omega⟩, ⟨by omega, (absurd · unequal)⟩,
                ⟨fun _ => greater, fun _ => by omega⟩⟩

theorem keyBytes_injective {first second : GreentryKey} (same : keyBytes first = keyBytes second) :
    first = second := by
  have split := List.append_inj same (by rw [le32_length, le32_length])
  have word (x : UInt32) : fromLe (le32 x.toNat) = x.toNat :=
    from_le_le32 x.toNat x.toNat_lt
  have one := congrArg fromLe split.1
  have two := congrArg fromLe split.2
  rw [word, word, UInt32.toNat_inj] at one two
  cases first
  cases second
  exact congrArg₂ GreentryKey.mk one two

theorem memcmpKey_rank (first second : GreentryKey) :
    (memcmpKey first second < 0 ↔ rank first < rank second) ∧
      (memcmpKey first second = 0 ↔ first = second) ∧
      (0 < memcmpKey first second ↔ rank second < rank first) := by
  have lengths (key : GreentryKey) : (keyBytes key).length = 8 := by
    rw [keyBytes, List.length_append, le32_length, le32_length]
  obtain ⟨lower, equal, higher⟩ := memcmp_digits ((lengths first).trans (lengths second).symm)
  refine ⟨lower, equal.trans ⟨keyBytes_injective, ?_⟩, higher⟩
  rintro rfl
  rfl

end Order

section Records

/-- A record of the tree: its place in the array and what it stores. -/
structure Rec where
  index : Nat
  key : GreentryKey
  body : Int64
  deriving DecidableEq, Repr

def Rec.rank (label : Rec) : Nat :=
  Greentry.rank label.key

def Rec.entry (label : Rec) : GreentryKey × Int64 :=
  (label.key, label.body)

abbrev Path := List (Frame Rec)

def link : BinTree Rec → Option Nat
  | .nil => none
  | .node _ label _ _ => some label.index

/-- The array record of a node whose child on `side` is `near`. -/
def stored (side : Side) (label : Rec) (bf : Int) (near far : Option Nat) : GreentryType :=
  match side with
  | .left => { key := label.key, body := label.body, left := near, right := far, bf := bf }
  | .right => { key := label.key, body := label.body, left := far, right := near, bf := bf }

def Holds (tuple : Tuples) : BinTree Rec → Prop
  | .nil => True
  | .node left label bf right =>
      label.index < JMM_GREENTRY_RECORD ∧
        tuple label.index = stored .left label bf (link left) (link right) ∧
        Holds tuple left ∧ Holds tuple right

/-- The records along a path and beside it, when the place at its end is linked as `hole`. -/
def HoldsPath (tuple : Tuples) : Path → Option Nat → Prop
  | [], _ => True
  | frame :: rest, hole =>
      frame.label.index < JMM_GREENTRY_RECORD ∧
        tuple frame.label.index =
          stored frame.side frame.label frame.bf hole (link frame.far) ∧
        Holds tuple frame.far ∧ HoldsPath tuple rest (some frame.label.index)

/-- Keys and bodies in the order of the tree. -/
def entries (tree : BinTree Rec) : List (GreentryKey × Int64) :=
  tree.toList.map Rec.entry

def indices (tree : BinTree Rec) : List Nat :=
  tree.toList.map Rec.index

theorem entries_plug (path : Path) (tree : BinTree Rec) :
    entries (plug path tree) =
      (before path).map Rec.entry ++ entries tree ++ (after path).map Rec.entry := by
  rw [entries, toList_plug, List.map_append, List.map_append]
  rfl

theorem indices_congr {old new : BinTree Rec} (same : new.toList = old.toList) :
    indices new = indices old :=
  congrArg (List.map Rec.index) same

def pathIndices (path : Path) : List Nat :=
  path.flatMap fun frame => frame.label.index :: indices frame.far

def topLink : Path → Option Nat → Option Nat
  | [], hole => hole
  | frame :: rest, _ => topLink rest (some frame.label.index)

/-- The parent of the place at the end of a path. -/
def headIndex (path : Path) : Option Nat :=
  path.head?.map fun frame => frame.label.index

theorem headIndex_nil : headIndex [] = none := rfl

@[simp] theorem link_join (side : Side) (near far : BinTree Rec) (label : Rec) (bf : Int) :
    link (join side near label bf far) = some label.index := by
  cases side <;> rfl

theorem link_node (left right : BinTree Rec) (label : Rec) (bf : Int) :
    link (.node left label bf right) = some label.index := rfl

theorem link_ne_self {near : BinTree Rec} {index : Nat} (apart : index ∉ indices near) :
    ¬some index = link near := by
  intro same
  cases near with
  | nil => cases same
  | node left label bf right =>
      have top : index = label.index := Option.some.inj same
      apply apart
      simp [indices, toList, top]

theorem link_eq_none {tree : BinTree Rec} : link tree = none ↔ tree = .nil := by
  cases tree <;> simp [link]

@[simp] theorem stored_child (side : Side) (label : Rec) (bf : Int) (near far : Option Nat) :
    (stored side label bf near far).child side = near := by
  cases side <;> rfl

@[simp] theorem stored_child_other (side : Side) (label : Rec) (bf : Int)
    (near far : Option Nat) : (stored side label bf near far).child side.other = far := by
  cases side <;> rfl

@[simp] theorem stored_key (side : Side) (label : Rec) (bf : Int) (near far : Option Nat) :
    (stored side label bf near far).key = label.key := by
  cases side <;> rfl

@[simp] theorem stored_bf (side : Side) (label : Rec) (bf : Int) (near far : Option Nat) :
    (stored side label bf near far).bf = bf := by
  cases side <;> rfl

@[simp] theorem stored_withChild (side : Side) (label : Rec) (bf : Int)
    (near far hole : Option Nat) :
    (stored side label bf near far).withChild side hole = stored side label bf hole far := by
  cases side <;> rfl

@[simp] theorem stored_withChild_other (side : Side) (label : Rec) (bf : Int)
    (near far hole : Option Nat) :
    (stored side label bf near far).withChild side.other hole =
      stored side label bf near hole := by
  cases side <;> rfl

@[simp] theorem stored_body (side : Side) (label : Rec) (bf : Int) (near far : Option Nat) :
    (stored side label bf near far).body = label.body := by
  cases side <;> rfl

theorem stored_withData (side : Side) (label : Rec) (bf : Int) (near far : Option Nat)
    (key : GreentryKey) (body : Int64) :
    { stored side label bf near far with key := key, body := body } =
      stored side { label with key := key, body := body } bf near far := by
  cases side <;> rfl

theorem stored_withBf (side : Side) (label : Rec) (bf value : Int) (near far : Option Nat) :
    { stored side label bf near far with bf := value } = stored side label value near far := by
  cases side <;> rfl

theorem stored_other (side : Side) (label : Rec) (bf : Int) (near far : Option Nat) :
    stored side.other label bf near far = stored side label bf far near := by
  cases side <;> rfl

theorem holds_join (tuple : Tuples) (side : Side) (near far : BinTree Rec) (label : Rec)
    (bf : Int) :
    Holds tuple (join side near label bf far) ↔
      label.index < JMM_GREENTRY_RECORD ∧
        tuple label.index = stored side label bf (link near) (link far) ∧
        Holds tuple near ∧ Holds tuple far := by
  cases side
  · rfl
  · rw [join, Holds, and_comm (a := Holds tuple far)]
    rfl

theorem record_of_label {tuple : Tuples} {tree : BinTree Rec} (holds : Holds tuple tree) {label : Rec}
    (member : label ∈ tree.toList) :
    label.index < JMM_GREENTRY_RECORD ∧ (tuple label.index).key = label.key ∧
      (tuple label.index).body = label.body := by
  induction tree with
  | nil => cases member
  | node left here bf right ihLeft ihRight =>
      obtain ⟨inside, record, leftHolds, rightHolds⟩ := holds
      simp only [toList, List.mem_append, List.mem_cons] at member
      rcases member with inLeft | rfl | inRight
      · exact ihLeft leftHolds inLeft
      · rw [record]
        exact ⟨inside, rfl, rfl⟩
      · exact ihRight rightHolds inRight

theorem indices_join (side : Side) (near far : BinTree Rec) (label : Rec) (bf : Int) :
    (indices (join side near label bf far)).Perm
      (label.index :: (indices near ++ indices far)) := by
  cases side
  · simp only [indices, join, toList, List.map_append, List.map_cons]
    exact List.perm_middle
  · simp only [indices, join, toList, List.map_append, List.map_cons]
    exact List.perm_middle.trans (List.perm_append_comm.cons _)

theorem link_plug (path : Path) (tree : BinTree Rec) :
    link (plug path tree) = topLink path (link tree) := by
  induction path generalizing tree with
  | nil => rfl
  | cons frame rest ih => rw [plug, ih, Frame.fill, link_join, topLink]

theorem holds_plug (tuple : Tuples) (path : Path) (tree : BinTree Rec) :
    Holds tuple (plug path tree) ↔ Holds tuple tree ∧ HoldsPath tuple path (link tree) := by
  induction path generalizing tree with
  | nil => simp [plug, HoldsPath]
  | cons frame rest ih =>
      rw [plug, ih, Frame.fill, holds_join, link_join, HoldsPath]
      tauto

theorem indices_plug (path : Path) (tree : BinTree Rec) :
    (indices (plug path tree)).Perm (indices tree ++ pathIndices path) := by
  induction path generalizing tree with
  | nil => simp [plug, pathIndices]
  | cons frame rest ih =>
      have inside := (indices_join frame.side tree frame.far frame.label frame.bf).append_right
        (pathIndices rest)
      refine (ih (frame.fill tree)).trans (inside.trans ?_)
      simp only [pathIndices, List.flatMap_cons, List.cons_append, List.append_assoc]
      exact List.perm_middle.symm

/-- Records outside a tree may change. -/
theorem holds_congr {tuple changed : Tuples} {tree : BinTree Rec}
    (same : ∀ index ∈ indices tree, changed index = tuple index) (holds : Holds tuple tree) :
    Holds changed tree := by
  induction tree with
  | nil => trivial
  | node left label bf right ihLeft ihRight =>
      obtain ⟨inside, record, leftHolds, rightHolds⟩ := holds
      simp only [indices, toList, List.map_append, List.map_cons, List.mem_append,
        List.mem_cons] at same
      refine ⟨inside, (same _ (by simp)).trans record, ?_, ?_⟩
      · exact ihLeft (fun index member => same index (Or.inl member)) leftHolds
      · exact ihRight (fun index member => same index (Or.inr (Or.inr member))) rightHolds

theorem holdsPath_congr {tuple changed : Tuples} {path : Path} {hole : Option Nat}
    (same : ∀ index ∈ pathIndices path, changed index = tuple index)
    (holds : HoldsPath tuple path hole) : HoldsPath changed path hole := by
  induction path generalizing hole with
  | nil => trivial
  | cons frame rest ih =>
      obtain ⟨inside, record, farHolds, restHolds⟩ := holds
      simp only [pathIndices, List.flatMap_cons, List.cons_append, List.mem_cons,
        List.mem_append] at same
      refine ⟨inside, (same _ (Or.inl rfl)).trans record, ?_, ?_⟩
      · exact holds_congr (fun index member => same index (Or.inr (Or.inl member))) farHolds
      · exact ih (fun index member => same index (Or.inr (Or.inr member))) restHolds

theorem getGreentry_some {index : Nat} (inside : index < JMM_GREENTRY_RECORD) :
    getGreentry (some index) = some index := by
  rw [getGreentry, Option.filter_some, if_pos (decide_eq_true inside)]

theorem getGreentry_link {tuple : Tuples} {tree : BinTree Rec} (holds : Holds tuple tree) :
    getGreentry (link tree) = link tree := by
  cases tree with
  | nil => rfl
  | node left label bf right => exact getGreentry_some holds.1

end Records

section Sides

theorem searchSide_toward {key nodeKey : GreentryKey} (differ : memcmpKey key nodeKey ≠ 0) :
    Toward (searchSide key nodeKey) (rank key) (rank nodeKey) := by
  obtain ⟨lower, -, higher⟩ := memcmpKey_rank key nodeKey
  rw [searchSide]
  split_ifs with less
  · exact lower.mp less
  · exact higher.mp (by omega)

theorem searchSide_eq {key nodeKey : GreentryKey} {side : Side}
    (toward : Toward side (rank key) (rank nodeKey)) : searchSide key nodeKey = side := by
  obtain ⟨lower, -, higher⟩ := memcmpKey_rank key nodeKey
  cases side with
  | left => exact if_pos (lower.mpr toward)
  | right =>
      have more := higher.mpr toward
      exact if_neg (by omega)

theorem walkSide_eq {key nodeKey : GreentryKey} {side : Side}
    (toward : Toward side (rank key) (rank nodeKey)) : walkSide key nodeKey = side := by
  obtain ⟨lower, -, higher⟩ := memcmpKey_rank key nodeKey
  cases side with
  | left =>
      have less := lower.mpr toward
      exact if_neg (by omega)
  | right => exact if_pos (higher.mpr toward)

/-- Nothing in the tree has a key whose place is empty. -/
theorem located_absent {key : GreentryKey} {path : Path}
    (located : Located Rec.rank (rank key) path) :
    ∀ label ∈ (plug path .nil).toList, label.key ≠ key := by
  intro label member
  rw [toList_plug, toList, List.append_nil] at member
  rintro rfl
  rcases List.mem_append.mp member with lower | upper
  · exact absurd (located.1 label lower) (Nat.lt_irrefl _)
  · exact absurd (located.2 label upper) (Nat.lt_irrefl _)

theorem located_root (key : GreentryKey) : Located Rec.rank (rank key) ([] : Path) :=
  ⟨by simp [before], by simp [after]⟩

end Sides

section Invariant

/-- The free list from `free` on. -/
def FreeChain (tuple : Tuples) : Nat → List Nat → Prop
  | free, [] => (tuple free).right = none
  | free, next :: rest => (tuple free).right = some next ∧ FreeChain tuple next rest

/-- The table holds `tree`, a search tree by `memcmp`, and the other records of the array
are the free list, `free` and then `rest`. -/
structure Stores (tbl : GreentryTable) (tree : BinTree Rec) (rest : List Nat) : Prop where
  root : tbl.root = link tree
  holds : Holds tbl.tuple tree
  chain : FreeChain tbl.tuple tbl.free rest
  parts : (indices tree ++ tbl.free :: rest).Perm (List.range JMM_GREENTRY_RECORD)
  ordered : tree.toList.Pairwise fun first second => memcmpKey first.key second.key < 0

/-- The state between two calls: the tree is balanced as well. -/
structure Represents (tbl : GreentryTable) (tree : BinTree Rec) (rest : List Nat) : Prop
    extends Stores tbl tree rest where
  balanced : tree.HeightBalanced

theorem sorted_iff_ordered (labels : List Rec) :
    (labels.Pairwise fun first second => first.rank < second.rank) ↔
      labels.Pairwise fun first second => memcmpKey first.key second.key < 0 := by
  apply List.Pairwise.iff
  intro first second
  exact (memcmpKey_rank first.key second.key).1.symm

theorem ordered_entries (tree : BinTree Rec) :
    (tree.toList.Pairwise fun first second => memcmpKey first.key second.key < 0) ↔
      (entries tree).Pairwise fun first second => memcmpKey first.1 second.1 < 0 := by
  rw [entries, List.pairwise_map]
  rfl

theorem freeChain_congr {tuple changed : Tuples} {free : Nat} {rest : List Nat}
    (same : ∀ index ∈ free :: rest, changed index = tuple index)
    (chain : FreeChain tuple free rest) : FreeChain changed free rest := by
  induction rest generalizing free with
  | nil =>
      rw [FreeChain, same free List.mem_cons_self]
      exact chain
  | cons next rest ih =>
      refine ⟨?_, ih (fun index member => same index (List.mem_cons_of_mem _ member)) chain.2⟩
      rw [same free List.mem_cons_self]
      exact chain.1

namespace Stores

variable {tbl : GreentryTable} {tree : BinTree Rec} {rest : List Nat}

theorem nodup (inv : Stores tbl tree rest) :
    (indices tree ++ tbl.free :: rest).Nodup :=
  inv.parts.nodup_iff.mpr List.nodup_range

/-- The records of the tree, those of the free list, and no record in both. -/
theorem apart (inv : Stores tbl tree rest) :
    (indices tree).Nodup ∧ (tbl.free :: rest).Nodup ∧
      ∀ index ∈ tbl.free :: rest, index ∉ indices tree := by
  obtain ⟨treeNodup, freeNodup, cross⟩ := List.nodup_append.mp inv.nodup
  exact ⟨treeNodup, freeNodup, fun index inFree inTree => cross index inTree index inFree rfl⟩

theorem inside (inv : Stores tbl tree rest) {index : Nat}
    (member : index ∈ indices tree ++ tbl.free :: rest) : index < JMM_GREENTRY_RECORD :=
  List.mem_range.mp (inv.parts.mem_iff.mp member)

theorem count (inv : Stores tbl tree rest) :
    tree.size + 1 + rest.length = JMM_GREENTRY_RECORD := by
  have lengths := inv.parts.length_eq
  rw [List.length_append, List.length_cons, List.length_range, indices, List.length_map,
    toList_length] at lengths
  omega

theorem sorted (inv : Stores tbl tree rest) : tree.Sorted Rec.rank :=
  (sorted_iff_ordered tree.toList).mpr inv.ordered

end Stores

theorem Represents.height_bound {tbl : GreentryTable} {tree : BinTree Rec} {rest : List Nat}
    (inv : Represents tbl tree rest) : tree.height < 32 := by
  by_contra high
  have full := balanced_size inv.balanced
  have count := inv.count
  have steps : 2 ^ 16 ≤ 2 ^ ((tree.height + 1) / 2) :=
    Nat.pow_le_pow_right (by decide) (by omega)
  rw [JMM_GREENTRY_RECORD] at count
  omega

end Invariant

section Writes

variable (tuple : Tuples) {index place : Nat}

@[simp] theorem setChild_same (side : Side) (hole : Option Nat) :
    setChild tuple index side hole index = (tuple index).withChild side hole := by
  rw [setChild, Function.update_self]

theorem setChild_apart (side : Side) (hole : Option Nat) (apart : place ≠ index) :
    setChild tuple index side hole place = tuple place := by
  rw [setChild, Function.update_of_ne apart]

@[simp] theorem setBf_same (bf : Int) :
    setBf tuple index bf index = { tuple index with bf := bf } := by
  rw [setBf, Function.update_self]

theorem setBf_apart (bf : Int) (apart : place ≠ index) :
    setBf tuple index bf place = tuple place := by
  rw [setBf, Function.update_of_ne apart]

@[simp] theorem setData_same (source : Nat) :
    setData tuple index source index =
      { tuple index with key := (tuple source).key, body := (tuple source).body } := by
  rw [setData, Function.update_self]

theorem setData_apart (source : Nat) (apart : place ≠ index) :
    setData tuple index source place = tuple place := by
  rw [setData, Function.update_of_ne apart]

/-- What the callers have in a record. -/
def content (tuple : Tuples) (index : Nat) : GreentryKey × Int64 := ((tuple index).key, (tuple index).body)

@[simp] theorem content_setChild (side : Side) (hole : Option Nat) :
    content (setChild tuple index side hole) = content tuple := by
  funext place
  by_cases same : place = index
  · rw [content, same, setChild_same]
    cases side <;> rfl
  · rw [content, setChild_apart tuple side hole same]
    rfl

@[simp] theorem content_setBf (bf : Int) : content (setBf tuple index bf) = content tuple := by
  funext place
  by_cases same : place = index
  · rw [content, same, setBf_same]
    rfl
  · rw [content, setBf_apart tuple bf same]
    rfl

@[simp] theorem content_setData (source : Nat) :
    content (setData tuple index source) = Function.update (content tuple) index (content tuple source) := by
  funext place
  by_cases same : place = index
  · rw [content, same, setData_same, Function.update_self]
    rfl
  · rw [content, setData_apart tuple source same, Function.update_of_ne same]
    rfl

@[simp] theorem content_dealloc (tbl : GreentryTable) (index : Nat) :
    content (greentryDealloc tbl index).tuple = content tbl.tuple := by
  rw [greentryDealloc]
  simp only [content_setChild]

end Writes

section Paths

variable {tuple : Tuples} {frame : Frame Rec} {rest : Path}

theorem pathIndices_cons (frame : Frame Rec) (rest : Path) :
    pathIndices (frame :: rest) =
      frame.label.index :: (indices frame.far ++ pathIndices rest) := by
  rw [pathIndices, List.flatMap_cons, List.cons_append]
  rfl

theorem setChild_off_path (tuple : Tuples) (side : Side) (link : Option Nat)
    (nodup : (pathIndices (frame :: rest)).Nodup) :
    ∀ index ∈ indices frame.far ++ pathIndices rest,
      setChild tuple frame.label.index side link index = tuple index := by
  rw [pathIndices_cons, List.nodup_cons] at nodup
  intro index member
  exact setChild_apart tuple side link (ne_of_mem_of_not_mem member nodup.1)

/-- The place at the end of a path gets another link. -/
theorem holdsPath_setChild {hole : Option Nat} (link : Option Nat)
    (holds : HoldsPath tuple (frame :: rest) hole)
    (nodup : (pathIndices (frame :: rest)).Nodup) :
    HoldsPath (setChild tuple frame.label.index frame.side link) (frame :: rest) link := by
  obtain ⟨inside, record, farHolds, restHolds⟩ := holds
  have same := setChild_off_path tuple frame.side link nodup
  refine ⟨inside, ?_, ?_, ?_⟩
  · rw [setChild_same, record, stored_withChild]
  · exact holds_congr (fun index member => same index (List.mem_append_left _ member)) farHolds
  · exact holdsPath_congr (fun index member => same index (List.mem_append_right _ member))
      restHolds

/-- The parent's link back to the place is its only link there. -/
theorem far_link_ne {hole : Nat} (outside : hole ∉ pathIndices (frame :: rest)) :
    link frame.far ≠ some hole := by
  intro same
  cases eq : frame.far with
  | nil =>
      rw [eq] at same
      cases same
  | node left label bf right =>
      rw [eq] at same
      apply outside
      rw [pathIndices_cons, eq]
      have top : label.index = hole := Option.some.inj same
      simp [indices, toList, top]

end Paths

end Upst.Greentry
