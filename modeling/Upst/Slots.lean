import Mathlib.Data.List.MinMax
import Mathlib.Data.List.Nodup
import Mathlib.Logic.Function.Basic

/-!
A table of records in slots, found by key. The slots in use are those of a search tree, of which only
the membership is kept: a deletion may empty the slot of another record, which moves into the place of
the deleted one. A slot that is given back keeps what is in it.
-/

namespace Upst.Slots

set_option autoImplicit false

variable {κ δ : Type}

section Table

/-- `free` are the free slots in the order in which they are given out; the last of them never is. -/
structure Table (δ : Type) where
  tuple : Nat → δ
  used : List Nat
  free : List Nat

variable (key : δ → κ) (table : Table δ)

section Search

variable [DecidableEq κ]

def Table.search (wanted : κ) : Option Nat := table.used.find? fun slot => key (table.tuple slot) = wanted

def Table.record (wanted : κ) : Option δ := (table.search key wanted).map table.tuple

/-- There is no room behind the last but one free slot. -/
def Table.insert (data : δ) : Option (Table δ) :=
  match table.search key (key data), table.free with
  | none, slot :: next :: rest =>
      some
        { tuple := Function.update table.tuple slot data
          used := slot :: table.used
          free := next :: rest }
  | _, _ => none

end Search

def Table.set (table : Table δ) (slot : Nat) (data : δ) : Table δ :=
  { table with tuple := Function.update table.tuple slot data }

/-- The slot goes behind the head of the free ones. -/
def Table.giveBack (table : Table δ) (slot : Nat) : Table δ :=
  match table.free with
  | [] => { table with free := [slot] }
  | head :: rest => { table with free := head :: slot :: rest }

/-- The slot whose record comes into the place of the deleted one. -/
def Table.moves (table : Table δ) (slot : Nat) (moved : Option Nat) : Option Nat :=
  moved.filter fun other => other ∈ table.used ∧ other ≠ slot

def Table.delete (table : Table δ) (slot : Nat) (moved : Option Nat) : Table δ :=
  match table.moves slot moved with
  | none => Table.giveBack { table with used := table.used.erase slot } slot
  | some other =>
      Table.giveBack
        { table with
          tuple := Function.update table.tuple slot (table.tuple other)
          used := table.used.erase other } other

/-- The slot of the first record behind a rank. -/
def Table.next (rank : κ → Nat) (first : Nat) : Option Nat :=
  (table.used.filter fun slot => first < rank (key (table.tuple slot))).argmin fun slot =>
    rank (key (table.tuple slot))

/-- No slot is in use twice or both in use and free, and no two in use hold one key. -/
structure Wf : Prop where
  nodup : (table.used ++ table.free).Nodup
  keys : ∀ slot ∈ table.used, ∀ other ∈ table.used,
    key (table.tuple slot) = key (table.tuple other) → slot = other
  room : table.free ≠ []

end Table

section Record

variable [DecidableEq κ] {key : δ → κ} {table : Table δ}

theorem search_some {wanted : κ} {slot : Nat} (found : table.search key wanted = some slot) :
    slot ∈ table.used ∧ key (table.tuple slot) = wanted := by
  have holds := List.find?_some found
  exact ⟨List.mem_of_find?_eq_some found, of_decide_eq_true holds⟩

theorem search_none {wanted : κ} (unknown : table.search key wanted = none) {slot : Nat}
    (used : slot ∈ table.used) : key (table.tuple slot) ≠ wanted := by
  have missing := List.find?_eq_none.mp unknown slot used
  exact fun same => missing (decide_eq_true same)

theorem search_used (wf : Wf key table) {slot : Nat} (used : slot ∈ table.used) :
    table.search key (key (table.tuple slot)) = some slot := by
  cases found : table.search key (key (table.tuple slot)) with
  | none => exact absurd rfl (search_none found used)
  | some other =>
      obtain ⟨member, same⟩ := search_some found
      exact congrArg some (wf.keys other member slot used same)

theorem record_eq_some (wf : Wf key table) {wanted : κ} {data : δ} :
    table.record key wanted = some data ↔
      ∃ slot ∈ table.used, table.tuple slot = data ∧ key data = wanted := by
  constructor
  · intro found
    obtain ⟨slot, searched, rfl⟩ := Option.map_eq_some_iff.mp found
    obtain ⟨member, same⟩ := search_some searched
    exact ⟨slot, member, rfl, same⟩
  · intro found
    obtain ⟨slot, member, rfl, rfl⟩ := found
    rw [Table.record, search_used wf member]
    rfl

theorem record_slot (wf : Wf key table) {slot : Nat} (used : slot ∈ table.used) :
    table.record key (key (table.tuple slot)) = some (table.tuple slot) :=
  (record_eq_some wf).mpr ⟨slot, used, rfl, rfl⟩

theorem record_search {wanted : κ} {slot : Nat} (found : table.search key wanted = some slot) :
    table.record key wanted = some (table.tuple slot) := by
  rw [Table.record, found]
  rfl

theorem record_none {wanted : κ} : table.record key wanted = none ↔ table.search key wanted = none :=
  Option.map_eq_none_iff

end Record

section Set

variable {table : Table δ} {slot : Nat} {data : δ}

theorem set_apart {other : Nat} (apart : other ≠ slot) : (table.set slot data).tuple other = table.tuple other := by
  rw [Table.set]
  exact Function.update_of_ne apart _ _

theorem set_own : (table.set slot data).tuple slot = data := by
  rw [Table.set]
  exact Function.update_self _ _ _

theorem set_used {other : Nat} (unused : slot ∉ table.used) (used : other ∈ table.used) :
    (table.set slot data).tuple other = table.tuple other := by
  apply set_apart
  intro here
  exact unused (here ▸ used)

variable {key : δ → κ}

theorem set_key (same : key data = key (table.tuple slot)) (other : Nat) :
    key ((table.set slot data).tuple other) = key (table.tuple other) := by
  by_cases own : other = slot
  · rw [own, set_own, same]
  · rw [set_apart own]

theorem set_wf (wf : Wf key table) (same : key data = key (table.tuple slot)) :
    Wf key (table.set slot data) where
  nodup := wf.nodup
  keys first inFirst second inSecond equal := by
    rw [set_key same, set_key same] at equal
    exact wf.keys first inFirst second inSecond equal
  room := wf.room

theorem set_wf_free (wf : Wf key table) (unused : slot ∉ table.used) : Wf key (table.set slot data) where
  nodup := wf.nodup
  keys first inFirst second inSecond equal := by
    rw [set_used unused inFirst, set_used unused inSecond] at equal
    exact wf.keys first inFirst second inSecond equal
  room := wf.room

variable [DecidableEq κ]

/-- A write to a slot in use changes its record alone. -/
theorem set_record (wf : Wf key table) (used : slot ∈ table.used) (same : key data = key (table.tuple slot))
    (name : κ) : (table.set slot data).record key name =
      if name = key data then some data else table.record key name := by
  apply Option.ext
  intro found
  rw [record_eq_some (set_wf wf same)]
  split
  · next own =>
      constructor
      · intro held
        obtain ⟨other, inside, rfl, named⟩ := held
        rw [set_key same] at named
        obtain rfl := wf.keys other inside slot used (named.trans (own.trans same))
        rw [set_own]
      · intro held
        cases held
        exact ⟨slot, used, set_own, own.symm⟩
  · next other =>
      rw [record_eq_some wf]
      have apart {place : Nat} (named : key (table.tuple place) = name) : place ≠ slot := by
        intro here
        apply other
        rw [← named, here, same]
      constructor
      · intro held
        obtain ⟨place, inside, rfl, named⟩ := held
        rw [set_key same] at named
        exact ⟨place, inside, (set_apart (apart named)).symm, by rw [set_apart (apart named), named]⟩
      · intro held
        obtain ⟨place, inside, rfl, named⟩ := held
        exact ⟨place, inside, set_apart (apart named), named⟩

/-- A write to a slot that is not in use changes no record. -/
theorem set_record_free (wf : Wf key table) (unused : slot ∉ table.used) (name : κ) :
    (table.set slot data).record key name = table.record key name := by
  apply Option.ext
  intro found
  rw [record_eq_some (set_wf_free wf unused), record_eq_some wf]
  constructor
  · intro held
    obtain ⟨place, inside, rfl, named⟩ := held
    rw [set_used unused inside] at named ⊢
    exact ⟨place, inside, rfl, named⟩
  · intro held
    obtain ⟨place, inside, rfl, named⟩ := held
    exact ⟨place, inside, set_used unused inside, named⟩

end Set

section Insert

variable {key : δ → κ} [DecidableEq κ] {table after : Table δ} {data : δ}

/-- What an insertion does to the slots. -/
structure Inserted (key : δ → κ) (table : Table δ) (data : δ) (slot : Nat) (after : Table δ) : Prop where
  unknown : table.search key (key data) = none
  outside : slot ∉ table.used
  used : after.used = slot :: table.used
  own : after.tuple slot = data
  kept : ∀ place ∈ table.used, after.tuple place = table.tuple place
  nodup : (after.used ++ after.free).Nodup
  room : after.free ≠ []

theorem insert_some (wf : Wf key table) (done : table.insert key data = some after) :
    ∃ slot, Inserted key table data slot after := by
  rw [Table.insert] at done
  split at done
  · next slot next rest unknown free =>
      obtain rfl := Option.some.inj done
      have order := wf.nodup
      rw [free, List.nodup_middle] at order
      have outside : slot ∉ table.used :=
        fun used => (List.nodup_cons.mp order).1 (List.mem_append_left _ used)
      refine ⟨slot, unknown, outside, rfl, Function.update_self _ _ _, ?_, order, List.cons_ne_nil next rest⟩
      intro place used
      exact Function.update_of_ne (ne_of_mem_of_not_mem used outside) _ _
  · exact nomatch done

/-- A key that is not known is inserted while there is room. -/
theorem insert_room (unknown : table.search key (key data) = none) :
    table.insert key data = none ↔ table.free.length < 2 := by
  rw [Table.insert, unknown]
  cases table.free with
  | nil => exact iff_of_true rfl (by decide)
  | cons slot rest =>
      cases rest with
      | nil => exact iff_of_true rfl Nat.one_lt_two
      | cons next rest =>
          refine iff_of_false nofun ?_
          rw [List.length_cons, List.length_cons]
          omega

theorem Inserted.wf {slot : Nat} (inserted : Inserted key table data slot after) (wf : Wf key table) :
    Wf key after := by
  refine ⟨inserted.nodup, ?_, inserted.room⟩
  intro first inFirst second inSecond same
  rw [inserted.used] at inFirst inSecond
  rcases List.mem_cons.mp inFirst with rfl | usedFirst
  · rcases List.mem_cons.mp inSecond with rfl | usedSecond
    · rfl
    · rw [inserted.own, inserted.kept second usedSecond] at same
      exact absurd same.symm (search_none inserted.unknown usedSecond)
  · rcases List.mem_cons.mp inSecond with rfl | usedSecond
    · rw [inserted.own, inserted.kept first usedFirst] at same
      exact absurd same (search_none inserted.unknown usedFirst)
    · rw [inserted.kept first usedFirst, inserted.kept second usedSecond] at same
      exact wf.keys first usedFirst second usedSecond same

theorem Inserted.record {slot : Nat} (inserted : Inserted key table data slot after) (wf : Wf key table)
    (name : κ) : after.record key name = if name = key data then some data else table.record key name := by
  have wf' := inserted.wf wf
  split
  · next named =>
      refine (record_eq_some wf').mpr ⟨slot, ?_, inserted.own, named.symm⟩
      rw [inserted.used]
      exact List.mem_cons_self
  · next other =>
      apply Option.ext
      intro found
      rw [record_eq_some wf', record_eq_some wf, inserted.used]
      constructor
      · intro held
        obtain ⟨place, member, rfl, named⟩ := held
        rcases List.mem_cons.mp member with rfl | used
        · rw [inserted.own] at named
          exact absurd named.symm other
        · rw [inserted.kept place used] at named ⊢
          exact ⟨place, used, rfl, named⟩
      · intro held
        obtain ⟨place, used, rfl, named⟩ := held
        exact ⟨place, List.mem_cons_of_mem _ used, inserted.kept place used, named⟩

end Insert

section Delete

variable {key : δ → κ} {table : Table δ} {slot : Nat}

theorem moves_some {moved : Option Nat} {other : Nat} (found : table.moves slot moved = some other) :
    other ∈ table.used ∧ other ≠ slot :=
  of_decide_eq_true (Option.filter_eq_some_iff.mp found).2

theorem give_back_used (slot : Nat) : (table.giveBack slot).used = table.used := by
  rw [Table.giveBack]
  split <;> rfl

theorem give_back_tuple (slot : Nat) : (table.giveBack slot).tuple = table.tuple := by
  rw [Table.giveBack]
  split <;> rfl

theorem give_back_free (slot : Nat) : (table.giveBack slot).free.Perm (slot :: table.free) := by
  rw [Table.giveBack]
  cases table.free with
  | nil => exact List.Perm.refl _
  | cons head rest => exact List.Perm.swap slot head rest

/-- The slot that a deletion empties. -/
def emptied (slot : Nat) (other : Option Nat) : Nat := other.getD slot

/-- The slot whose record is in a slot behind the deletion. -/
def origin (slot : Nat) (other : Option Nat) (place : Nat) : Nat :=
  if place = slot then other.getD place else place

theorem emptied_used (used : slot ∈ table.used) (moved : Option Nat) :
    emptied slot (table.moves slot moved) ∈ table.used := by
  cases found : table.moves slot moved with
  | none => exact used
  | some other => exact (moves_some found).1

theorem delete_used (slot : Nat) (moved : Option Nat) :
    (table.delete slot moved).used = table.used.erase (emptied slot (table.moves slot moved)) := by
  rw [Table.delete]
  cases table.moves slot moved with
  | none => exact give_back_used slot
  | some other => exact give_back_used other

/-- The record in each slot is that of its origin, also in a slot that is not in use any more. -/
theorem delete_tuple (slot : Nat) (moved : Option Nat) (place : Nat) :
    (table.delete slot moved).tuple place = table.tuple (origin slot (table.moves slot moved) place) := by
  rw [Table.delete, origin]
  cases found : table.moves slot moved with
  | none =>
      have same : (if place = slot then (none : Option Nat).getD place else place) = place := by
        split <;> rfl
      dsimp only
      rw [give_back_tuple, same]
  | some other =>
      dsimp only
      rw [give_back_tuple]
      dsimp only
      by_cases here : place = slot
      · rw [if_pos here, here, Function.update_self]
        rfl
      · rw [if_neg here, Function.update_of_ne here]

/-- The slot that is given back comes behind the head. -/
theorem delete_free_head {head : Nat} {rest : List Nat} (free : table.free = head :: rest) (moved : Option Nat) :
    (table.delete slot moved).free = head :: emptied slot (table.moves slot moved) :: rest := by
  rw [Table.delete]
  cases table.moves slot moved with
  | none => simp only [Table.giveBack, free, emptied, Option.getD_none]
  | some other => simp only [Table.giveBack, free, emptied, Option.getD_some]

theorem delete_free (slot : Nat) (moved : Option Nat) : (table.delete slot moved).free.Perm
    (emptied slot (table.moves slot moved) :: table.free) := by
  rw [Table.delete]
  cases table.moves slot moved with
  | none => exact give_back_free slot
  | some other => exact give_back_free other

/-- Another slot than the emptied one has its origin in the tree, apart from the deleted record. -/
theorem origin_used {moved : Option Nat} {place : Nat}
    (inside : place ∈ table.used) (stays : place ≠ emptied slot (table.moves slot moved)) :
    origin slot (table.moves slot moved) place ∈ table.used ∧
      origin slot (table.moves slot moved) place ≠ slot := by
  rw [origin]
  rw [emptied] at stays
  cases found : table.moves slot moved with
  | none =>
      rw [found] at stays
      have apart : place ≠ slot := stays
      rw [if_neg apart]
      exact ⟨inside, apart⟩
  | some other =>
      split
      · exact moves_some found
      · next apart => exact ⟨inside, apart⟩

theorem origin_inj {moved : Option Nat} {first second : Nat}
    (stays : first ≠ emptied slot (table.moves slot moved))
    (apart : second ≠ emptied slot (table.moves slot moved))
    (same : origin slot (table.moves slot moved) first = origin slot (table.moves slot moved) second) :
    first = second := by
  rw [origin, origin] at same
  rw [emptied] at stays apart
  cases found : table.moves slot moved with
  | none =>
      rw [found] at stays apart same
      have first_apart : first ≠ slot := stays
      have second_apart : second ≠ slot := apart
      rw [if_neg first_apart, if_neg second_apart] at same
      exact same
  | some other =>
      rw [found] at stays apart same
      dsimp only [Option.getD_some] at stays apart same
      split at same
      · next here =>
          split at same
          · next there => exact here.trans there.symm
          · exact absurd same.symm apart
      · split at same
        · exact absurd same stays
        · exact same

/-- Every slot in use but that of the deleted record is the origin of one. -/
theorem origin_onto {moved : Option Nat} {place : Nat} (inside : place ∈ table.used) (apart : place ≠ slot)
    (used : slot ∈ table.used) : ∃ here ∈ table.used, here ≠ emptied slot (table.moves slot moved) ∧
      origin slot (table.moves slot moved) here = place := by
  by_cases goes : place = emptied slot (table.moves slot moved)
  · cases found : table.moves slot moved with
    | none =>
        rw [found] at goes
        exact absurd goes apart
    | some other =>
        rw [found] at goes
        exact ⟨slot, used, (moves_some found).2.symm, (if_pos rfl).trans goes.symm⟩
  · refine ⟨place, inside, goes, ?_⟩
    rw [origin, if_neg apart]

theorem delete_wf (wf : Wf key table) (used : slot ∈ table.used) (moved : Option Nat) :
    Wf key (table.delete slot moved) := by
  have order := List.nodup_append.mp wf.nodup
  have goes := emptied_used used moved
  have free := @delete_free δ table slot moved
  have member {place : Nat} (inside : place ∈ (table.delete slot moved).used) :
      place ∈ table.used ∧ place ≠ emptied slot (table.moves slot moved) := by
    rw [delete_used] at inside
    exact ((List.Nodup.mem_erase_iff order.1).mp inside).symm
  refine ⟨?_, ?_, ?_⟩
  · have whole : ((table.delete slot moved).used ++ (table.delete slot moved).free).Perm
        (table.used ++ table.free) := by
      rw [delete_used]
      refine (List.Perm.append_left _ free).trans ?_
      refine List.perm_middle.trans ?_
      exact List.Perm.append_right table.free (List.perm_cons_erase goes).symm
    exact whole.nodup_iff.mpr wf.nodup
  · intro first inFirst second inSecond same
    obtain ⟨usedFirst, stays⟩ := member inFirst
    obtain ⟨usedSecond, apart⟩ := member inSecond
    rw [delete_tuple, delete_tuple] at same
    exact origin_inj stays apart (wf.keys _ (origin_used usedFirst stays).1 _
      (origin_used usedSecond apart).1 same)
  · intro none
    rw [none] at free
    exact List.cons_ne_nil _ _ (List.nil_perm.mp free)

/-- What is in the slot of a deleted record: another record of the table, or what is not in it any more. -/
theorem delete_slot (wf : Wf key table) (used : slot ∈ table.used) (moved : Option Nat) :
    (∃ other ∈ table.used, other ≠ slot ∧ slot ∈ (table.delete slot moved).used ∧
        (table.delete slot moved).tuple slot = table.tuple other) ∨
      (slot ∉ (table.delete slot moved).used ∧
        (table.delete slot moved).tuple slot = table.tuple slot) := by
  have order := (List.nodup_append.mp wf.nodup).1
  have here : origin slot (table.moves slot moved) slot = (table.moves slot moved).getD slot := if_pos rfl
  rw [delete_tuple, here, delete_used]
  cases found : table.moves slot moved with
  | none => exact Or.inr ⟨order.not_mem_erase, rfl⟩
  | some other =>
      obtain ⟨inside, apart⟩ := moves_some found
      refine Or.inl ⟨other, inside, apart, ?_, rfl⟩
      exact (List.Nodup.mem_erase_iff order).mpr ⟨apart.symm, used⟩

variable [DecidableEq κ]

/-- The record is gone, and every other is still there. -/
theorem delete_record (wf : Wf key table) (used : slot ∈ table.used) (moved : Option Nat) (name : κ) :
    (table.delete slot moved).record key name =
      if name = key (table.tuple slot) then none else table.record key name := by
  have order := (List.nodup_append.mp wf.nodup).1
  have member {place : Nat} : place ∈ (table.delete slot moved).used ↔
      place ∈ table.used ∧ place ≠ emptied slot (table.moves slot moved) := by
    rw [delete_used, List.Nodup.mem_erase_iff order, and_comm]
  apply Option.ext
  intro found
  rw [record_eq_some (delete_wf wf used moved)]
  split
  · next own =>
      refine iff_of_false (fun held => ?_) (fun held => nomatch held)
      obtain ⟨place, inside, same, named⟩ := held
      obtain ⟨usedPlace, stays⟩ := member.mp inside
      obtain ⟨there, apart⟩ := origin_used usedPlace stays
      rw [delete_tuple] at same
      apply apart
      apply wf.keys _ there _ used
      rw [same, named, own]
  · next other =>
      rw [record_eq_some wf]
      constructor
      · intro held
        obtain ⟨place, inside, same, named⟩ := held
        obtain ⟨usedPlace, stays⟩ := member.mp inside
        rw [delete_tuple] at same
        exact ⟨_, (origin_used usedPlace stays).1, same, named⟩
      · intro held
        obtain ⟨place, inside, same, named⟩ := held
        have apart : place ≠ slot := by
          intro here
          apply other
          rw [← named, ← same, here]
        obtain ⟨here, usedHere, stays, back⟩ := @origin_onto δ table slot moved place inside apart used
        refine ⟨here, member.mpr ⟨usedHere, stays⟩, ?_, named⟩
        rw [delete_tuple, back, same]

end Delete

section Next

variable {key : δ → κ} {table : Table δ} {rank : κ → Nat} {first : Nat}

theorem next_some {slot : Nat} (found : table.next key rank first = some slot) :
    slot ∈ table.used ∧ first < rank (key (table.tuple slot)) ∧ ∀ other ∈ table.used,
      first < rank (key (table.tuple other)) → rank (key (table.tuple slot)) ≤ rank (key (table.tuple other)) := by
  have member := List.mem_filter.mp (List.argmin_mem found)
  refine ⟨member.1, of_decide_eq_true member.2, fun other used behind => ?_⟩
  exact List.le_of_mem_argmin (f := fun slot => rank (key (table.tuple slot)))
    (List.mem_filter.mpr ⟨used, decide_eq_true behind⟩) found

theorem next_none (none : table.next key rank first = none) {slot : Nat} (used : slot ∈ table.used) :
    rank (key (table.tuple slot)) ≤ first := by
  have empty := List.argmin_eq_none.mp none
  apply Nat.le_of_not_lt
  intro behind
  exact List.filter_eq_nil_iff.mp empty slot used (decide_eq_true behind)

end Next

end Upst.Slots
