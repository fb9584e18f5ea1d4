import Upst.Asso
import Upst.Slots

/-!
The association table as a map from keys to records. A slot stands for the record that is in it; when
the record of a slot is deleted, another may have moved there, or the slot is free. It is a table of
slots in which a slot that is given back loses its key.
-/

namespace Upst.Asso

set_option autoImplicit false

/-- No slot is in the tree twice, no two slots in it hold one key, and the free slots are apart. -/
structure TableWf (table : AssoTable) : Prop where
  nodup : table.used.Nodup
  keys : ∀ slot ∈ table.used, ∀ other ∈ table.used,
    (table.tuple slot).stKey = (table.tuple other).stKey → slot = other
  free : (table.free :: table.rest).Nodup
  apart : ∀ slot ∈ table.used, slot ∉ table.free :: table.rest

def AssoTable.record (table : AssoTable) (key : AssoKey) : Option AssoData :=
  (table.avlSearch key).map table.tuple

/-- A key that `dFreeMMDB` takes for one. -/
def AssoKey.Named (key : AssoKey) : Prop := key ≠ .zero ∧ key ≠ .last

instance (key : AssoKey) : Decidable key.Named := inferInstanceAs (Decidable (_ ∧ _))

/-- The slot holds the record of the key, or it is free. -/
def AssoTable.Holds (table : AssoTable) (slot : Nat) : Option AssoKey → Prop
  | some key => slot ∈ table.used ∧ (table.tuple slot).stKey = key
  | none => slot ∉ table.used ∧ (table.tuple slot).stKey = .zero

/-- The free slots together. -/
def AssoTable.slots (table : AssoTable) : Slots.Table AssoData where
  tuple := table.tuple
  used := table.used
  free := table.free :: table.rest

section Wf

variable {table : AssoTable}

theorem slots_wf : Slots.Wf AssoData.stKey table.slots ↔ TableWf table := by
  constructor
  · intro wf
    obtain ⟨nodup, free, apart⟩ := List.nodup_append.mp wf.nodup
    exact ⟨nodup, wf.keys, free, fun slot used member => apart slot used slot member rfl⟩
  · intro wf
    refine ⟨List.nodup_append.mpr ⟨wf.nodup, wf.free, ?_⟩, wf.keys, List.cons_ne_nil _ _⟩
    rintro slot used other member rfl
    exact wf.apart slot used member

theorem init_table_wf (tuple : Nat → AssoData) : TableWf (initSessDB tuple) where
  nodup := List.nodup_nil
  keys _ member := nomatch member
  free := by
    have whole : initSessDB tuple = ⟨tuple, [], 0, List.range' 1 (MAX_ASSO_RECORD - 1)⟩ := rfl
    rw [whole]
    refine List.nodup_cons.mpr ⟨fun member => ?_, List.nodup_range' 1⟩
    exact absurd (List.mem_range'_1.mp member).1 (Nat.not_succ_le_zero 0)
  apart _ member := nomatch member

theorem search_used (wf : TableWf table) {slot : Nat} (used : slot ∈ table.used) :
    table.avlSearch (table.tuple slot).stKey = some slot :=
  Slots.search_used (slots_wf.mpr wf) used

theorem record_slot (wf : TableWf table) {slot : Nat} {key : AssoKey} (holds : table.Holds slot (some key)) :
    table.record key = some (table.tuple slot) := by
  rw [← holds.2]
  exact Slots.record_slot (slots_wf.mpr wf) holds.1

theorem set_data_wf (wf : TableWf table) {slot : Nat} {data : AssoData}
    (same : data.stKey = (table.tuple slot).stKey) : TableWf (table.setData slot data) :=
  slots_wf.mp (Slots.set_wf (slots_wf.mpr wf) same)

theorem set_data_holds {slot : Nat} {data : AssoData} {held : Option AssoKey}
    (holds : table.Holds slot held) (same : data.stKey = (table.tuple slot).stKey) :
    (table.setData slot data).Holds slot held := by
  have key := (set_data_same_keys table slot same).keys slot
  cases held with
  | none => exact ⟨holds.1, key.trans holds.2⟩
  | some name => exact ⟨holds.1, key.trans holds.2⟩

/-- A write through the pointer changes the record that is in the slot, if any. -/
theorem set_data_record (wf : TableWf table) {slot : Nat} {data : AssoData} {held : Option AssoKey}
    (holds : table.Holds slot held) (same : data.stKey = (table.tuple slot).stKey) (key : AssoKey) :
    (table.setData slot data).record key = if held = some key then some data else table.record key := by
  cases held with
  | none =>
      rw [if_neg nofun]
      exact Slots.set_record_free (slots_wf.mpr wf) holds.1 key
  | some name =>
      have written := Slots.set_record (slots_wf.mpr wf) holds.1 same key
      rw [same, holds.2] at written
      simp only [Option.some.injEq, eq_comm (a := name)]
      exact written

end Wf

section Insert

variable {table : AssoTable} {data : AssoData} {next : Nat} {rest : List Nat}

/-- The table with the record in the slot that heads the free ones. -/
def AssoTable.inserted (table : AssoTable) (data : AssoData) (next : Nat) (rest : List Nat) : AssoTable where
  tuple := Function.update table.tuple table.free data
  used := table.free :: table.used
  free := next
  rest := rest

theorem inserted_head : (table.inserted data next rest).tuple table.free = data := by
  rw [AssoTable.inserted]
  exact Function.update_self _ _ _

theorem inserted_slots (free : table.rest = next :: rest) (unknown : table.avlSearch data.stKey = none) :
    table.slots.insert AssoData.stKey data = some (table.inserted data next rest).slots := by
  have missing : table.slots.search AssoData.stKey data.stKey = none := unknown
  rw [Slots.Table.insert, missing, AssoTable.slots, free]
  rfl

theorem inserted_wf (wf : TableWf table) (free : table.rest = next :: rest)
    (unknown : table.avlSearch data.stKey = none) : TableWf (table.inserted data next rest) := by
  obtain ⟨slot, into⟩ := Slots.insert_some (slots_wf.mpr wf) (inserted_slots free unknown)
  exact slots_wf.mp (into.wf (slots_wf.mpr wf))

theorem inserted_record (wf : TableWf table) (free : table.rest = next :: rest)
    (unknown : table.avlSearch data.stKey = none) (name : AssoKey) :
    (table.inserted data next rest).record name =
      if name = data.stKey then some data else table.record name := by
  obtain ⟨slot, into⟩ := Slots.insert_some (slots_wf.mpr wf) (inserted_slots free unknown)
  exact into.record (slots_wf.mpr wf) name

end Insert

section Delete

variable {table : AssoTable} {slot : Nat} {key : AssoKey}

/-- The slot whose record comes into the place of the deleted one. -/
def AssoTable.moves (table : AssoTable) (slot : Nat) (moved : Option Nat) : Option Nat :=
  moved.filter fun other => other ∈ table.used ∧ other ≠ slot

theorem moves_some {moved : Option Nat} {other : Nat} (found : table.moves slot moved = some other) :
    other ∈ table.used ∧ other ≠ slot :=
  @Slots.moves_some _ table.slots _ _ _ found

theorem free_unnamed (moved : Option Nat) (unnamed : ¬(table.tuple slot).stKey.Named) :
    table.freeMMDB slot moved = table := by
  apply if_pos
  by_contra other
  exact unnamed (not_or.mp other)

theorem free_named (wf : TableWf table) (holds : table.Holds slot (some key)) (named : key.Named)
    (moved : Option Nat) : table.freeMMDB slot moved = table.avlDelete slot moved := by
  have searched := search_used wf holds.1
  rw [AssoTable.freeMMDB, searched, holds.2]
  exact if_neg (not_or.mpr named)

/-- The slot that the deletion empties loses its key. -/
theorem deleted_slots (slot : Nat) (moved : Option Nat) :
    (table.avlDelete slot moved).slots =
      (table.slots.delete slot moved).set (Slots.emptied slot (table.moves slot moved))
        { (table.slots.delete slot moved).tuple (Slots.emptied slot (table.moves slot moved)) with
          stKey := .zero } := by
  have same : table.slots.moves slot moved = table.moves slot moved := rfl
  rw [AssoTable.avlDelete, Slots.Table.delete, same, AssoTable.moves]
  cases moved.filter fun other => other ∈ table.used ∧ other ≠ slot with
  | none => rfl
  | some other => rfl

theorem emptied_unused (wf : TableWf table) (moved : Option Nat) :
    Slots.emptied slot (table.moves slot moved) ∉ (table.slots.delete slot moved).used := by
  rw [Slots.delete_used]
  exact wf.nodup.not_mem_erase

theorem delete_wf (wf : TableWf table) (used : slot ∈ table.used) (moved : Option Nat) :
    TableWf (table.avlDelete slot moved) := by
  rw [← slots_wf, deleted_slots]
  exact Slots.set_wf_free (Slots.delete_wf (slots_wf.mpr wf) used moved) (emptied_unused wf moved)

/-- The record of the key is gone, and every other is still there. -/
theorem deleted_record (wf : TableWf table) (holds : table.Holds slot (some key)) (moved : Option Nat)
    (name : AssoKey) :
    (table.avlDelete slot moved).record name = if name = key then none else table.record name := by
  have deleted := Slots.delete_record (slots_wf.mpr wf) holds.1 moved name
  have cleared : (table.avlDelete slot moved).slots.record AssoData.stKey name =
      (table.slots.delete slot moved).record AssoData.stKey name := by
    rw [deleted_slots]
    exact Slots.set_record_free (Slots.delete_wf (slots_wf.mpr wf) holds.1 moved)
      (emptied_unused wf moved) name
  rw [← holds.2]
  exact cleared.trans deleted

/-- The slot of the deleted record is free, or it holds the record that came there. -/
theorem deleted_holds (wf : TableWf table) (holds : table.Holds slot (some key)) (moved : Option Nat) :
    (table.avlDelete slot moved).Holds slot
        ((table.moves slot moved).map fun other => (table.tuple other).stKey) ∧
      ∀ other ∈ table.moves slot moved, (table.avlDelete slot moved).tuple slot = table.tuple other := by
  cases found : table.moves slot moved with
  | none =>
      rw [AssoTable.moves] at found
      rw [AssoTable.avlDelete, found]
      refine ⟨⟨wf.nodup.not_mem_erase, ?_⟩, fun other member => absurd member (Option.not_mem_none other)⟩
      exact congrArg AssoData.stKey (Function.update_self slot _ table.tuple)
  | some other =>
      have apart : slot ≠ other := Ne.symm (moves_some found).2
      rw [AssoTable.moves] at found
      rw [AssoTable.avlDelete, found]
      have here (data : AssoData) :
          Function.update (Function.update table.tuple slot (table.tuple other)) other data slot =
            table.tuple other := by
        rw [Function.update_of_ne apart, Function.update_self]
      refine ⟨⟨?_, congrArg AssoData.stKey (here _)⟩, fun found member => ?_⟩
      · exact wf.nodup.mem_erase_iff.mpr ⟨apart, holds.1⟩
      · obtain rfl := Option.some.inj member
        exact here _

end Delete

end Upst.Asso
