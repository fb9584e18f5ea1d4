import Upst.Arp
import Upst.GreentrySelect

/-!
The tables of `A_RP` against the search trees that they are. The generated code of PSESS is that of
GREENTRY up to the names, with as many records and as long a key, and moves the rest of a record with
the body.
-/

namespace Upst.Arp

open Greentry Slots Avl Avl.BinTree

set_option autoImplicit false

variable {δ κ : Type}

section Simulation

/-- How the records of a table agree with those of a tree. -/
structure Reading (δ κ : Type) where
  keyOf : δ → κ
  layout : κ → GreentryKey
  agree : δ → GreentryKey × Int64 → Prop
  inj : Function.Injective layout
  keys : ∀ {data record}, agree data record → layout (keyOf data) = record.1

/-- `st_greentry`: the main key is in front of the reserved bytes. -/
def greentryData (record : GreentryKey × Int64) : GreentryData where
  key := record.1
  uiMainGREKey := record.2.toUInt64.toUInt32

def greentryReading : Reading GreentryData GreentryKey where
  keyOf := GreentryData.key
  layout := id
  agree := fun data record => data = greentryData record
  inj := Function.injective_id
  keys := congrArg GreentryData.key

def psessReading : Reading Session PsessKey where
  keyOf := Session.key
  layout := fun key => ⟨key.uiServingPCF, key.uiKey⟩
  agree := fun session record => ⟨session.key.uiServingPCF, session.key.uiKey⟩ = record.1
  inj := by
    rintro ⟨pcf, key⟩ ⟨otherPcf, otherKey⟩ same
    obtain ⟨rfl, rfl⟩ := GreentryKey.mk.inj same
    rfl
  keys := id

/-- The slots in use are the records of the tree, and the free ones its free list. -/
structure Stands (reading : Reading δ κ) (tbl : GreentryTable) (tree : BinTree Rec) (rest : List Nat)
    (table : Table δ) : Prop where
  represents : Represents tbl tree rest
  used : table.used.Perm (indices tree)
  free : table.free = tbl.free :: rest
  tuple : ∀ slot, reading.agree (table.tuple slot) (content tbl.tuple slot)

variable {reading : Reading δ κ} {tbl : GreentryTable} {tree : BinTree Rec} {rest : List Nat}
  {table : Table δ}

theorem stands_init (raw : GreentryTable) {data : Nat → δ}
    (agrees : ∀ slot, reading.agree (data slot) (content raw.tuple slot)) :
    Stands reading (initGreentry raw) .nil (List.range' 1 (JMM_GREENTRY_RECORD - 1))
      { tuple := data, used := [], free := 0 :: List.range' 1 (JMM_GREENTRY_RECORD - 1) } where
  represents := init_represents raw
  used := List.Perm.refl _
  free := rfl
  tuple := by
    intro slot
    have same : content (initGreentry raw).tuple slot = content raw.tuple slot := by
      simp only [content, initGreentry]
      split_ifs <;> rfl
    rw [same]
    exact agrees slot

namespace Stands

theorem label_used (stands : Stands reading tbl tree rest table) {label : Rec}
    (member : label ∈ tree.toList) : label.index ∈ table.used :=
  stands.used.mem_iff.mpr (List.mem_map_of_mem member)

theorem label_of_slot (stands : Stands reading tbl tree rest table) {slot : Nat}
    (used : slot ∈ table.used) : ∃ label ∈ tree.toList, label.index = slot :=
  List.mem_map.mp (stands.used.mem_iff.mp used)

theorem label_key (stands : Stands reading tbl tree rest table) {label : Rec}
    (member : label ∈ tree.toList) :
    reading.layout (reading.keyOf (table.tuple label.index)) = label.key :=
  (reading.keys (stands.tuple _)).trans (record_of_label stands.represents.holds member).2.1

theorem label_eq (stands : Stands reading tbl tree rest table) {label other : Rec}
    (inTree : label ∈ tree.toList) (member : other ∈ tree.toList) (same : label.key = other.key) :
    label = other := by
  have nodup := keys_nodup stands.represents.toStores
  rw [entries, List.map_map] at nodup
  exact List.inj_on_of_nodup_map nodup inTree member same

theorem wf (stands : Stands reading tbl tree rest table) : Wf reading.keyOf table where
  nodup := by
    rw [stands.free, (stands.used.append_right _).nodup_iff]
    exact stands.represents.nodup
  keys := by
    intro slot used other otherUsed same
    obtain ⟨label, member, rfl⟩ := stands.label_of_slot used
    obtain ⟨found, inTree, rfl⟩ := stands.label_of_slot otherUsed
    have keys := congrArg reading.layout same
    rw [stands.label_key member, stands.label_key inTree] at keys
    rw [stands.label_eq member inTree keys]
  room := stands.free ▸ List.cons_ne_nil _ _

theorem set (stands : Stands reading tbl tree rest table) {slot : Nat} {data : δ}
    (agrees : reading.agree data (content tbl.tuple slot)) :
    Stands reading tbl tree rest (table.set slot data) where
  represents := stands.represents
  used := stands.used
  free := stands.free
  tuple := by
    intro place
    by_cases here : place = slot
    · rw [here, set_own]
      exact agrees
    · rw [set_apart here]
      exact stands.tuple place

variable [DecidableEq κ]

theorem search_label (stands : Stands reading tbl tree rest table) {label : Rec} {key : κ}
    (member : label ∈ tree.toList) (same : label.key = reading.layout key) :
    table.search reading.keyOf key = some label.index := by
  have own : reading.keyOf (table.tuple label.index) = key :=
    reading.inj ((stands.label_key member).trans same)
  rw [← own]
  exact search_used stands.wf (stands.label_used member)

theorem search_absent (stands : Stands reading tbl tree rest table) {key : κ}
    (absent : ∀ label ∈ tree.toList, label.key ≠ reading.layout key) :
    table.search reading.keyOf key = none := by
  refine List.find?_eq_none.mpr fun slot used named => ?_
  obtain ⟨label, member, rfl⟩ := stands.label_of_slot used
  apply absent label member
  rw [← of_decide_eq_true named]
  exact (stands.label_key member).symm

end Stands

/-- The first record above a bound is the one of the least rank. -/
theorem next_stands (stands : Stands reading tbl tree rest table) (first : GreentryKey) :
    table.next reading.keyOf (fun key => rank (reading.layout key)) (rank first) =
      (tree.toList.find? (above first)).map Rec.index := by
  cases found : tree.toList.find? (above first) with
  | none =>
      cases next : table.next reading.keyOf (fun key => rank (reading.layout key)) (rank first) with
      | none => rfl
      | some slot =>
          obtain ⟨used, behind, -⟩ := next_some next
          obtain ⟨label, member, rfl⟩ := stands.label_of_slot used
          rw [stands.label_key member] at behind
          exact absurd ((above_rank first label).mpr behind) (List.find?_eq_none.mp found label member)
  | some label =>
      obtain ⟨high, front, back, split, low⟩ := List.find?_eq_some_iff_append.mp found
      have member := List.mem_of_find?_eq_some found
      have behind := (above_rank first label).mp high
      cases next : table.next reading.keyOf (fun key => rank (reading.layout key)) (rank first) with
      | none =>
          have under := next_none next (stands.label_used member)
          rw [stands.label_key member] at under
          exact absurd behind (Nat.not_lt_of_le under)
      | some slot =>
          obtain ⟨used, beyond, least⟩ := next_some next
          have most := least _ (stands.label_used member)
          obtain ⟨other, inTree, rfl⟩ := stands.label_of_slot used
          rw [stands.label_key member, stands.label_key inTree] at most
          rw [stands.label_key inTree] at beyond
          have bound := most behind
          have order := stands.represents.sorted
          rw [BinTree.Sorted, split, List.pairwise_append, List.pairwise_cons] at order
          rw [split, List.mem_append, List.mem_cons] at inTree
          rcases inTree with early | rfl | late
          · have passed := low other early
            rw [(above_rank first other).mpr beyond] at passed
            cases passed
          · rfl
          · exact absurd (order.2.1.1 other late) (Nat.not_lt_of_le bound)

theorem select_stands (stands : Stands reading tbl tree rest table) (first last : κ) :
    selectGREENTRY tbl (reading.layout first) (reading.layout last) =
      some (selectKey reading.keyOf (fun key => rank (reading.layout key)) table first last) := by
  rw [select_spec stands.represents, selectKey, next_stands stands]
  cases found : tree.toList.find? (above (reading.layout first)) with
  | none => rfl
  | some label =>
      rw [Option.map_some, Option.filter_some, Option.filter_some,
        stands.label_key (List.mem_of_find?_eq_some found)]
      by_cases under : rank label.key < rank (reading.layout last)
      · rw [(below_rank _ _).mpr under, if_pos (decide_eq_true under)]
        rfl
      · rw [Bool.eq_false_iff.mpr (mt (below_rank _ _).mp under), if_neg (mt of_decide_eq_true under)]
        rfl

variable [DecidableEq κ]

theorem search_stands (stands : Stands reading tbl tree rest table) (key : κ) :
    searchGREENTRY tbl (reading.layout key) = some (table.search reading.keyOf key) := by
  have low := stands.represents.height_bound
  rw [searchGREENTRY, stands.represents.root,
    search_spec (by rw [JMM_GREENTRY_RECORD]; omega) stands.represents.holds stands.represents.apart.1
      stands.represents.sorted]
  cases found : tree.toList.find? fun label => label.key = reading.layout key with
  | none =>
      rw [stands.search_absent fun label member named =>
        List.find?_eq_none.mp found label member (decide_eq_true named)]
      rfl
  | some label =>
      have named := List.find?_some found
      rw [stands.search_label (List.mem_of_find?_eq_some found) (of_decide_eq_true named)]
      rfl

theorem insert_stands (stands : Stands reading tbl tree rest table) {data : δ} {body : Int64}
    (agrees : reading.agree data (reading.layout (reading.keyOf data), body)) :
    ∃ code result new others,
      insertGREENTRY tbl (reading.layout (reading.keyOf data)) body = some (code, result) ∧
        decide (code = 0) = (table.insert reading.keyOf data).isSome ∧
        Stands reading result new others ((table.insert reading.keyOf data).getD table) := by
  obtain ⟨code, result, ran, outcome⟩ :=
    avl_insert_spec stands.represents (reading.layout (reading.keyOf data)) body
  rw [insertGREENTRY, ran, Table.insert, stands.free]
  cases outcome with
  | present label member same =>
      rw [stands.search_label member same]
      exact ⟨1, tbl, tree, rest, rfl, rfl, stands⟩
  | full absent empty =>
      rw [stands.search_absent absent]
      subst empty
      exact ⟨-1, tbl, tree, [], rfl, rfl, stands⟩
  | inserted absent result new others front back label inv room filled =>
      rw [stands.search_absent absent]
      subst room
      refine ⟨0, _, new, others, rfl, rfl,
        ⟨⟨⟨inv.root, inv.holds, inv.chain, inv.parts, inv.ordered⟩, inv.balanced⟩, ?_, rfl, ?_⟩⟩
      · have parts := inv.parts.trans stands.represents.parts.symm
        have same : (indices new).Perm (tbl.free :: indices tree) :=
          (List.perm_append_right_iff _).mp (parts.trans List.perm_middle)
        exact (stands.used.cons tbl.free).trans same.symm
      · intro slot
        show reading.agree (Function.update table.tuple tbl.free data slot) (content result.tuple slot)
        rw [filled]
        by_cases here : slot = tbl.free
        · rw [here, Function.update_self, Function.update_self]
          exact agrees
        · rw [Function.update_of_ne here, Function.update_of_ne here]
          exact stands.tuple slot

theorem delete_stands (stands : Stands reading tbl tree rest table) (key : κ) :
    ∃ moved result new others,
      deleteGREENTRY tbl (reading.layout key) =
          some ((deleteKey reading.keyOf table key moved).1, result) ∧
        Stands reading result new others (deleteKey reading.keyOf table key moved).2 := by
  obtain ⟨code, result, ran, outcome⟩ := avl_delete_spec stands.represents (reading.layout key)
  rw [deleteGREENTRY, ran]
  cases outcome with
  | absent absent =>
      refine ⟨none, tbl, tree, rest, ?_⟩
      rw [deleteKey, stands.search_absent absent]
      exact ⟨rfl, stands⟩
  | deleted result label member same removed =>
      obtain ⟨⟨new, index, inv, -, moved⟩, -, free⟩ := removed
      have parts := inv.parts.trans stands.represents.parts.symm
      rw [free] at parts
      have whole : (index :: indices new).Perm (indices tree) := by
        refine (List.perm_append_right_iff (tbl.free :: rest)).mp (List.Perm.trans ?_ parts)
        exact (List.perm_middle.symm.trans ((List.Perm.swap _ _ _).append_left _))
      have inUse : index ∈ table.used := (stands.used.trans whole.symm).mem_iff.mpr List.mem_cons_self
      have left : (table.used.erase index).Perm (indices new) := by
        have less := (stands.used.trans whole.symm).erase index
        rwa [List.erase_cons_head] at less
      have moves : emptied label.index (table.moves label.index (some index)) = index ∧
          origin label.index (table.moves label.index (some index)) label.index = index := by
        rw [Table.moves, Option.filter_some, origin, if_pos rfl]
        by_cases own : index = label.index
        · rw [if_neg fun moved => (of_decide_eq_true moved).2 own]
          exact ⟨own.symm, own.symm⟩
        · rw [if_pos (decide_eq_true ⟨inUse, own⟩)]
          exact ⟨rfl, rfl⟩
      refine ⟨some index, { result with used := result.used - 1 }, new, index :: rest, ?_⟩
      rw [deleteKey, stands.search_label member same]
      refine ⟨rfl, ⟨⟨inv.root, inv.holds, inv.chain, inv.parts, inv.ordered⟩, inv.balanced⟩, ?_, ?_, ?_⟩
      · rw [delete_used, moves.1]
        exact left
      · rw [delete_free_head stands.free, moves.1, ← free]
      · intro slot
        show reading.agree _ (content result.tuple slot)
        rw [delete_tuple, moved]
        by_cases here : slot = label.index
        · rw [here, moves.2, Function.update_self]
          exact stands.tuple index
        · rw [origin, if_neg here, Function.update_of_ne here]
          exact stands.tuple slot

end Simulation

section Run

variable {tbl : GreentryTable} {tree : BinTree Rec} {rest : List Nat} {table : Table GreentryData}

/-- A call on the slots, and whether it succeeds; `moved` is the record that a delete moves. -/
def slotStep (table : Table GreentryData) (moved : Option Nat) : Op → Bool × Table GreentryData
  | .insert key body =>
      let inserted := table.insert GreentryData.key (greentryData (key, body))
      (inserted.isSome, inserted.getD table)
  | .delete key =>
      let (ret, after) := deleteKey GreentryData.key table key moved
      (decide (ret = 0), after)

def slotRun (table : Table GreentryData) : List (Op × Option Nat) → List Bool × Table GreentryData
  | [] => ([], table)
  | (op, moved) :: rest =>
      let others := slotRun (slotStep table moved op).2 rest
      ((slotStep table moved op).1 :: others.1, others.2)

theorem step_stands (stands : Stands greentryReading tbl tree rest table) (op : Op) :
    ∃ moved ret next new others, Greentry.step tbl op = some (ret, next) ∧
      (slotStep table moved op).1 = decide (ret = 0) ∧
      Stands greentryReading next new others (slotStep table moved op).2 := by
  cases op with
  | insert key body =>
      obtain ⟨ret, next, new, others, ran, same, after⟩ :=
        @insert_stands _ _ _ _ _ _ _ _ stands (greentryData (key, body)) body rfl
      exact ⟨none, ret, next, new, others, ran, same.symm, after⟩
  | delete key =>
      obtain ⟨moved, next, new, others, ran, after⟩ := delete_stands stands key
      exact ⟨moved, _, next, new, others, ran, rfl, after⟩

theorem run_stands (stands : Stands greentryReading tbl tree rest table) (ops : List Op) :
    ∃ moves rets last new others after, Greentry.run tbl ops = some (rets, last) ∧
      moves.length = ops.length ∧
      slotRun table (ops.zip moves) = (rets.map fun ret => decide (ret = 0), after) ∧
      Stands greentryReading last new others after := by
  induction ops generalizing tbl tree rest table with
  | nil => exact ⟨[], [], tbl, tree, rest, table, rfl, rfl, rfl, stands⟩
  | cons op ops ih =>
      obtain ⟨moved, ret, next, _, _, stepped, same, nextStands⟩ := step_stands stands op
      obtain ⟨moves, rets, last, new, others, after, ran, length, slots, lastStands⟩ := ih nextStands
      refine ⟨moved :: moves, ret :: rets, last, new, others, after, ?_, congrArg (· + 1) length, ?_,
        lastStands⟩
      · rw [Greentry.run, stepped]
        simp only [Option.bind_eq_bind, Option.bind_some, ran]
      · simp only [List.zip_cons_cons, slotRun, slots, same, List.map_cons]

/-- The slots of a new table, with what the segment held. -/
def initSlots (raw : GreentryTable) : Table GreentryData where
  tuple := fun slot => greentryData (content raw.tuple slot)
  used := []
  free := 0 :: List.range' 1 (JMM_GREENTRY_RECORD - 1)

/-- Every sequence of calls does to the slots what it does to the search tree, and every search and
selection of the tree is that of the slots. -/
theorem slots_from_init (raw : GreentryTable) (ops : List Op) :
    ∃ moves rets tbl after, Greentry.run (initGreentry raw) ops = some (rets, tbl) ∧
      moves.length = ops.length ∧
      slotRun (initSlots raw) (ops.zip moves) = (rets.map fun ret => decide (ret = 0), after) ∧
      (∀ slot, after.tuple slot = greentryData (content tbl.tuple slot)) ∧
      (∀ key, searchGREENTRY tbl key = some (after.search GreentryData.key key)) ∧
      ∀ first last, selectGREENTRY tbl first last =
        some (selectKey GreentryData.key rank after first last) := by
  obtain ⟨moves, rets, tbl, tree, rest, after, ran, length, slots, stands⟩ :=
    run_stands (@stands_init _ _ greentryReading raw _ fun _ => rfl) ops
  exact ⟨moves, rets, tbl, after, ran, length, slots, stands.tuple, search_stands stands,
    select_stands stands⟩

end Run

end Upst.Arp
