import Upst.GreentryInsert
import Upst.GreentryDelete
import Mathlib.Data.Finmap

/-!
The table as a map from keys to bodies. A call does to the table what it does to the map,
with the same return value, so that every sequence of calls from the initialised table
leaves a balanced search tree with exactly the entries of the map.
-/

namespace Upst.Greentry

open Avl Avl.BinTree

set_option autoImplicit false

section Specification

abbrev Contents := Finmap fun _ : GreentryKey => Int64

/-- The table is full when one record is left. -/
def specStep (map : Contents) : Op → Int × Contents
  | .insert key body =>
      if key ∈ map then (1, map)
      else if map.keys.card = JMM_GREENTRY_RECORD - 1 then (-1, map)
      else (0, map.insert key body)
  | .delete key => if key ∈ map then (0, map.erase key) else (1, map)

def specRun (map : Contents) : List Op → List Int × Contents
  | [] => ([], map)
  | op :: rest =>
      let (ret, next) := specStep map op
      let (rets, last) := specRun next rest
      (ret :: rets, last)

end Specification

section Agreement

/-- The entries of the tree are those of the map. -/
def SameEntries (map : Contents) (tree : BinTree Rec) : Prop :=
  ∀ key body, map.lookup key = some body ↔ (key, body) ∈ entries tree

theorem entries_length (tree : BinTree Rec) : (entries tree).length = tree.size := by
  rw [entries, List.length_map, toList_length]

theorem keys_nodup {tbl : GreentryTable} {tree : BinTree Rec} {rest : List Nat}
    (inv : Stores tbl tree rest) : ((entries tree).map Prod.fst).Nodup := by
  have ordered := (ordered_entries tree).mp inv.ordered
  rw [List.Nodup, List.pairwise_map]
  refine ordered.imp ?_
  intro first second less same
  rw [same, (memcmpKey_rank _ _).1] at less
  exact Nat.lt_irrefl _ less

theorem mem_iff_entry {map : Contents} {tree : BinTree Rec} (same : SameEntries map tree)
    (key : GreentryKey) : key ∈ map ↔ ∃ label ∈ tree.toList, label.key = key := by
  rw [Finmap.mem_iff]
  constructor
  · rintro ⟨body, found⟩
    obtain ⟨label, member, entry⟩ := List.mem_map.mp ((same key body).mp found)
    exact ⟨label, member, congrArg Prod.fst entry⟩
  · rintro ⟨label, member, rfl⟩
    exact ⟨label.body, (same _ _).mpr (List.mem_map_of_mem member)⟩

theorem card_eq_size {tbl : GreentryTable} {map : Contents} {tree : BinTree Rec} {rest : List Nat}
    (inv : Stores tbl tree rest) (same : SameEntries map tree) :
    map.keys.card = tree.size := by
  have keys : map.keys = ((entries tree).map Prod.fst).toFinset := by
    ext key
    rw [Finmap.mem_keys, mem_iff_entry same, List.mem_toFinset, entries, List.map_map,
      List.mem_map]
    rfl
  rw [keys, List.toFinset_card_of_nodup (keys_nodup inv), List.length_map, entries_length]

theorem same_entries_insert {map : Contents} {old new : BinTree Rec} {front back : List Rec}
    {label : Rec} (same : SameEntries map old) (before : old.toList = front ++ back)
    (after : new.toList = front ++ label :: back)
    (absent : ∀ other ∈ old.toList, other.key ≠ label.key) :
    SameEntries (map.insert label.key label.body) new := by
  have split (entry : GreentryKey × Int64) :
      entry ∈ entries new ↔ entry = label.entry ∨ entry ∈ entries old := by
    simp only [entries, before, after, List.map_append, List.map_cons, List.mem_append,
      List.mem_cons]
    tauto
  intro key body
  rw [split]
  by_cases here : key = label.key
  · subst here
    have notOld : (label.key, body) ∉ entries old := by
      intro member
      obtain ⟨other, inOld, entry⟩ := List.mem_map.mp member
      exact absent other inOld (congrArg Prod.fst entry)
    rw [Finmap.lookup_insert, Option.some.injEq, or_iff_left notOld, Rec.entry, Prod.mk.injEq,
      and_iff_right rfl, eq_comm]
  · rw [Finmap.lookup_insert_of_ne _ here, same key body, or_iff_right]
    exact fun entry => here (congrArg Prod.fst entry)

theorem same_entries_erase {map : Contents} {old new : BinTree Rec}
    {front back : List (GreentryKey × Int64)} {key : GreentryKey} {body : Int64}
    (same : SameEntries map old) (before : entries old = front ++ (key, body) :: back)
    (after : entries new = front ++ back) (nodup : ((entries old).map Prod.fst).Nodup) :
    SameEntries (map.erase key) new := by
  rw [before, List.map_append, List.map_cons, List.nodup_middle, List.nodup_cons] at nodup
  have gone (value : Int64) : (key, value) ∉ entries new := by
    intro member
    rw [after] at member
    apply nodup.1
    rw [← List.map_append]
    exact List.mem_map.mpr ⟨(key, value), member, rfl⟩
  intro other value
  by_cases here : other = key
  · subst here
    rw [Finmap.lookup_erase]
    exact ⟨fun found => absurd found (Option.some_ne_none _ ∘ Eq.symm), fun member => absurd member (gone value)⟩
  · have differ : ¬(other, value) = (key, body) := fun entry => here (congrArg Prod.fst entry)
    rw [Finmap.lookup_erase_ne here, same other value, before, after]
    simp only [List.mem_append, List.mem_cons, differ, false_or]

end Agreement

section Run

/-- The state between two calls, with the map that it stands for. -/
structure Matches (tbl : GreentryTable) (map : Contents) : Prop where
  stored : ∃ tree rest, Represents tbl tree rest ∧ SameEntries map tree
  used : tbl.used = map.keys.card

theorem insert_step {tbl : GreentryTable} {map : Contents} (inv : Matches tbl map)
    (key : GreentryKey) (body : Int64) :
    ∃ next, step tbl (.insert key body) = some ((specStep map (.insert key body)).1, next) ∧
      Matches next (specStep map (.insert key body)).2 ∧
      ((specStep map (.insert key body)).1 ≠ 0 → next = tbl) := by
  obtain ⟨⟨tree, rest, represents, same⟩, used⟩ := inv
  have present := mem_iff_entry same key
  have size := card_eq_size represents.toStores same
  have count := represents.count
  obtain ⟨code, result, run, outcome⟩ := avl_insert_spec represents key body
  rw [step, insertGREENTRY, run, specStep]
  cases outcome with
  | present label member sameKey =>
      rw [if_pos (present.mpr ⟨label, member, sameKey⟩)]
      exact ⟨tbl, rfl, ⟨⟨tree, rest, represents, same⟩, used⟩, fun _ => rfl⟩
  | full absent empty =>
      have missing : key ∉ map := fun inMap => by
        obtain ⟨label, member, sameKey⟩ := present.mp inMap
        exact absent label member sameKey
      subst empty
      rw [List.length_nil] at count
      rw [if_neg missing, if_pos (by omega)]
      exact ⟨tbl, rfl, ⟨⟨tree, [], represents, same⟩, used⟩, fun _ => rfl⟩
  | inserted absent result new others front back label newInv room _ sameUsed old labels entry =>
      have missing : key ∉ map := fun inMap => by
        obtain ⟨label, member, sameKey⟩ := present.mp inMap
        exact absent label member sameKey
      have filled : rest.length = others.length + 1 := congrArg List.length room
      rw [if_neg missing, if_neg (by omega)]
      obtain ⟨rfl, rfl⟩ : label.key = key ∧ label.body = body := Prod.mk.inj entry
      have newSame := same_entries_insert same old labels absent
      have newSize := card_eq_size newInv.toStores newSame
      have grown : new.size = tree.size + 1 := by
        rw [← toList_length, ← toList_length, old, labels]
        simp only [List.length_append, List.length_cons]
        omega
      refine ⟨{ result with used := result.used + 1 }, rfl, ⟨⟨new, others, ?_, newSame⟩, ?_⟩,
        fun nonzero => absurd rfl nonzero⟩
      · exact ⟨⟨newInv.root, newInv.holds, newInv.chain, newInv.parts, newInv.ordered⟩,
          newInv.balanced⟩
      · show result.used + 1 = ((map.insert label.key label.body).keys.card : Int)
        omega

theorem delete_step {tbl : GreentryTable} {map : Contents} (inv : Matches tbl map)
    (key : GreentryKey) :
    ∃ next, step tbl (.delete key) = some ((specStep map (.delete key)).1, next) ∧
      Matches next (specStep map (.delete key)).2 ∧
      ((specStep map (.delete key)).1 ≠ 0 → next = tbl) := by
  obtain ⟨⟨tree, rest, represents, same⟩, used⟩ := inv
  have size := card_eq_size represents.toStores same
  obtain ⟨code, result, run, outcome⟩ := avl_delete_spec represents key
  rw [step, deleteGREENTRY, run, specStep]
  cases outcome with
  | absent absent =>
      have missing : key ∉ map := fun inMap => by
        obtain ⟨label, member, sameKey⟩ := (mem_iff_entry same key).mp inMap
        exact absent label member sameKey
      rw [if_neg missing]
      exact ⟨tbl, rfl, ⟨⟨tree, rest, represents, same⟩, used⟩, fun _ => rfl⟩
  | deleted result label member sameKey removed =>
      obtain ⟨⟨new, index, newInv, ⟨front, back, body, before, after⟩, -⟩, sameUsed, -⟩ := removed
      have present : key ∈ map := by
        rw [Finmap.mem_iff]
        refine ⟨body, (same key body).mpr ?_⟩
        rw [before]
        simp
      have newSame := same_entries_erase same before after (keys_nodup represents.toStores)
      have newSize := card_eq_size newInv.toStores newSame
      have shrunk : tree.size = new.size + 1 := by
        rw [← entries_length, ← entries_length, before, after]
        simp only [List.length_append, List.length_cons]
        omega
      rw [if_pos present]
      refine ⟨{ result with used := result.used - 1 }, rfl,
        ⟨⟨new, index :: rest, ?_, newSame⟩, ?_⟩, fun nonzero => absurd rfl nonzero⟩
      · exact ⟨⟨newInv.root, newInv.holds, newInv.chain, newInv.parts, newInv.ordered⟩,
          newInv.balanced⟩
      · show result.used - 1 = ((map.erase key).keys.card : Int)
        omega

theorem step_matches {tbl : GreentryTable} {map : Contents} (inv : Matches tbl map) (op : Op) :
    ∃ next, step tbl op = some ((specStep map op).1, next) ∧ Matches next (specStep map op).2 ∧
      ((specStep map op).1 ≠ 0 → next = tbl) := by
  cases op with
  | insert key body => exact insert_step inv key body
  | delete key => exact delete_step inv key

theorem run_matches {tbl : GreentryTable} {map : Contents} (inv : Matches tbl map)
    (ops : List Op) :
    ∃ last, run tbl ops = some ((specRun map ops).1, last) ∧ Matches last (specRun map ops).2 := by
  induction ops generalizing tbl map with
  | nil => exact ⟨tbl, rfl, inv⟩
  | cons op rest ih =>
      obtain ⟨next, stepped, nextInv, -⟩ := step_matches inv op
      obtain ⟨last, ran, lastInv⟩ := ih nextInv
      refine ⟨last, ?_, lastInv⟩
      rw [run, stepped]
      simp only [Option.bind_eq_bind, Option.bind_some, ran, specRun]

end Run

section Init

theorem init_chain (raw : GreentryTable) {index count : Nat}
    (ends : index + count + 1 = JMM_GREENTRY_RECORD) :
    FreeChain (initGreentry raw).tuple index (List.range' (index + 1) count) := by
  induction count generalizing index with
  | zero =>
      have inside : ¬index < JMM_GREENTRY_RECORD - 1 := by omega
      have last : index = JMM_GREENTRY_RECORD - 1 := by omega
      rw [List.range'_zero, FreeChain]
      simp only [initGreentry, if_neg inside, if_pos last]
  | succ count ih =>
      have inside : index < JMM_GREENTRY_RECORD - 1 := by omega
      rw [List.range'_succ, FreeChain]
      refine ⟨?_, ih (by omega)⟩
      simp only [initGreentry, if_pos inside]

theorem init_represents (raw : GreentryTable) :
    Represents (initGreentry raw) .nil (List.range' 1 (JMM_GREENTRY_RECORD - 1)) := by
  refine ⟨⟨rfl, trivial, ?_, ?_, List.Pairwise.nil⟩, trivial⟩
  · have ends : 0 + (JMM_GREENTRY_RECORD - 1) + 1 = JMM_GREENTRY_RECORD := by
      rw [JMM_GREENTRY_RECORD]
    exact init_chain raw ends
  · have whole (count : Nat) : 0 :: List.range' 1 count = List.range (count + 1) := by
      rw [List.range_eq_range', List.range'_succ]
    exact List.Perm.of_eq (whole (JMM_GREENTRY_RECORD - 1))

theorem init_matches (raw : GreentryTable) : Matches (initGreentry raw) ∅ := by
  refine ⟨⟨.nil, _, init_represents raw, ?_⟩, ?_⟩
  · intro key body
    rw [Finmap.lookup_empty]
    exact ⟨fun found => absurd found (Option.some_ne_none _ ∘ Eq.symm), fun member => absurd member List.not_mem_nil⟩
  · rw [Finmap.keys_empty, Finset.card_empty]
    rfl

end Init

/-- Every sequence of calls returns, with the return values of the map; the table is a
balanced search tree that holds the entries of the map beside its free list; and a call that
returns another value than 0 leaves it as it was. -/
theorem run_from_init (raw : GreentryTable) (ops : List Op) :
    ∃ tbl tree rest, run (initGreentry raw) ops = some ((specRun ∅ ops).1, tbl) ∧
      Represents tbl tree rest ∧
      (∀ key body, (specRun ∅ ops).2.lookup key = some body ↔ (key, body) ∈ entries tree) ∧
      tbl.used = (specRun ∅ ops).2.keys.card ∧
      ∀ op ret next, step tbl op = some (ret, next) → ret ≠ 0 → next = tbl := by
  obtain ⟨tbl, ran, inv⟩ := run_matches (init_matches raw) ops
  obtain ⟨tree, rest, represents, same⟩ := inv.stored
  refine ⟨tbl, tree, rest, ran, represents, same, inv.used, ?_⟩
  intro op ret next stepped nonzero
  obtain ⟨other, spec, -, unchanged⟩ := step_matches inv op
  rw [spec, Option.some.injEq, Prod.mk.injEq] at stepped
  obtain ⟨rfl, rfl⟩ := stepped
  exact unchanged nonzero

end Upst.Greentry
