import Upst.HashoRun

/-!
The tables of one process. The hash function is a global of the process that every
`hasho_init` overwrites, so that a call on any table uses the function of the last one.
-/

namespace Upst.Hasho

open Bytes Word NextFit Chain Entries Refine

set_option autoImplicit false

section Process

abbrev HashoFunc := HashoSizes → List UInt8 → Nat

/-- The sum of the key's words, then of the two bytes and of the byte that may be left. -/
def hashoFuncDefault : HashoFunc := fun sizes pb =>
  let portion4 := sizes.usKeyLen / 4
  let remainder := sizes.usKeyLen % 4
  let portion2 := remainder / 2
  let portion1 := remainder % 2
  let words := (List.range portion4).map fun index => fromLe ((pb.drop (4 * index)).take 4)
  let half := fromLe ((pb.drop (4 * portion4)).take (2 * portion2))
  let last := fromLe ((pb.drop (4 * portion4 + 2 * portion2)).take portion1)
  u32 (words.sum + half + last) % sizes.uiHashSize

/-- The global `hasho_func`, and the tables in the order they were made. -/
structure Process where
  hashoFunc : Option HashoFunc
  tables : List HashoInfo

def newProcess : Process where
  hashoFunc := none
  tables := []

/-- `raw` is the segment that `memg_init` finds, or `none` where it returns NULL. -/
inductive Call where
  | init (func : Option HashoFunc) (sizes : HashoSizes) (raw : Option HashoInfo)
  | on (table : Nat) (op : Op)

inductive Reply where
  | table (index : Option Nat)
  | answer (answer : Answer)
  | noTable
  deriving DecidableEq, Repr

/-- The function is set before the memory is asked for. -/
def Process.step (process : Process) : Call → Option (Reply × Process)
  | .init func sizes raw =>
      let process := { process with hashoFunc := some (func.getD hashoFuncDefault) }
      match raw with
      | none => some (.table none, process)
      | some raw =>
          let table := hashoInit raw sizes.usKeyLen sizes.usDataLen sizes.uiHashSize
          some (.table (some process.tables.length),
            { process with tables := process.tables ++ [table] })
  | .on index op => do
      let func ← process.hashoFunc
      let table ← process.tables[index]?
      let (answer, table) ← table.step (func table.sizes) op
      some (.answer answer, { process with tables := process.tables.set index table })

end Process

section Specification

/-- What a table should hold, and where its keys were put. -/
structure TableSpec where
  sizes : HashoSizes
  map : Contents
  bucketOf : List UInt8 → Nat

def TableSpec.step (table : TableSpec) (func : HashoFunc) (op : Op) : Answer × TableSpec :=
  let (answer, map) := specStep (5 * table.sizes.uiHashSize) table.map op
  let bucketOf :=
    match op, answer with
    | .add pKey _, .added true =>
        Function.update table.bucketOf pKey (func table.sizes pKey)
    | _, _ => table.bucketOf
  (answer, { table with map := map, bucketOf := bucketOf })

structure ProcessSpec where
  hashoFunc : HashoFunc
  tables : List TableSpec

/-- Every table is a map of its own. -/
def ProcessSpec.step (spec : ProcessSpec) : Call → Reply × ProcessSpec
  | .init func sizes raw =>
      let spec := { spec with hashoFunc := func.getD hashoFuncDefault }
      if raw.isSome then
        (.table (some spec.tables.length),
          { spec with tables := spec.tables ++ [⟨sizes, ∅, fun _ => 0⟩] })
      else (.table none, spec)
  | .on index op =>
      match spec.tables[index]? with
      | none => (.noTable, spec)
      | some table =>
          let (answer, table) := table.step spec.hashoFunc op
          (.answer answer, { spec with tables := spec.tables.set index table })

def newSpec : ProcessSpec where
  hashoFunc := hashoFuncDefault
  tables := []

/-- The key that a call is about. -/
def Op.pKey : Op → Option (List UInt8)
  | .add pKey _ => some pKey
  | .find pKey => some pKey
  | .del pKey => some pKey
  | .reset => none

/-- The call is on a table that was made, with buffers of its lengths. -/
def ProcessSpec.Accepts (spec : ProcessSpec) : Call → Prop
  | .init _ sizes _ => 0 < sizes.uiHashSize
  | .on index op => ∃ table, spec.tables[index]? = some table ∧ table.sizes.Fits op

/-- The function in force sends the key into the table and, where the key is stored, to the
bucket it was put in. -/
def TableSpec.Agrees (table : TableSpec) (func : HashoFunc) (op : Op) : Prop :=
  ∀ key, op.pKey = some key → func table.sizes key < table.sizes.uiHashSize ∧
    (key ∈ table.map → func table.sizes key = table.bucketOf key)

def ProcessSpec.Agrees (spec : ProcessSpec) : Call → Prop
  | .init _ sizes _ => stHASHOINFO_SIZE + OFFSET_SIZE * sizes.uiHashSize < 2 ^ 32
  | .on index op => ∀ table, spec.tables[index]? = some table → table.Agrees spec.hashoFunc op

end Specification

section Congruence

variable {hash hash' : List UInt8 → Nat} {sizes : HashoSizes} {table : HashoInfo} {map : Contents}

/-- Where the keys that are not stored fall does not matter. -/
theorem matches_congr (inv : Matches hash sizes table map) (inRange : InRange hash' table)
    (agree : ∀ key ∈ map, hash' key = hash key) : Matches hash' sizes table map := by
  obtain ⟨-, sizesEq, live, stores, same⟩ := inv
  refine ⟨inRange, sizesEq, live, ?_, same⟩
  have keys : ∀ p ∈ live, hash' (table.keyAt p) = hash (table.keyAt p) := by
    intro p member
    apply agree
    rw [same_mem same, entries_keys]
    exact List.mem_map_of_mem member
  refine { stores with chains := fun index bound => ?_ }
  have buckets : table.bucket hash' live index = table.bucket hash live index := by
    apply List.filter_congr
    intro p member
    rw [keys p member]
  rw [buckets]
  exact stores.chains index bound

theorem find_congr {pKey : List UInt8} (agree : hash pKey = hash' pKey) :
    hashoFind hash table pKey = hashoFind hash' table pKey := by
  rw [hashoFind, hashoFind, agree]

theorem find_loop_key {pKey : List UInt8} {nodes pOff p : Nat}
    (found : hashoFindLoop table pKey nodes pOff = some (some p)) : table.keyAt p = pKey := by
  induction nodes generalizing pOff with
  | zero =>
      rw [hashoFindLoop] at found
      split at found <;> cases found
  | succ nodes ih =>
      rw [hashoFindLoop] at found
      split at found
      · cases found
      · split at found
        next same =>
          cases found
          exact same
        next => exact ih found

/-- A call asks for the bucket of no other key than its own. -/
theorem step_congr {op : Op} (fits : table.sizes.Fits op)
    (agree : ∀ key, op.pKey = some key → hash key = hash' key) :
    table.step hash op = table.step hash' op := by
  cases op with
  | add pKey pData =>
      have same := agree pKey rfl
      have link (memg : MemgInfo) (p : Nat) :
          hashoLinkNode hash ({ table with memg := memg }.fillNode p pKey pData) p =
            hashoLinkNode hash' ({ table with memg := memg }.fillNode p pKey pData) p := by
        have own := (@fill_own { table with memg := memg } p pKey pData fits.1 fits.2).1
        rw [hashoLinkNode, hashoLinkNode, own, same]
      simp only [HashoInfo.step, hashoAdd, find_congr same, link]
  | find pKey => simp only [HashoInfo.step, find_congr (agree pKey rfl)]
  | del pKey =>
      have same := agree pKey rfl
      simp only [HashoInfo.step, hashoDel, find_congr same]
      cases found : hashoFind hash' table pKey with
      | none => rfl
      | some place =>
          cases place with
          | none => rfl
          | some p =>
              have key : table.keyAt p = pKey := by
                rw [hashoFind] at found
                split at found
                · exact find_loop_key found
                · cases found
              have unlink : hashoUnlinkNode hash table p = hashoUnlinkNode hash' table p := by
                rw [hashoUnlinkNode, hashoUnlinkNode, key, same]
              simp only [Option.bind_eq_bind, Option.bind_some, unlink]
  | reset => rfl

end Congruence

section Run

/-- Every table stores what it should, with its keys where they were put. -/
structure Holds (process : Process) (spec : ProcessSpec) : Prop where
  func : process.tables ≠ [] → process.hashoFunc = some spec.hashoFunc
  length : process.tables.length = spec.tables.length
  each : ∀ (index : Nat) table tableSpec, process.tables[index]? = some table →
    spec.tables[index]? = some tableSpec →
      Matches tableSpec.bucketOf tableSpec.sizes table tableSpec.map

variable {process : Process} {spec : ProcessSpec}

section Table

variable {table : HashoInfo} {tableSpec : TableSpec} {func : HashoFunc} {op : Op}

/-- The function in force may as well be the one that sends every other key where it was put. -/
theorem keyed_step (inv : Matches tableSpec.bucketOf tableSpec.sizes table tableSpec.map)
    (fits : tableSpec.sizes.Fits op) (agrees : tableSpec.Agrees func op) {pKey : List UInt8}
    (keyed : op.pKey = some pKey) :
    ∃ after, table.step (func table.sizes) op =
        some ((specStep (5 * tableSpec.sizes.uiHashSize) tableSpec.map op).1, after) ∧
      Matches (Function.update tableSpec.bucketOf pKey (func tableSpec.sizes pKey)) tableSpec.sizes
        after (specStep (5 * tableSpec.sizes.uiHashSize) tableSpec.map op).2 := by
  obtain ⟨inside, put⟩ := agrees pKey keyed
  have sizesEq := inv.sizesEq
  have hashSize : table.uiHashSize = tableSpec.sizes.uiHashSize :=
    congrArg HashoSizes.uiHashSize sizesEq
  have inRange : InRange (Function.update tableSpec.bucketOf pKey (func tableSpec.sizes pKey))
      table := by
    intro key length
    by_cases own : key = pKey
    · rw [own, Function.update_self, hashSize]
      exact inside
    · rw [Function.update_of_ne own]
      exact inv.inRange key length
  have placed := matches_congr inv inRange (by
    intro key member
    by_cases own : key = pKey
    · rw [own, Function.update_self]
      exact put (own ▸ member)
    · rw [Function.update_of_ne own])
  obtain ⟨after, stepped, matched, -⟩ := step_matches placed fits
  refine ⟨after, ?_, matched⟩
  rw [← stepped]
  apply step_congr (sizesEq ▸ fits)
  intro key same
  obtain rfl := Option.some.inj (keyed.symm.trans same)
  rw [Function.update_self, sizesEq]

/-- A call that adds no key leaves every stored key where it was put. -/
theorem unmoved {after : HashoInfo} {map : Contents} {pKey : List UInt8}
    (inv : Matches tableSpec.bucketOf tableSpec.sizes table tableSpec.map)
    (agrees : tableSpec.Agrees func op) (keyed : op.pKey = some pKey)
    (fewer : ∀ key ∈ map, key ∈ tableSpec.map)
    (moved : Matches (Function.update tableSpec.bucketOf pKey (func tableSpec.sizes pKey))
      tableSpec.sizes after map) :
    Matches tableSpec.bucketOf tableSpec.sizes after map := by
  refine matches_congr moved (in_range_congr (moved.sizesEq.trans inv.sizesEq.symm) inv.inRange) ?_
  intro key member
  by_cases own : key = pKey
  · rw [own, Function.update_self]
    exact ((agrees pKey keyed).2 (own ▸ fewer key member)).symm
  · rw [Function.update_of_ne own]

theorem table_step (inv : Matches tableSpec.bucketOf tableSpec.sizes table tableSpec.map)
    (fits : tableSpec.sizes.Fits op) (agrees : tableSpec.Agrees func op) :
    ∃ after, table.step (func table.sizes) op = some ((tableSpec.step func op).1, after) ∧
      Matches (tableSpec.step func op).2.bucketOf (tableSpec.step func op).2.sizes after
        (tableSpec.step func op).2.map := by
  cases op with
  | add pKey pData =>
      obtain ⟨after, stepped, matched⟩ := keyed_step inv fits agrees rfl
      refine ⟨after, stepped, ?_⟩
      by_cases refused : pKey ∈ tableSpec.map ∨
          tableSpec.map.keys.card = 5 * tableSpec.sizes.uiHashSize
      · simp only [specStep, if_pos refused] at matched
        simp only [TableSpec.step, specStep, if_pos refused]
        exact unmoved inv agrees rfl (fun _ => id) matched
      · simp only [specStep, if_neg refused] at matched
        simp only [TableSpec.step, specStep, if_neg refused]
        exact matched
  | find pKey =>
      obtain ⟨after, stepped, matched⟩ := keyed_step inv fits agrees rfl
      exact ⟨after, stepped, unmoved inv agrees rfl (fun _ => id) matched⟩
  | del pKey =>
      obtain ⟨after, stepped, matched⟩ := keyed_step inv fits agrees rfl
      have kept : Matches tableSpec.bucketOf tableSpec.sizes after (tableSpec.map.erase pKey) :=
        unmoved inv agrees rfl (fun key member => (Finmap.mem_erase.mp member).2) matched
      exact ⟨after, stepped, kept⟩
  | reset =>
      obtain ⟨after, stepped, matched, -⟩ := step_matches inv fits
      exact ⟨after, stepped, matched⟩

end Table

theorem init_holds (inv : Holds process spec) (func : Option HashoFunc) {sizes : HashoSizes}
    (raw : Option HashoInfo) (positive : 0 < sizes.uiHashSize)
    (uncut : stHASHOINFO_SIZE + OFFSET_SIZE * sizes.uiHashSize < 2 ^ 32) :
    ∃ after, process.step (.init func sizes raw) =
        some ((spec.step (.init func sizes raw)).1, after) ∧
      Holds after (spec.step (.init func sizes raw)).2 := by
  cases raw with
  | none => exact ⟨_, rfl, fun _ => rfl, inv.length, inv.each⟩
  | some raw =>
      refine ⟨_, by rw [Process.step, inv.length]; rfl, fun _ => rfl, ?_, ?_⟩
      · simp [ProcessSpec.step, inv.length]
      · intro index table tableSpec found foundSpec
        simp only [ProcessSpec.step, Option.isSome_some, if_true] at foundSpec
        rcases Nat.lt_or_ge index process.tables.length with old | new
        · rw [List.getElem?_append_left old] at found
          rw [List.getElem?_append_left (inv.length ▸ old)] at foundSpec
          exact inv.each index table tableSpec found foundSpec
        · rw [List.getElem?_append_right new, List.getElem?_singleton] at found
          rw [List.getElem?_append_right (inv.length ▸ new), List.getElem?_singleton] at foundSpec
          split at found
          · split at foundSpec
            · obtain rfl := Option.some.inj found
              obtain rfl := Option.some.inj foundSpec
              exact init_matches raw (fun _ _ => positive) uncut
            · cases foundSpec
          · cases found

theorem on_holds (inv : Holds process spec) {index : Nat} {op : Op}
    (accepts : spec.Accepts (.on index op)) (agrees : spec.Agrees (.on index op)) :
    ∃ after, process.step (.on index op) = some ((spec.step (.on index op)).1, after) ∧
      Holds after (spec.step (.on index op)).2 := by
  obtain ⟨tableSpec, foundSpec, fits⟩ := accepts
  have bound : index < spec.tables.length := (List.getElem?_eq_some_iff.mp foundSpec).1
  obtain ⟨table, found⟩ : ∃ table, process.tables[index]? = some table :=
    ⟨_, List.getElem?_eq_getElem (inv.length ▸ bound)⟩
  obtain ⟨after, stepped, matched⟩ :=
    table_step (inv.each index table tableSpec found foundSpec) fits (agrees tableSpec foundSpec)
  have inForce : process.hashoFunc = some spec.hashoFunc := by
    apply inv.func
    rintro none
    rw [none] at found
    cases found
  refine ⟨{ process with tables := process.tables.set index after }, ?_, ?_⟩
  · simp only [Process.step, inForce, found, Option.bind_eq_bind, Option.bind_some, stepped,
      ProcessSpec.step, foundSpec]
  · simp only [ProcessSpec.step, foundSpec]
    refine ⟨fun _ => inForce, by simp [inv.length], ?_⟩
    intro other otherTable otherSpec here hereSpec
    by_cases same : index = other
    · subst same
      rw [List.getElem?_set_self (inv.length ▸ bound)] at here
      rw [List.getElem?_set_self bound] at hereSpec
      obtain rfl := Option.some.inj here
      obtain rfl := Option.some.inj hereSpec
      exact matched
    · rw [List.getElem?_set_ne same] at here hereSpec
      exact inv.each other otherTable otherSpec here hereSpec

/-- Every sequence of calls on the tables of a process is answered as by maps of their own, if
every call finds its key, where it is stored, in the bucket of the function in force. -/
theorem tables_run (calls : List Call)
    (accepts : Along ProcessSpec.step ProcessSpec.Accepts newSpec calls)
    (agrees : Along ProcessSpec.step ProcessSpec.Agrees newSpec calls) :
    ∃ process, replay Process.step newProcess calls =
      some ((specReplay ProcessSpec.step newSpec calls).1, process) := by
  have simulates : Simulates Process.step ProcessSpec.step
      (fun spec call => spec.Accepts call ∧ spec.Agrees call) Holds := by
    intro process spec call inv along
    cases call with
    | init func sizes raw => exact init_holds inv func raw along.1 along.2
    | on index op => exact on_holds inv along.1 along.2
  have start : Holds newProcess newSpec :=
    ⟨fun filled => absurd rfl filled, rfl, fun index => by simp [newProcess]⟩
  obtain ⟨process, ran, -⟩ := simulates.replay start (along_and accepts agrees)
  exact ⟨process, ran⟩

/-- A node is added and looked up, with another table made in between. -/
def lookedUp (func func' : List UInt8 → Nat) : List Call :=
  [.init (some fun _ => func) ⟨1, 1, 2⟩ (some blankTable), .on 0 (.add [5] [9]),
    .init (some fun _ => func') ⟨1, 1, 2⟩ (some blankTable), .on 0 (.find [5])]

theorem tables_run_two : ∃ process,
    replay Process.step newProcess (lookedUp (fun _ => 1) fun _ => 1) =
      some ((specReplay ProcessSpec.step newSpec (lookedUp (fun _ => 1) fun _ => 1)).1, process) := by
  apply tables_run
  · simp [lookedUp, Along, ProcessSpec.Accepts, ProcessSpec.step, newSpec, TableSpec.step, specStep,
      HashoSizes.Fits]
  · simp [lookedUp, Along, ProcessSpec.Agrees, ProcessSpec.step, newSpec, TableSpec.step, specStep,
      TableSpec.Agrees, Op.pKey, stHASHOINFO_SIZE, OFFSET_SIZE, Finmap.notMem_empty]

/-- The second table's function looks for the key of the first table in another bucket. -/
theorem entry_of_other_function_lost :
    (replay Process.step newProcess (lookedUp (fun _ => 0) fun _ => 1)).map Prod.fst =
      some [.table (some 0), .answer (.added true), .table (some 1), .answer (.found none)] ∧
    (specReplay ProcessSpec.step newSpec (lookedUp (fun _ => 0) fun _ => 1)).1 =
      [.table (some 0), .answer (.added true), .table (some 1), .answer (.found (some [9]))] := by
  constructor
  · decide +kernel
  · decide +kernel

end Run

end Upst.Hasho
