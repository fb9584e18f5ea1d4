import Mathlib.Data.List.Nodup
import Mathlib.Data.List.Perm.Subperm
import Mathlib.Logic.Function.Basic

/-!
The association records of `A_SCTP`: an array of slots, the slots in the search tree and the slots
that are free. The tree is kept by the slots in it. A deletion may empty the slot of another
record, which moves into the slot of the deleted one; the shape of the tree decides which.
-/

namespace Upst.Asso

set_option autoImplicit false

def MAX_ASSO_RECORD : Nat := 10003

structure AssoKey where
  usSrcPort : Nat
  usDestPort : Nat
  uiSysInfo : Nat
  deriving DecidableEq, Repr

def AssoKey.zero : AssoKey where
  usSrcPort := 0
  usDestPort := 0
  uiSysInfo := 0

def AssoKey.last : AssoKey where
  usSrcPort := 0xFFFF
  usDestPort := 0xFFFF
  uiSysInfo := 0xFFFFFFFF

structure TimeVal where
  tv_sec : Nat
  tv_usec : Nat
  deriving DecidableEq, Repr

structure AssoData where
  stKey : AssoKey
  stSessTime : TimeVal
  stUpdateTime : TimeVal
  uiReqVerifTag : Nat
  uiResVerifTag : Nat
  uiReqInitTSN : Nat
  uiResInitTSN : Nat
  uiSrcIPFst : Nat
  uiSrcIPSnd : Nat
  uiDestIPFst : Nat
  uiDestIPSnd : Nat
  ucSetupStatus : Nat
  ucCloseStatus : Nat
  deriving DecidableEq, Repr

/-- Everything but the key is cleared. -/
def initASSODATA (stKey : AssoKey) : AssoData where
  stKey := stKey
  stSessTime := ⟨0, 0⟩
  stUpdateTime := ⟨0, 0⟩
  uiReqVerifTag := 0
  uiResVerifTag := 0
  uiReqInitTSN := 0
  uiResInitTSN := 0
  uiSrcIPFst := 0
  uiSrcIPSnd := 0
  uiDestIPFst := 0
  uiDestIPSnd := 0
  ucSetupStatus := 0
  ucCloseStatus := 0

/-- `used` are the slots in the tree, `free` heads the free slots and `rest` are those behind it. -/
structure AssoTable where
  tuple : Nat → AssoData
  used : List Nat
  free : Nat
  rest : List Nat

def initSessDB (tuple : Nat → AssoData) : AssoTable where
  tuple := tuple
  used := []
  free := 0
  rest := List.range' 1 (MAX_ASSO_RECORD - 1)

/-- The last free slot is never given out. -/
def AssoTable.sessAlloc (table : AssoTable) : Option (Nat × AssoTable) :=
  match table.rest with
  | [] => none
  | next :: rest => some (table.free, { table with free := next, rest := rest })

/-- The slot goes behind the head of the free ones. -/
def AssoTable.sessDealloc (table : AssoTable) (dIndex : Nat) : AssoTable :=
  { table with
    tuple := Function.update table.tuple dIndex { table.tuple dIndex with stKey := .zero }
    rest := dIndex :: table.rest }

def AssoTable.avlSearch (table : AssoTable) (key : AssoKey) : Option Nat :=
  table.used.find? fun slot => (table.tuple slot).stKey = key

def AssoTable.avlInsert (table : AssoTable) (data : AssoData) : Except Int AssoTable :=
  match table.avlSearch data.stKey with
  | some _ => .error 1
  | none =>
      match table.sessAlloc with
      | none => .error (-1)
      | some (index, table) =>
          .ok { table with
            tuple := Function.update table.tuple index data
            used := index :: table.used }

/-- `moved` is the slot whose record takes the place of the deleted one. -/
def AssoTable.avlDelete (table : AssoTable) (dindex : Nat) (moved : Option Nat) : AssoTable :=
  match moved.filter fun slot => slot ∈ table.used ∧ slot ≠ dindex with
  | none => { table with used := table.used.erase dindex }.sessDealloc dindex
  | some slot =>
      { table with
        tuple := Function.update table.tuple dindex (table.tuple slot)
        used := table.used.erase slot }.sessDealloc slot

def AssoTable.insertMMDB (table : AssoTable) (pstSrc : AssoData) : Except Int (Nat × AssoTable) :=
  match table.avlInsert pstSrc with
  | .error dRet => .error (if dRet < 0 then -2 else -100)
  | .ok table =>
      match table.avlSearch pstSrc.stKey with
      | none => .error (-3)
      | some slot => .ok (slot, table)

/-- A record without a key of its own stays. -/
def AssoTable.freeMMDB (table : AssoTable) (slot : Nat) (moved : Option Nat) : AssoTable :=
  if (table.tuple slot).stKey = .zero ∨ (table.tuple slot).stKey = .last then table
  else
    match table.avlSearch (table.tuple slot).stKey with
    | none => table
    | some dindex => table.avlDelete dindex moved

def AssoTable.setData (table : AssoTable) (slot : Nat) (data : AssoData) : AssoTable :=
  { table with tuple := Function.update table.tuple slot data }

section Associate

variable {table : AssoTable}

/-- The slot of a key and the table with it: that of its record, or else the first free slot. -/
def AssoTable.associate (table : AssoTable) (key : AssoKey) : Option (Nat × AssoTable) :=
  match table.avlSearch key with
  | some slot => some (slot, table)
  | none =>
      match table.rest with
      | [] => none
      | next :: rest =>
          some (table.free,
            { tuple := Function.update table.tuple table.free (initASSODATA key)
              used := table.free :: table.used
              free := next
              rest := rest })

theorem search_key {key : AssoKey} {slot : Nat} (found : table.avlSearch key = some slot) :
    slot ∈ table.used ∧ (table.tuple slot).stKey = key := by
  rw [AssoTable.avlSearch] at found
  have holds := List.find?_some found
  exact ⟨List.mem_of_find?_eq_some found, of_decide_eq_true holds⟩

theorem search_new (tuple : Nat → AssoData) (used rest : List Nat) (index next : Nat)
    (data : AssoData) :
    AssoTable.avlSearch
      { tuple := Function.update tuple index data
        used := index :: used
        free := next
        rest := rest } data.stKey = some index := by
  have own : Function.update tuple index data index = data := Function.update_self index data tuple
  exact List.find?_cons_of_pos (decide_eq_true (congrArg AssoData.stKey own))

theorem insert_spec {data : AssoData} (new : table.avlSearch data.stKey = none) :
    table.insertMMDB data =
      match table.rest with
      | [] => .error (-2)
      | next :: rest =>
          .ok (table.free,
            { tuple := Function.update table.tuple table.free data
              used := table.free :: table.used
              free := next
              rest := rest }) := by
  rw [AssoTable.insertMMDB, AssoTable.avlInsert, new, AssoTable.sessAlloc]
  cases table.rest with
  | nil => rfl
  | cons next rest =>
      dsimp only
      rw [search_new]

theorem search_none {key : AssoKey} (unknown : table.avlSearch key = none) {slot : Nat}
    (used : slot ∈ table.used) : (table.tuple slot).stKey ≠ key := by
  rw [AssoTable.avlSearch] at unknown
  exact of_decide_eq_false (Bool.not_eq_true _ ▸ List.find?_eq_none.mp unknown slot used)

theorem associate_none {key : AssoKey} (full : table.associate key = none) :
    table.rest = [] := by
  rw [AssoTable.associate] at full
  cases known : table.avlSearch key with
  | some slot =>
      rw [known] at full
      exact nomatch full
  | none =>
      rw [known] at full
      cases free : table.rest with
      | nil => rfl
      | cons next rest =>
          rw [free] at full
          exact nomatch full

theorem associate_some {key : AssoKey} {slot : Nat} {own : AssoTable}
    (found : table.associate key = some (slot, own)) :
    (table.avlSearch key = some slot ∧ own = table) ∨
      table.avlSearch key = none ∧ ∃ next rest, table.rest = next :: rest ∧ slot = table.free ∧
        own =
          { tuple := Function.update table.tuple table.free (initASSODATA key)
            used := table.free :: table.used
            free := next
            rest := rest } := by
  rw [AssoTable.associate] at found
  cases known : table.avlSearch key with
  | some place =>
      rw [known] at found
      obtain ⟨rfl, rfl⟩ := Prod.mk.inj (Option.some.inj found)
      exact Or.inl ⟨rfl, rfl⟩
  | none =>
      rw [known] at found
      cases free : table.rest with
      | nil =>
          rw [free] at found
          exact nomatch found
      | cons next rest =>
          rw [free] at found
          obtain ⟨rfl, rfl⟩ := Prod.mk.inj (Option.some.inj found)
          exact Or.inr ⟨rfl, next, rest, rfl, rfl, rfl⟩

theorem associate_key {key : AssoKey} {slot : Nat} {own : AssoTable}
    (found : table.associate key = some (slot, own)) :
    own.avlSearch key = some slot ∧ (own.tuple slot).stKey = key := by
  have searched : own.avlSearch key = some slot := by
    rcases associate_some found with ⟨known, rfl⟩ | ⟨-, next, rest, -, rfl, rfl⟩
    · exact known
    · exact search_new table.tuple table.used rest table.free next (initASSODATA key)
  exact ⟨searched, (search_key searched).2⟩

/-- Where no other record moves, the slot of a closed association is left without a key. -/
theorem freed_key {slot : Nat} (named : (table.tuple slot).stKey ≠ .zero)
    (inside : (table.tuple slot).stKey ≠ .last)
    (found : table.avlSearch (table.tuple slot).stKey = some slot) :
    ((table.freeMMDB slot none).tuple slot).stKey = .zero := by
  rw [AssoTable.freeMMDB, if_neg (not_or.mpr ⟨named, inside⟩), found]
  have cleared : Function.update table.tuple slot { table.tuple slot with stKey := .zero } slot =
      { table.tuple slot with stKey := .zero } := Function.update_self _ _ _
  exact congrArg AssoData.stKey cleared

end Associate

section Keys

variable {table table' : AssoTable}

/-- The same slots hold records under the same keys. -/
structure SameKeys (table table' : AssoTable) : Prop where
  keys : ∀ slot, (table'.tuple slot).stKey = (table.tuple slot).stKey
  used : table'.used = table.used
  free : table'.free = table.free
  rest : table'.rest = table.rest

theorem same_keys_refl (table : AssoTable) : SameKeys table table :=
  ⟨fun _ => rfl, rfl, rfl, rfl⟩

theorem SameKeys.trans {other : AssoTable} (same : SameKeys table table')
    (further : SameKeys table' other) : SameKeys table other where
  keys slot := (further.keys slot).trans (same.keys slot)
  used := further.used.trans same.used
  free := further.free.trans same.free
  rest := further.rest.trans same.rest

@[simp] theorem set_data_tuple (table : AssoTable) (slot : Nat) (data : AssoData) :
    (table.setData slot data).tuple = Function.update table.tuple slot data := rfl

theorem set_data_same_keys (table : AssoTable) (slot : Nat) {data : AssoData}
    (key : data.stKey = (table.tuple slot).stKey) : SameKeys table (table.setData slot data) where
  keys other := by
    by_cases own : other = slot
    · subst own
      rw [set_data_tuple, Function.update_self]
      exact key
    · rw [set_data_tuple, Function.update_of_ne own]
  used := rfl
  free := rfl
  rest := rfl

theorem SameKeys.search (same : SameKeys table table') (key : AssoKey) :
    table'.avlSearch key = table.avlSearch key := by
  have keys : (fun slot => decide ((table'.tuple slot).stKey = key)) =
      fun slot => decide ((table.tuple slot).stKey = key) := by
    funext slot
    rw [same.keys slot]
  rw [AssoTable.avlSearch, AssoTable.avlSearch, same.used, keys]

/-- The key that a slot holds after the tuple at another place is replaced. -/
theorem update_keys {tuple tuple' : Nat → AssoData} {data data' : AssoData} {place : Nat}
    (keys : ∀ slot, (tuple' slot).stKey = (tuple slot).stKey) (same : data'.stKey = data.stKey)
    (slot : Nat) : (Function.update tuple' place data' slot).stKey =
      (Function.update tuple place data slot).stKey := by
  by_cases own : slot = place
  · subst own
    rw [Function.update_self, Function.update_self, same]
  · rw [Function.update_of_ne own, Function.update_of_ne own, keys slot]

theorem SameKeys.dealloc (same : SameKeys table table') (dIndex : Nat) :
    SameKeys (table.sessDealloc dIndex) (table'.sessDealloc dIndex) where
  keys := update_keys same.keys rfl
  used := same.used
  free := same.free
  rest := congrArg (List.cons dIndex) same.rest

theorem SameKeys.delete (same : SameKeys table table') (dindex : Nat) (moved : Option Nat) :
    SameKeys (table.avlDelete dindex moved) (table'.avlDelete dindex moved) := by
  rw [AssoTable.avlDelete, AssoTable.avlDelete, same.used]
  cases moved.filter fun slot => slot ∈ table.used ∧ slot ≠ dindex with
  | none =>
      apply SameKeys.dealloc
      exact ⟨same.keys, rfl, same.free, same.rest⟩
  | some slot =>
      apply SameKeys.dealloc
      exact ⟨update_keys same.keys (same.keys slot), rfl, same.free, same.rest⟩

theorem SameKeys.freeMMDB (same : SameKeys table table') (slot : Nat) (moved : Option Nat) :
    SameKeys (table.freeMMDB slot moved) (table'.freeMMDB slot moved) := by
  rw [AssoTable.freeMMDB, AssoTable.freeMMDB, same.keys slot, same.search]
  by_cases keyless : (table.tuple slot).stKey = .zero ∨ (table.tuple slot).stKey = .last
  · rw [if_pos keyless, if_pos keyless]
    exact same
  · rw [if_neg keyless, if_neg keyless]
    cases table.avlSearch (table.tuple slot).stKey with
    | none => exact same
    | some dindex => exact same.delete dindex moved

end Keys

end Upst.Asso
