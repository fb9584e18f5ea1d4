import Upst.HashoRun
import Upst.TimernIds

/-!
A table whose every entry waits for a timer. The timer has the entry's key for its argument, and
the entry keeps the id of the timer; no other timer waits.
-/

namespace Upst.TimedTable

open Bytes Word Hasho Hashg Timern Deadlines

set_option autoImplicit false

section Pairs

variable {Key Data : Type}

/-- The entries and the timers that wait, as the keys pair them. -/
structure Paired (keyAt : Nat → Key) (callback : Key → Data) (live : List Nat)
    (pending : Nat → Option (Int × Data)) (timerOf : Nat → Nat) : Prop where
  keys : (live.map keyAt).Nodup
  own : ∀ p ∈ live, ∃ deadline, pending (timerOf p) = some (deadline, callback (keyAt p))
  all : ∀ t, pending t ≠ none → ∃ p ∈ live, timerOf p = t

variable {keyAt keyAt' : Nat → Key} {callback : Key → Data} {live : List Nat}
  {pending : Nat → Option (Int × Data)} {timerOf : Nat → Nat} {p q t : Nat}

theorem paired_congr (paired : Paired keyAt callback live pending timerOf)
    (same : ∀ q ∈ live, keyAt' q = keyAt q) : Paired keyAt' callback live pending timerOf := by
  constructor
  · rw [List.map_congr_left same]
    exact paired.keys
  · intro q inside
    rw [same q inside]
    exact paired.own q inside
  · exact paired.all

/-- A timer is that of one entry. -/
theorem paired_apart (paired : Paired keyAt callback live pending timerOf)
    (injective : Function.Injective callback) (first : p ∈ live) (second : q ∈ live)
    (same : timerOf p = timerOf q) : p = q := by
  obtain ⟨deadline, own⟩ := paired.own p first
  obtain ⟨deadline', own'⟩ := paired.own q second
  rw [same, own'] at own
  have data := (Prod.mk.inj (Option.some.inj own)).2
  exact List.inj_on_of_nodup_map paired.keys first second (injective data).symm

theorem paired_drop (paired : Paired keyAt callback live pending timerOf)
    (injective : Function.Injective callback) (distinct : live.Nodup) (member : p ∈ live) :
    Paired keyAt callback (live.erase p) (Function.update pending (timerOf p) none) timerOf := by
  constructor
  · exact paired.keys.sublist (List.erase_sublist.map keyAt)
  · intro q kept
    obtain ⟨apart, inside⟩ := distinct.mem_erase_iff.mp kept
    have other : timerOf q ≠ timerOf p := fun equal =>
      apart (paired_apart paired injective inside member equal)
    rw [Function.update_of_ne other]
    exact paired.own q inside
  · intro t waits
    have other : t ≠ timerOf p := by
      rintro rfl
      exact waits (Function.update_self ..)
    rw [Function.update_of_ne other] at waits
    obtain ⟨q, inside, rfl⟩ := paired.all t waits
    refine ⟨q, distinct.mem_erase_iff.mpr ⟨?_, inside⟩, rfl⟩
    rintro rfl
    exact other rfl

theorem paired_add (paired : Paired keyAt callback live pending timerOf) (fresh : p ∉ live)
    (keys : ((p :: live).map keyAt').Nodup) (same : ∀ q ∈ live, keyAt' q = keyAt q)
    (unused : pending t = none) (deadline : Int) :
    Paired keyAt' callback (p :: live)
      (Function.update pending t (some (deadline, callback (keyAt' p))))
      (Function.update timerOf p t) := by
  have old : ∀ q ∈ live, Function.update timerOf p t q = timerOf q := by
    intro q inside
    apply Function.update_of_ne
    rintro rfl
    exact fresh inside
  constructor
  · exact keys
  · intro q inside
    rcases List.mem_cons.mp inside with rfl | inside
    · rw [Function.update_self, Function.update_self]
      exact ⟨deadline, rfl⟩
    · obtain ⟨deadline', own⟩ := paired.own q inside
      have other : timerOf q ≠ t := by
        rintro rfl
        rw [own] at unused
        cases unused
      rw [old q inside, Function.update_of_ne other, same q inside]
      exact ⟨deadline', own⟩
  · intro other waits
    by_cases new : other = t
    · exact ⟨p, List.mem_cons_self, new ▸ Function.update_self ..⟩
    · rw [Function.update_of_ne new] at waits
      obtain ⟨q, inside, rfl⟩ := paired.all other waits
      exact ⟨q, List.mem_cons_of_mem _ inside, old q inside⟩

theorem key_gone (keys : (live.map keyAt).Nodup) (distinct : live.Nodup) (member : p ∈ live) :
    keyAt p ∉ (live.erase p).map keyAt := by
  intro inside
  obtain ⟨q, kept, same⟩ := List.mem_map.mp inside
  obtain ⟨apart, old⟩ := distinct.mem_erase_iff.mp kept
  exact apart (List.inj_on_of_nodup_map keys old member same)

/-- Another deadline changes no pair. -/
theorem paired_move (paired : Paired keyAt callback live pending timerOf) (t : Nat)
    (deadline : Int) :
    Paired keyAt callback live
      (Function.update pending t ((pending t).map fun entry => (deadline, entry.2))) timerOf := by
  constructor
  · exact paired.keys
  · intro p member
    obtain ⟨deadline', own⟩ := paired.own p member
    by_cases same : timerOf p = t
    · rw [← same, Function.update_self, own]
      exact ⟨deadline, rfl⟩
    · rw [Function.update_of_ne same]
      exact ⟨deadline', own⟩
  · intro other waits
    apply paired.all
    by_cases same : other = t
    · subst same
      rw [Function.update_self] at waits
      intro nothing
      rw [nothing] at waits
      exact waits rfl
    · rwa [Function.update_of_ne same] at waits

/-- What the callbacks of a pass do in turn. -/
def runCallbacks {State : Type} (invoke : State → TimernData → Option State) (state : State)
    (events : List TimerEvent) : Option State :=
  events.foldlM (fun state event => match event.invoked with
    | some data => invoke state data
    | none => some state) state

/-- A pass whose every callback closes the entry of its timer closes the entries whose timers it
runs, and no other. -/
theorem pass_closes {State : Type} {invoke : State → TimernData → Option State}
    {keyAt : Nat → Key} {callback : Key → TimernData} {Inv : State → List Nat → Prop}
    (injective : Function.Injective callback)
    (closes : ∀ state live p, Inv state live → p ∈ live →
      ∃ state', invoke state (callback (keyAt p)) = some state' ∧ Inv state' (live.erase p))
    (events : List TimerEvent) : ∀ {state : State} {live : List Nat} {agenda : Agenda Nat TimernData},
      live.Nodup → Inv state live → Paired keyAt callback live agenda.pending timerOf →
      Timely agenda events → (∀ event ∈ events, Event.Runs event) →
      ∃ state' live', runCallbacks invoke state events = some state' ∧ Inv state' live' ∧
        live'.Sublist live ∧
        Paired keyAt callback live' (agenda.afterAll events).pending timerOf := by
  induction events with
  | nil =>
    intro state live agenda _ inv paired _ _
    exact ⟨state, live, rfl, inv, List.Sublist.refl live, paired⟩
  | cons event rest hyp =>
    intro state live agenda distinct inv paired timely runs
    obtain ⟨allowed, later⟩ := timely
    have runs' : ∀ event ∈ rest, Event.Runs event :=
      fun other member => runs other (List.mem_cons_of_mem _ member)
    rw [runCallbacks, List.foldlM_cons]
    cases event with
    | second => exact hyp distinct inv paired later runs'
    | ran t data =>
      have waits : agenda.pending t = some (agenda.now, data) := allowed
      obtain ⟨p, member, rfl⟩ := paired.all t (by rw [waits]; exact Option.some_ne_none _)
      obtain ⟨deadline, own⟩ := paired.own p member
      obtain rfl := (Prod.mk.inj (Option.some.inj (waits.symm.trans own))).2
      obtain ⟨state₁, invoked, inv₁⟩ := closes state live p inv member
      have paired₁ := paired_drop paired injective distinct member
      obtain ⟨state₂, live₂, ran₂, inv₂, kept, paired₂⟩ :=
        @hyp state₁ (live.erase p) (agenda.drop (timerOf p)) (distinct.erase p) inv₁ paired₁
          later runs'
      refine ⟨state₂, live₂, ?_, inv₂, kept.trans List.erase_sublist, paired₂⟩
      simp only [Event.invoked, invoked, Option.bind_eq_bind, Option.bind_some]
      exact ran₂
    | refused data => cases runs _ List.mem_cons_self
    | ranAtOnce deadline data => cases runs _ List.mem_cons_self
    | accepted t deadline data => cases runs _ List.mem_cons_self
    | moved t deadline => cases runs _ List.mem_cons_self
    | deleted t => cases runs _ List.mem_cons_self
    | ranLate t deadline data => cases runs _ List.mem_cons_self

end Pairs

section Entries

/-- The table whose entries are `live`, its timers, and the ids that the entries keep. -/
structure Served (hash : List UInt8 → Nat) (callback : List UInt8 → TimernData)
    (table : HashoInfo) (info : TimernInfo) (idOf : Nat → Option TimernKey)
    (live timers : List Nat) (agenda : Agenda Nat TimernData) (timerOf : Nat → Nat) : Prop where
  inRange : InRange hash table
  stores : Stores hash table live
  paired : Paired table.keyAt callback live agenda.pending timerOf
  named : Named info agenda timers
  ids : ∀ p ∈ live, idOf p = some (idAt info (timerOf p))

variable {hash : List UInt8 → Nat} {callback : List UInt8 → TimernData} {table : HashoInfo}
  {info : TimernInfo} {idOf idOf' : Nat → Option TimernKey} {live timers : List Nat}
  {agenda : Agenda Nat TimernData} {timerOf : Nat → Nat} {p : Nat} {timeout : Int}

theorem served_distinct
    (served : Served hash callback table info idOf live timers agenda timerOf) : live.Nodup :=
  served.stores.pool.distinct

theorem served_ids (served : Served hash callback table info idOf live timers agenda timerOf)
    (same : ∀ p ∈ live, idOf' p = idOf p) :
    Served hash callback table info idOf' live timers agenda timerOf := by
  constructor
  · exact served.inRange
  · exact served.stores
  · exact served.paired
  · exact served.named
  · intro p member
    rw [same p member]
    exact served.ids p member

theorem timer_waits (served : Served hash callback table info idOf live timers agenda timerOf)
    (member : p ∈ live) : timerOf p ∈ timers := by
  obtain ⟨deadline, own⟩ := served.paired.own p member
  rw [← waiting served.named, own]
  exact Option.some_ne_none _

theorem timer_data (served : Served hash callback table info idOf live timers agenda timerOf)
    (member : p ∈ live) :
    (info.pstHASHGINFO.node (timerOf p)).pstData = callback (table.keyAt p) := by
  obtain ⟨deadline, own⟩ := served.paired.own p member
  have waits := served.named.keeps.pending (timerOf p)
  rw [own, if_pos (timer_waits served member)] at waits
  exact (Prod.mk.inj (Option.some.inj waits)).2.symm

/-- The pairs are a bijection. -/
theorem timers_perm (served : Served hash callback table info idOf live timers agenda timerOf)
    (injective : Function.Injective callback) : (live.map timerOf).Perm timers := by
  have distinct : (live.map timerOf).Nodup :=
    (List.nodup_map_iff_inj_on (served_distinct served)).mpr fun p first q second same =>
      paired_apart served.paired injective first second same
  rw [List.perm_ext_iff_of_nodup distinct served.named.keeps.linked.distinct]
  intro t
  rw [List.mem_map]
  constructor
  · rintro ⟨p, member, rfl⟩
    exact timer_waits served member
  · intro waits
    exact served.paired.all t ((waiting served.named t).mpr waits)

/-- No timer that waits has the id. -/
def Unused (info : TimernInfo) (id : TimernKey) : Prop :=
  hashgFind info.pstHASHGINFO id = some none

instance (info : TimernInfo) (id : TimernKey) : Decidable (Unused info id) :=
  inferInstanceAs (Decidable (_ = _))

theorem unused_iff (named : Named info agenda timers) {id : TimernKey} :
    Unused info id ↔ ∀ other ∈ timers, idAt info other ≠ id := by
  have keeps := named.keeps
  rw [Unused, Hashg.find_spec keeps.linked (keeps.inRange id), Option.some.injEq,
    List.find?_eq_none]
  exact forall₂_congr fun other member => not_congr decide_eq_true_iff

/-- No timer that waits, but for `t`, has the id. -/
def Spare (info : TimernInfo) (timers : List Nat) (t : Nat) (id : TimernKey) : Prop :=
  ∀ other ∈ timers, other ≠ t → idAt info other ≠ id

theorem own_spare (served : Served hash callback table info idOf live timers agenda timerOf)
    (member : p ∈ live) {id : TimernKey} (free : idOf p = some id ∨ Unused info id) :
    Spare info timers (timerOf p) id := by
  intro other waits apart same
  rcases free with own | unused
  · rw [served.ids p member] at own
    exact apart (served.named.distinct other waits _ (timer_waits served member)
      (same.trans (Option.some.inj own).symm))
  · exact (unused_iff served.named).mp unused other waits same

/-- The timer of the entry was moved. -/
theorem moved_served {info' : TimernInfo}
    (served : Served hash callback table info idOf live timers agenda timerOf)
    (injective : Function.Injective callback) (member : p ∈ live)
    (named : Named info' (agenda.after (.moved (timerOf p) timeout))
      (timerOf p :: timers.erase (timerOf p)))
    (ids : ∀ other, other ≠ timerOf p → idAt info' other = idAt info other)
    (own : idOf' p = some (idAt info' (timerOf p))) (others : ∀ q ∈ live, q ≠ p → idOf' q = idOf q) :
    Served hash callback table info' idOf' live (timerOf p :: timers.erase (timerOf p))
      (agenda.after (.moved (timerOf p) timeout)) timerOf := by
  constructor
  · exact served.inRange
  · exact served.stores
  · exact paired_move served.paired (timerOf p) timeout
  · exact named
  · intro q inside
    by_cases same : q = p
    · rw [same, own]
    · have apart : timerOf q ≠ timerOf p := fun equal =>
        same (paired_apart served.paired injective inside member equal)
      rw [others q inside same, ids _ apart]
      exact served.ids q inside

/-- An update whose deadline lies ahead moves the timer of the entry. -/
theorem update_moves (served : Served hash callback table info idOf live timers agenda timerOf)
    (injective : Function.Injective callback) (member : p ∈ live)
    (later : info.uiCurrentTime < timeout)
    (window : timeout ≤ info.uiCurrentTime + N_DAY - ONE_MINUTE)
    (spare : Spare info timers (timerOf p) (movedId info (timerOf p) timeout))
    (own : idOf' p = some (movedId info (timerOf p) timeout))
    (others : ∀ q ∈ live, q ≠ p → idOf' q = idOf q) :
    ∃ info', timernUpdate info (idAt info (timerOf p)) timeout quiet =
        some (some (movedId info (timerOf p) timeout), info', [.moved (timerOf p) timeout]) ∧
      Served hash callback table info' idOf' live (timerOf p :: timers.erase (timerOf p))
        (agenda.after (.moved (timerOf p) timeout)) timerOf := by
  obtain ⟨info', updated, named, -, id, ids⟩ :=
    update_ahead served.named (timer_waits served member) later window spare
  rw [← id] at own
  exact ⟨info', updated, moved_served served injective member named ids own others⟩

/-- The table that is left without the entry. -/
structure Erased (hash : List UInt8 → Nat) (table : HashoInfo) (live : List Nat) (p : Nat)
    (table' : HashoInfo) : Prop where
  stores : Stores hash table' (live.erase p)
  sizes : table'.sizes = table.sizes
  keys : ∀ q ∈ live.erase p, table'.keyAt q = table.keyAt q

/-- An entry is taken out after its timer was. -/
theorem erase_served {info' : TimernInfo} {table' : HashoInfo}
    (served : Served hash callback table info idOf live timers agenda timerOf)
    (injective : Function.Injective callback) (member : p ∈ live)
    (named : Named info' (agenda.drop (timerOf p)) (timers.erase (timerOf p)))
    (ids : ∀ other, other ≠ timerOf p → idAt info' other = idAt info other)
    (erased : Erased hash table live p table') (others : ∀ q ∈ live, q ≠ p → idOf' q = idOf q) :
    Served hash callback table' info' idOf' (live.erase p) (timers.erase (timerOf p))
      (agenda.drop (timerOf p)) timerOf := by
  have distinct := served_distinct served
  constructor
  · exact in_range_congr erased.sizes served.inRange
  · exact erased.stores
  · exact paired_congr (paired_drop served.paired injective distinct member) erased.keys
  · exact named
  · intro q kept
    obtain ⟨apart, inside⟩ := distinct.mem_erase_iff.mp kept
    have away : timerOf q ≠ timerOf p := fun equal =>
      apart (paired_apart served.paired injective inside member equal)
    rw [others q inside apart, ids _ away]
    exact served.ids q inside

theorem del_erases (inRange : InRange hash table) (stores : Stores hash table live)
    (member : p ∈ live) :
    ∃ table', hashoDel hash table (table.keyAt p) = some table' ∧ Erased hash table live p table' := by
  obtain ⟨table', deleted, stores', sizes, keys⟩ := del_own stores inRange member
  exact ⟨table', deleted, stores', sizes, keys⟩

/-- The entry is deleted, and then its timer. -/
theorem delete_closes (served : Served hash callback table info idOf live timers agenda timerOf)
    (injective : Function.Injective callback) (member : p ∈ live)
    (others : ∀ q ∈ live, q ≠ p → idOf' q = idOf q) :
    ∃ table' info', hashoDel hash table (table.keyAt p) = some table' ∧
      timernDel info (idAt info (timerOf p)) = some (info', [.deleted (timerOf p)]) ∧
      Erased hash table live p table' ∧
      Served hash callback table' info' idOf' (live.erase p) (timers.erase (timerOf p))
        (agenda.drop (timerOf p)) timerOf := by
  obtain ⟨table', deleted, erased⟩ := del_erases served.inRange served.stores member
  obtain ⟨info', dropped, named, -, ids⟩ := del_named served.named (timer_waits served member)
  have after := erase_served served injective member named (fun other _ => ids other) erased others
  exact ⟨table', info', deleted, dropped, erased, after⟩

/-- An update whose deadline has passed runs the timer, whose callback is to delete the entry. -/
theorem update_closes (served : Served hash callback table info idOf live timers agenda timerOf)
    (injective : Function.Injective callback) (member : p ∈ live)
    (passed : timeout ≤ info.uiCurrentTime) :
    ∃ info', timernUpdate info (idAt info (timerOf p)) timeout quiet =
        some (none, info', [.ranLate (timerOf p) timeout (callback (table.keyAt p))]) ∧
      ∀ table' idOf', Erased hash table live p table' →
        (∀ q ∈ live, q ≠ p → idOf' q = idOf q) →
        Served hash callback table' info' idOf' (live.erase p) (timers.erase (timerOf p))
          (agenda.drop (timerOf p)) timerOf := by
  obtain ⟨info', updated, named, -, ids⟩ :=
    update_passed served.named (timer_waits served member) passed
  rw [timer_data served member] at updated
  exact ⟨info', updated, fun table' idOf' erased others =>
    erase_served served injective member named ids erased others⟩

/-- `malloc` gives a block that is not in use. -/
def Grants (malloc : List Nat → Option Nat) : Prop :=
  ∀ blocks, ∃ t, malloc blocks = some t ∧ t ≠ 0 ∧ t ∉ blocks

theorem next_block_grants : Grants nextBlock := by
  intro blocks
  exact ⟨_, rfl, next_block_fresh blocks _ rfl⟩

/-- The table with one entry more. -/
structure Added (hash : List UInt8 → Nat) (table : HashoInfo) (live : List Nat) (p : Nat)
    (pKey : List UInt8) (table' : HashoInfo) : Prop where
  fresh : p ∉ live
  stores : Stores hash table' (p :: live)
  sizes : table'.sizes = table.sizes
  key : table'.keyAt p = pKey
  keys : ∀ q ∈ live, table'.keyAt q = table.keyAt q

/-- A new entry is stored under an absent key. -/
theorem add_stores {pKey pData : List UInt8}
    (served : Served hash callback table info idOf live timers agenda timerOf)
    (keyLen : pKey.length = table.usKeyLen) (dataLen : pData.length = table.usDataLen)
    (absent : pKey ∉ live.map table.keyAt) (room : live.length < 5 * table.uiHashSize) :
    ∃ p table', hashoAdd hash table pKey pData = some (some p, table') ∧
      Added hash table live p pKey table' := by
  obtain ⟨p, table', added, stores, sizes, entries⟩ :=
    Hasho.add_room served.stores served.inRange keyLen dataLen absent room
  obtain ⟨own, others⟩ := List.cons.inj entries
  have fresh := (List.nodup_cons.mp stores.pool.distinct).1
  exact ⟨p, table', added, fresh, stores, sizes, (Prod.mk.inj own).1, entries_same others⟩

/-- The new entry has the new timer. -/
theorem added_served {table' : HashoInfo} {info' : TimernInfo} {pKey : List UInt8} {t : Nat}
    (served : Served hash callback table info idOf live timers agenda timerOf)
    (added : Added hash table live p pKey table') (block : t ∉ info.pstHASHGINFO.alloced)
    (named : Named info' (agenda.after (.accepted t timeout (callback pKey))) (t :: timers))
    (ids : ∀ other, other ≠ t → idAt info' other = idAt info other)
    (own : idOf' p = some (idAt info' t)) (others : ∀ q ∈ live, idOf' q = idOf q) :
    Served hash callback table' info' idOf' (p :: live) (t :: timers)
      (agenda.after (.accepted t timeout (callback pKey))) (Function.update timerOf p t) := by
  have loose : t ∉ timers := fun waits => block (served.named.keeps.linked.alloced t waits)
  have idle : agenda.pending t = none := by
    by_contra waits
    exact loose ((waiting served.named t).mp waits)
  refine ⟨in_range_congr added.sizes served.inRange, added.stores, ?_, named, ?_⟩
  · have pairs := paired_add served.paired added.fresh added.stores.keys added.keys idle timeout
    rw [added.key] at pairs
    exact pairs
  · intro q inside
    rcases List.mem_cons.mp inside with rfl | old
    · rw [own, Function.update_self]
    · have apart : q ≠ p := by
        rintro rfl
        exact added.fresh old
      have away : timerOf q ≠ t := fun same => loose (same ▸ timer_waits served old)
      rw [others q old, Function.update_of_ne apart, ids _ away]
      exact served.ids q old

/-- A new entry waits for the timer that it is given. -/
theorem add_waits {table' : HashoInfo} {pKey : List UInt8} {malloc : List Nat → Option Nat}
    (served : Served hash callback table info idOf live timers agenda timerOf)
    (injective : Function.Injective callback) (added : Added hash table live p pKey table')
    (later : info.uiCurrentTime < timeout)
    (window : timeout ≤ info.uiCurrentTime + N_DAY - ONE_MINUTE)
    (unused : Unused info (nextId info timeout))
    (grants : ∃ t, malloc info.pstHASHGINFO.alloced = some t ∧ t ≠ 0 ∧ t ∉ info.pstHASHGINFO.alloced)
    (few : live.length < 10 * N_DAY) (own : idOf' p = some (nextId info timeout))
    (others : ∀ q ∈ live, idOf' q = idOf q) :
    ∃ t info', timernAdd info (callback pKey) timeout malloc quiet =
        some (some (nextId info timeout), info', [.accepted t timeout (callback pKey)]) ∧
      Served hash callback table' info' idOf' (p :: live) (t :: timers)
        (agenda.after (.accepted t timeout (callback pKey))) (Function.update timerOf p t) := by
  obtain ⟨t, granted, block⟩ := grants
  have capacity : info.pstHASHGINFO.uiLinkedCnt < info.pstHASHGINFO.maxNodeCnt := by
    rw [served.named.keeps.linked.count, served.named.keeps.max,
      ← (timers_perm served injective).length_eq, List.length_map]
    exact few
  obtain ⟨info', accepted, named, -, id, ids⟩ := add_ahead served.named later window capacity
    ((unused_iff served.named).mp unused) granted block (callback pKey)
  rw [← id] at own
  exact ⟨t, info', accepted, added_served served added block.2 named ids own others⟩

/-- An entry that was added and deleted again leaves the others as they were. -/
theorem added_erased {table' table'' : HashoInfo} {pKey : List UInt8}
    (served : Served hash callback table info idOf live timers agenda timerOf)
    (added : Added hash table live p pKey table')
    (erased : Erased hash table' (p :: live) p table'') :
    Served hash callback table'' info idOf live timers agenda timerOf := by
  obtain ⟨stores, sizes, keys⟩ := erased
  rw [List.erase_cons_head] at stores keys
  constructor
  · exact in_range_congr (sizes.trans added.sizes) served.inRange
  · exact stores
  · exact paired_congr served.paired fun q inside => (keys q inside).trans (added.keys q inside)
  · exact served.named
  · exact served.ids

/-- A pass closes the entries whose timers it runs, where every callback closes its own. `Inv` is
what the state keeps while the timers are those that the pass leaves. -/
theorem pass_served {State : Type} {invoke : State → TimernData → Option State}
    {Inv : TimernInfo → State → List Nat → Prop} {tableOf : State → HashoInfo}
    {idsOf : State → Nat → Option TimernKey} (injective : Function.Injective callback)
    (served : Served hash callback table info idOf live timers agenda timerOf)
    {clock : Int} (early : 0 ≤ clock) (late : clock + 1 + N_DAY < 2 ^ 31)
    (start : TimernInfo → State) (inv : ∀ info', Inv info' (start info') live)
    (closes : ∀ info' state live p, Inv info' state live → p ∈ live →
      ∃ state', invoke state (callback (table.keyAt p)) = some state' ∧
        Inv info' state' (live.erase p))
    (stores : ∀ info' state live, Inv info' state live → Stores hash (tableOf state) live ∧
      (tableOf state).sizes = table.sizes ∧
      ∀ q ∈ live, (tableOf state).keyAt q = table.keyAt q ∧ idsOf state q = idOf q) :
    ∃ info' events state' live' timers',
      timernInvoke clock (fun _ _ => .done) info = some (info', events) ∧
      runCallbacks invoke (start info') events = some state' ∧ Inv info' state' live' ∧
      Served hash callback (tableOf state') info' (idsOf state') live' timers'
        (agenda.afterAll events) timerOf := by
  obtain ⟨info', events, timers', passed, timely, runs, keeps, positive, ids⟩ :=
    invoke_named served.named early late
  obtain ⟨state', live', invoked, inv', kept, paired⟩ := pass_closes injective (closes info')
    events (served_distinct served) (inv info') served.paired timely runs
  obtain ⟨stores', sizes, same⟩ := stores info' state' live' inv'
  -- the timers that wait after the pass are those of the entries that are left
  have waits : ∀ t ∈ timers', t ∈ timers := by
    intro t inside
    have pending := keeps.pending t
    rw [if_pos inside] at pending
    obtain ⟨p, member, rfl⟩ := paired.all t (by rw [pending]; exact Option.some_ne_none _)
    exact timer_waits served (kept.subset member)
  refine ⟨info', events, state', live', timers', passed, invoked, inv', ?_⟩
  constructor
  · exact in_range_congr sizes served.inRange
  · exact stores'
  · exact paired_congr paired fun q inside => (same q inside).1
  · refine ⟨keeps, positive, ?_⟩
    intro first inside second inside' equal
    apply served.named.distinct first (waits first inside) second (waits second inside')
    rw [← ids first, ← ids second]
    exact equal
  · intro q inside
    rw [(same q inside).2, ids]
    exact served.ids q (kept.subset inside)

end Entries

end Upst.TimedTable
