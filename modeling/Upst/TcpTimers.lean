import Upst.TcpCount
import Upst.TimedTable

/-!
The timers of the sessions. Every session of the table has one timer that waits, with the
session's key for its argument and under the id that the session keeps, and no other timer waits;
this holds as long as every timer that a session asks for is given, under an id of its own.
-/

namespace Upst.Tcp

open Bytes Word Hasho Hashg Timern Deadlines Interleave
open TimedTable (Served served_ids Spare own_spare Grants Erased Added key_gone erase_served moved_served
  added_served)

set_option autoImplicit false

/-- Each session has one timer that waits, and each timer that waits has one session. -/
def TcpState.Timed (hash : List UInt8 → Nat) (state : TcpState) : Prop :=
  ∃ live timers timerOf, Stores hash state.pTCPHASH live ∧
    Linked state.pTIMER.pstHASHGINFO timers ∧ (live.map timerOf).Perm timers ∧
    ∀ p ∈ live, (state.sess p).timerNID = some (idAt state.pTIMER (timerOf p)) ∧
      (state.pTIMER.pstHASHGINFO.node (timerOf p)).pstData =
        invokeDelData (state.pTCPHASH.keyAt p)

theorem invoke_del_data_injective : Function.Injective invokeDelData :=
  fun _ _ same => (TimernData.mk.inj same).2

section Close

variable {hash : List UInt8 → Nat} {state : TcpState} {table : HashoInfo} {live : List Nat} {p : Nat}

/-- The table whose sessions are `live`. -/
structure Holds (hash : List UInt8 → Nat) (table : HashoInfo) (live : List Nat) : Prop where
  inRange : InRange hash table
  keyLen : table.usKeyLen = TCP_SESS_KEY_SIZE
  stores : Stores hash table live

theorem Holds.erase {table' : HashoInfo} (holds : Holds hash table live)
    (erased : Erased hash table live p table') : Holds hash table' (live.erase p) where
  inRange := in_range_congr erased.sizes holds.inRange
  keyLen := (congrArg HashoSizes.usKeyLen erased.sizes).trans holds.keyLen
  stores := erased.stores

theorem Holds.add {table' : HashoInfo} {key : List UInt8} (holds : Holds hash table live)
    (added : Added hash table live p key table') : Holds hash table' (p :: live) where
  inRange := in_range_congr added.sizes holds.inRange
  keyLen := (congrArg HashoSizes.usKeyLen added.sizes).trans holds.keyLen
  stores := added.stores

theorem close_own (holds : Holds hash state.pTCPHASH live) (member : p ∈ live) :
    ∃ table, dCloseSession hash state (state.pTCPHASH.keyAt p) =
        some { state with curSessCnt := u64Pred state.curSessCnt, pTCPHASH := table } ∧
      Erased hash state.pTCPHASH live p table := by
  obtain ⟨table, deleted, erased⟩ := TimedTable.del_erases holds.inRange holds.stores member
  refine ⟨table, ?_, erased⟩
  rw [dCloseSession, deleted]
  rfl

theorem close_absent (holds : Holds hash state.pTCPHASH live) {key : List UInt8}
    (length : key.length = TCP_SESS_KEY_SIZE)
    (absent : key ∉ live.map state.pTCPHASH.keyAt) :
    dCloseSession hash state key = some { state with curSessCnt := u64Pred state.curSessCnt } := by
  rw [dCloseSession, del_absent holds.stores holds.inRange (length.trans holds.keyLen.symm) absent]
  rfl

theorem common_key_own (holds : Holds hash table live) (p : Nat) :
    commonKey (table.keyAt p) = table.keyAt p := by
  have length := (Hasho.key_length table p).trans holds.keyLen
  have whole (key : List UInt8) : (List.range key.length).map (fun i => key.getD i 0) = key := by
    apply List.ext_getElem
    · simp
    · intro i before after
      simp [List.getElem?_eq_getElem after]
  have read : commonKey (table.keyAt p) =
      (List.range TCP_SESS_KEY_SIZE).map fun i => (table.keyAt p).getD i 0 := by
    simp only [commonKey, readBytes, Nat.zero_add]
  rw [read, ← length, whole]

/-- The callback closes the session whose key it is given. -/
theorem invoke_own (holds : Holds hash state.pTCPHASH live) (member : p ∈ live) :
    ∃ state', invokeDel hash state (state.pTCPHASH.keyAt p) = some state' ∧
      Erased hash state.pTCPHASH live p state'.pTCPHASH ∧
      state'.pTIMER = state.pTIMER ∧ Ended (state.sess p) (state'.sess p) ∧
      ∀ q, q ≠ p → state'.sess q = state.sess q := by
  let sess :=
    if (state.sess p).ucEndStatus ≠ .rst then { state.sess p with ucEndStatus := .longLast }
    else state.sess p
  obtain ⟨table, closed, erased⟩ := @close_own _ (state.setSess p sess) _ _ holds member
  refine ⟨{ state.setSess p sess with curSessCnt := u64Pred state.curSessCnt, pTCPHASH := table },
    ?_, erased, rfl, ?_, fun q other => Function.update_of_ne other ..⟩
  · rw [invokeDel, common_key_own holds, find_own holds.stores holds.inRange member]
    exact closed
  · show Ended (state.sess p) (Function.update state.sess p sess p)
    rw [Function.update_self]
    dsimp only [sess]
    split
    · exact Or.inr rfl
    · exact Or.inl rfl

end Close

variable {hash : List UInt8 → Nat} {state : TcpState} {live timers : List Nat}
  {agenda : Agenda Nat TimernData} {timerOf : Nat → Nat}

section Bound

/-- The sessions `live` with their timers. -/
structure Bound (hash : List UInt8 → Nat) (state : TcpState) (live timers : List Nat)
    (agenda : Agenda Nat TimernData) (timerOf : Nat → Nat) : Prop where
  served : Served hash invokeDelData state.pTCPHASH state.pTIMER (fun p => (state.sess p).timerNID)
    live timers agenda timerOf
  keyLen : state.pTCPHASH.usKeyLen = TCP_SESS_KEY_SIZE
  within : timers.length ≤ 10 * N_DAY

def TcpState.Bound (hash : List UInt8 → Nat) (state : TcpState) : Prop :=
  ∃ live timers agenda timerOf, Tcp.Bound hash state live timers agenda timerOf

variable {p : Nat}

theorem Bound.holds (bound : Bound hash state live timers agenda timerOf) :
    Holds hash state.pTCPHASH live :=
  ⟨bound.served.inRange, bound.keyLen, bound.served.stores⟩

theorem timer_waits (bound : Bound hash state live timers agenda timerOf) (member : p ∈ live) :
    timerOf p ∈ timers :=
  TimedTable.timer_waits bound.served member

theorem timer_key (bound : Bound hash state live timers agenda timerOf) (member : p ∈ live) :
    timerKey (state.sess p).timerNID = idAt state.pTIMER (timerOf p) := by
  rw [bound.served.ids p member]
  rfl

/-- The pairs are a bijection. -/
theorem bound_timed (bound : Bound hash state live timers agenda timerOf) : state.Timed hash :=
  ⟨live, timers, timerOf, bound.served.stores, bound.served.named.keeps.linked,
    TimedTable.timers_perm bound.served invoke_del_data_injective,
    fun p member => ⟨bound.served.ids p member, TimedTable.timer_data bound.served member⟩⟩

/-- A record of a session may change, but for its timer, and any record that is of none. -/
theorem bound_set (bound : Bound hash state live timers agenda timerOf) {sess : TcpSess}
    (same : p ∈ live → sess.timerNID = (state.sess p).timerNID) :
    Bound hash (state.setSess p sess) live timers agenda timerOf := by
  refine ⟨served_ids bound.served fun q member => ?_, bound.keyLen, bound.within⟩
  show (Function.update state.sess p sess q).timerNID = _
  by_cases own : q = p
  · subst own
    rw [Function.update_self, same member]
  · rw [Function.update_of_ne own]

/-- A session is closed and its timer deleted. -/
theorem close_bound (bound : Bound hash state live timers agenda timerOf) (member : p ∈ live) :
    ∃ state₁ state', dCloseSession hash state (state.pTCPHASH.keyAt p) = some state₁ ∧
      timerDel state₁ p = some state' ∧
      Bound hash state' (live.erase p) (timers.erase (timerOf p)) (agenda.drop (timerOf p)) timerOf ∧
      (∀ q ∈ live.erase p, state'.pTCPHASH.keyAt q = state.pTCPHASH.keyAt q) ∧
      state'.sess = state.sess ∧ (∀ t, idAt state'.pTIMER t = idAt state.pTIMER t) ∧
      state'.pTIMER.clock = state.pTIMER.clock := by
  obtain ⟨table, closed, erased⟩ := close_own bound.holds member
  obtain ⟨info, deleted, named, clock, ids⟩ := del_named bound.served.named (timer_waits bound member)
  refine ⟨_, { state with
    curSessCnt := u64Pred state.curSessCnt
    pTCPHASH := table
    pTIMER := info }, closed, ?_, ⟨?_, (bound.holds.erase erased).keyLen, ?_⟩, erased.keys, rfl, ids,
    clock⟩
  · rw [timerDel]
    dsimp only
    rw [timer_key bound member, deleted]
    rfl
  · exact erase_served bound.served invoke_del_data_injective member named (fun other _ => ids other)
      erased fun _ _ _ => rfl
  · exact Nat.le_trans List.length_erase_le bound.within

/-- A session without a timer has none to delete or to update. -/
theorem del_nothing (bound : Bound hash state live timers agenda timerOf)
    (nothing : (state.sess p).timerNID = none) : timerDel state p = some state := by
  have unknown := del_unknown (zero_unused bound.served.named)
  rw [timerDel, nothing]
  dsimp only [timerKey, Option.getD_none]
  rw [unknown]
  rfl

theorem update_nothing (bound : Bound hash state live timers agenda timerOf)
    (nothing : (state.sess p).timerNID = none) (timeout : Int) :
    timerUpdate hash state p timeout = some (state.setSess p (state.sess p)) := by
  have unknown := update_unknown (zero_unused bound.served.named) timeout fun timer => some (timer, [])
  rw [timerUpdate, nothing]
  dsimp only [timerKey, Option.getD_none]
  rw [unknown]
  have same : { state.sess p with timerNID := none } = state.sess p := by rw [← nothing]
  simp only [Option.bind_eq_bind, Option.bind_some, runInvoked, List.foldlM_nil]
  exact congrArg (fun sess => some (state.setSess p sess)) same

end Bound

section Update

variable {p : Nat} {timeout : Int}

/-- What a session and its timer are after an update whose deadline lies ahead. -/
theorem update_waits (bound : Bound hash state live timers agenda timerOf) (member : p ∈ live)
    (later : state.pTIMER.uiCurrentTime < timeout)
    (window : timeout ≤ state.pTIMER.uiCurrentTime + N_DAY - ONE_MINUTE)
    (spare : Spare state.pTIMER timers (timerOf p) (movedId state.pTIMER (timerOf p) timeout)) :
    ∃ info, timerUpdate hash state p timeout = some ((state.setTimer info).setSess p
        { state.sess p with timerNID := some (movedId state.pTIMER (timerOf p) timeout) }) ∧
      Bound hash ((state.setTimer info).setSess p
        { state.sess p with timerNID := some (movedId state.pTIMER (timerOf p) timeout) })
        live (timerOf p :: timers.erase (timerOf p)) (agenda.after (.moved (timerOf p) timeout))
        timerOf ∧
      info.clock = state.pTIMER.clock ∧
      idAt info (timerOf p) = movedId state.pTIMER (timerOf p) timeout ∧
      ∀ other, other ≠ timerOf p → idAt info other = idAt state.pTIMER other := by
  have waits := timer_waits bound member
  obtain ⟨info, updated, named, clock, own, others⟩ :=
    update_ahead bound.served.named waits later window spare
  refine ⟨info, ?_, ⟨?_, bound.keyLen, ?_⟩, clock, own, others⟩
  · rw [timerUpdate, timer_key bound member]
    have call := updated
    unfold quiet at call
    rw [call]
    rfl
  · apply moved_served bound.served invoke_del_data_injective member named others
    · show (Function.update state.sess p _ p).timerNID = _
      rw [Function.update_self, own]
    · intro q _ apart
      show (Function.update state.sess p _ q).timerNID = _
      rw [Function.update_of_ne apart]
  · have whole := (List.perm_cons_erase waits).length_eq
    rw [← whole]
    exact bound.within

/-- An update whose deadline has passed closes the session. -/
theorem update_closes (bound : Bound hash state live timers agenda timerOf) (member : p ∈ live)
    (passed : timeout ≤ state.pTIMER.uiCurrentTime) :
    ∃ state' sess, timerUpdate hash state p timeout = some state' ∧
      Bound hash state' (live.erase p) (timers.erase (timerOf p)) (agenda.drop (timerOf p)) timerOf ∧
      (∀ q ∈ live.erase p, state'.pTCPHASH.keyAt q = state.pTCPHASH.keyAt q) ∧
      Ended (state.sess p) sess ∧ state'.sess p = { sess with timerNID := none } ∧
      state'.pTIMER.clock = state.pTIMER.clock ∧
      ∀ other, other ≠ timerOf p → idAt state'.pTIMER other = idAt state.pTIMER other := by
  obtain ⟨info, updated, named, clock, others⟩ :=
    update_passed bound.served.named (timer_waits bound member) passed
  obtain ⟨state₁, invoked, erased, timer, ended, sesses⟩ :=
    @invoke_own _ (state.setTimer info) _ _ bound.holds member
  refine ⟨state₁.setSess p { state₁.sess p with timerNID := none }, state₁.sess p, ?_,
    ⟨?_, (bound.holds.erase erased).keyLen, ?_⟩, erased.keys, ended, set_sess_own .., ?_, ?_⟩
  · rw [timerUpdate, timer_key bound member]
    have call := updated
    unfold quiet at call
    rw [call, TimedTable.timer_data bound.served member]
    simp only [Option.bind_eq_bind, Option.bind_some, runInvoked, List.foldlM_cons,
      List.foldlM_nil, Event.invoked]
    have closes : (invokeDelData (state.pTCPHASH.keyAt p)).arg = state.pTCPHASH.keyAt p := rfl
    have invoked' : invokeDel hash (state.setTimer info) (state.pTCPHASH.keyAt p) = some state₁ :=
      invoked
    rw [closes, invoked']
    rfl
  · show Served hash invokeDelData state₁.pTCPHASH state₁.pTIMER _ _ _ _ _
    rw [timer]
    apply erase_served bound.served invoke_del_data_injective member named others erased
    intro q _ apart
    show (Function.update state₁.sess p _ q).timerNID = _
    rw [Function.update_of_ne apart, sesses q apart]
    rfl
  · exact Nat.le_trans List.length_erase_le bound.within
  · show state₁.pTIMER.clock = _
    rw [timer]
    exact clock
  · intro other away
    show idAt state₁.pTIMER other = _
    rw [timer]
    exact others other away

end Update

section Create

variable {key : List UInt8} {packet : Packet} {control : Control} {supply : Supply}

theorem create_asks {p : Nat} {table : HashoInfo} (logs : supply.Logs)
    (added : hashoAdd hash state.pTCPHASH key (List.replicate state.pTCPHASH.usDataLen 0) =
      some (some p, table)) :
    pCreateSession hash state key packet control supply = (do
      let (timerNID, timer, events) ← timernAdd state.pTIMER (invokeDelData key)
        supply.createTimeout supply.malloc quiet
      let state := { state with
        curSessCnt := u64 (state.curSessCnt + 1)
        pTCPHASH := table
        sess := Function.update state.sess p (newSession packet control) }
      let state ← runInvoked hash (state.setTimer timer) events
      some (some p, state.setSess p { state.sess p with timerNID := timerNID })) := by
  rw [pCreateSession]
  simp only [logs.1, logs.2, not_true_eq_false, if_false, added, Option.bind_eq_bind,
    Option.bind_some]
  rfl

/-- The session waits for the deadline of its timer. -/
theorem create_waits (bound : Bound hash state live timers agenda timerOf)
    (length : key.length = TCP_SESS_KEY_SIZE) (absent : key ∉ live.map state.pTCPHASH.keyAt)
    (room : live.length < 5 * state.pTCPHASH.uiHashSize) (logs : supply.Logs)
    (later : state.pTIMER.uiCurrentTime < supply.createTimeout)
    (window : supply.createTimeout ≤ state.pTIMER.uiCurrentTime + N_DAY - ONE_MINUTE)
    (unused : ∀ other ∈ timers, idAt state.pTIMER other ≠ nextId state.pTIMER supply.createTimeout)
    (grants : Grants supply.malloc) (few : timers.length < 10 * N_DAY) :
    ∃ p t state', pCreateSession hash state key packet control supply = some (some p, state') ∧
      Bound hash state' (p :: live) (t :: timers)
        (agenda.after (.accepted t supply.createTimeout (invokeDelData key)))
        (Function.update timerOf p t) ∧
      state'.sess p = { newSession packet control with
        timerNID := some (nextId state.pTIMER supply.createTimeout) } ∧
      state'.pTCPHASH.keyAt p = key ∧ state'.pTCPHASH.sizes = state.pTCPHASH.sizes ∧
      (∀ q ∈ live, state'.pTCPHASH.keyAt q = state.pTCPHASH.keyAt q) ∧
      state'.pTIMER.clock =
        (state.pTIMER.uiCurrentTime, u32 (state.pTIMER.uiTimerNIdIndex + 1)) ∧
      ∀ other ∈ timers, idAt state'.pTIMER other = idAt state.pTIMER other := by
  obtain ⟨p, table, stored, added⟩ := TimedTable.add_stores bound.served
    (length.trans bound.keyLen.symm) List.length_replicate absent room
  obtain ⟨t, granted, fresh⟩ := grants state.pTIMER.pstHASHGINFO.alloced
  have capacity : state.pTIMER.pstHASHGINFO.uiLinkedCnt < state.pTIMER.pstHASHGINFO.maxNodeCnt := by
    rw [bound.served.named.keeps.linked.count, bound.served.named.keeps.max]
    exact few
  obtain ⟨info, accepted, named, clock, id, ids⟩ := add_ahead bound.served.named later window capacity
    unused granted fresh (invokeDelData key)
  have loose : t ∉ timers := fun waits => fresh.2 (bound.served.named.keeps.linked.alloced t waits)
  let sess : TcpSess := { newSession packet control with
    timerNID := some (nextId state.pTIMER supply.createTimeout) }
  let opened : TcpState := { state with
    curSessCnt := u64 (state.curSessCnt + 1)
    pTCPHASH := table
    sess := Function.update state.sess p (newSession packet control)
    pTIMER := info }
  have first : opened.sess p = newSession packet control := Function.update_self ..
  have record : (opened.setSess p sess).sess p = sess := Function.update_self ..
  refine ⟨p, t, opened.setSess p sess, ?_, ⟨?_, (bound.holds.add added).keyLen, few⟩, record, added.key,
    added.sizes, added.keys, clock, fun other waits => ids other fun same => loose (same ▸ waits)⟩
  · rw [create_asks logs stored, accepted]
    show some (some p, opened.setSess p { opened.sess p with
      timerNID := some (nextId state.pTIMER supply.createTimeout) }) = _
    rw [first]
  · apply added_served bound.served added fresh.2 named ids
    · rw [record, id]
    · intro q old
      have new : q ≠ p := by
        rintro rfl
        exact added.fresh old
      have kept : (opened.setSess p sess).sess q = state.sess q :=
        (Function.update_of_ne new ..).trans (Function.update_of_ne new ..)
      rw [kept]

/-- The timer runs at once and closes the session. -/
theorem create_closes (bound : Bound hash state live timers agenda timerOf)
    (length : key.length = TCP_SESS_KEY_SIZE) (absent : key ∉ live.map state.pTCPHASH.keyAt)
    (room : live.length < 5 * state.pTCPHASH.uiHashSize) (logs : supply.Logs)
    (passed : supply.createTimeout ≤ state.pTIMER.uiCurrentTime) :
    ∃ p state', pCreateSession hash state key packet control supply = some (some p, state') ∧
      Bound hash state' live timers agenda timerOf ∧ (state'.sess p).ucEndStatus = .longLast := by
  obtain ⟨p, table, stored, added⟩ := TimedTable.add_stores bound.served
    (length.trans bound.keyLen.symm) List.length_replicate absent room
  have holds := bound.holds.add added
  let opened : TcpState := { state with
    curSessCnt := u64 (state.curSessCnt + 1)
    pTCPHASH := table
    sess := Function.update state.sess p (newSession packet control) }
  have first : opened.sess p = newSession packet control := Function.update_self ..
  have member : p ∈ p :: live := List.mem_cons_self
  let closing : TcpSess := { newSession packet control with ucEndStatus := .longLast }
  obtain ⟨table', closed, erased⟩ := @close_own _ (opened.setSess p closing) _ _ holds member
  let shut : TcpState := { opened.setSess p closing with
    curSessCnt := u64Pred opened.curSessCnt
    pTCPHASH := table' }
  have invoked : invokeDel hash opened key = some shut := by
    rw [← added.key, invokeDel, common_key_own holds, find_own holds.stores holds.inRange member]
    simp only [Option.bind_eq_bind, Option.bind_some, first]
    exact closed
  have record : shut.sess p = closing := Function.update_self ..
  refine ⟨p, shut.setSess p { shut.sess p with timerNID := none }, ?_,
    ⟨?_, (holds.erase erased).keyLen, bound.within⟩, ?_⟩
  · rw [create_asks logs stored, add_passed passed]
    simp only [Option.bind_eq_bind, Option.bind_some]
    rw [runInvoked, List.foldlM_cons]
    have call : invokeDel hash ({ state with
        curSessCnt := u64 (state.curSessCnt + 1)
        pTCPHASH := table
        sess := Function.update state.sess p (newSession packet control) } : TcpState) key =
          some shut := invoked
    simp only [Event.invoked, invokeDelData, TcpState.setTimer, Option.bind_eq_bind, call]
    rfl
  · apply served_ids (TimedTable.added_erased bound.served added erased)
    intro q inside
    have other : q ≠ p := by
      rintro rfl
      exact added.fresh inside
    have kept : (shut.setSess p { shut.sess p with timerNID := none }).sess q = state.sess q :=
      (Function.update_of_ne other ..).trans ((Function.update_of_ne other ..).trans
        (Function.update_of_ne other ..))
    rw [kept]
  · rw [set_sess_own, record]

/-- What a new session needs of the timers: where its deadline lies ahead, it gets a timer under
an id that no other has. -/
def Opens (state : TcpState) (timers : List Nat) (supply : Supply) : Prop :=
  state.pTIMER.uiCurrentTime < supply.createTimeout →
    supply.createTimeout ≤ state.pTIMER.uiCurrentTime + N_DAY - ONE_MINUTE ∧
      (∀ other ∈ timers, idAt state.pTIMER other ≠ nextId state.pTIMER supply.createTimeout) ∧
      Grants supply.malloc ∧ timers.length < 10 * N_DAY

theorem create_bound (bound : Bound hash state live timers agenda timerOf)
    (length : key.length = TCP_SESS_KEY_SIZE) (absent : key ∉ live.map state.pTCPHASH.keyAt)
    (opens : supply.Logs → live.length < 5 * state.pTCPHASH.uiHashSize → Opens state timers supply) :
    ∃ created state', pCreateSession hash state key packet control supply = some (created, state') ∧
      state'.Bound hash ∧ ∀ p, created = some p →
        (state'.sess p).ucEndStatus ≠ .normal ∧ (state'.sess p).ucEndStatus ≠ .rst := by
  have counted : Bound hash { state with curSessCnt := u64 (state.curSessCnt + 1) } live timers agenda
      timerOf := ⟨bound.served, bound.keyLen, bound.within⟩
  by_cases node : supply.logNode = true
  · by_cases tlv : supply.logTlv = true
    · by_cases full : live.length = 5 * state.pTCPHASH.uiHashSize
      · refine ⟨none, { state with curSessCnt := u64 (state.curSessCnt + 1) }, ?_,
          ⟨live, timers, agenda, timerOf, counted⟩, fun p absurd => by cases absurd⟩
        rw [pCreateSession]
        simp only [node, tlv, not_true_eq_false, if_false]
        rw [Hasho.add_full bound.holds.stores bound.holds.inRange
          (length.trans bound.holds.keyLen.symm) absent full]
        rfl
      · have room : live.length < 5 * state.pTCPHASH.uiHashSize := by
          have within := Hasho.live_length_le bound.holds.stores.pool
          rw [bound.holds.stores.total] at within
          exact Nat.lt_of_le_of_ne within full
        have logs : supply.Logs := ⟨node, tlv⟩
        by_cases passed : supply.createTimeout ≤ state.pTIMER.uiCurrentTime
        · obtain ⟨p, state', created, bound', status⟩ :=
            @create_closes _ _ _ _ _ _ _ packet control _ bound length absent room logs passed
          refine ⟨some p, state', created, ⟨live, timers, agenda, timerOf, bound'⟩, ?_⟩
          rintro _ ⟨⟩
          rw [status]
          exact ⟨EndStatus.noConfusion, EndStatus.noConfusion⟩
        · have later := Int.lt_of_not_ge passed
          obtain ⟨window, unused, grants, few⟩ := opens logs room later
          obtain ⟨p, t, state', created, bound', record, -⟩ := @create_waits _ _ _ _ _ _ _ packet
            control _ bound length absent room logs later window unused grants few
          refine ⟨some p, state', created, ⟨_, _, _, _, bound'⟩, ?_⟩
          rintro _ ⟨⟩
          rw [record]
          exact ⟨EndStatus.noConfusion, EndStatus.noConfusion⟩
    · refine ⟨none, { state with curSessCnt := u64 (state.curSessCnt + 1) }, ?_,
        ⟨live, timers, agenda, timerOf, counted⟩, fun p absurd => by cases absurd⟩
      rw [pCreateSession]
      simp only [node, tlv, not_true_eq_false, not_false_eq_true, if_false, if_true,
        Bool.false_eq_true]
  · refine ⟨none, { state with curSessCnt := u64 (state.curSessCnt + 1) }, ?_,
      ⟨live, timers, agenda, timerOf, counted⟩, fun p absurd => by cases absurd⟩
    rw [pCreateSession]
    simp only [node, not_false_eq_true, if_true, Bool.false_eq_true]

/-- A new session goes on as it is. -/
theorem new_bound (bound : Bound hash state live timers agenda timerOf)
    (length : key.length = TCP_SESS_KEY_SIZE) (absent : key ∉ live.map state.pTCPHASH.keyAt)
    (opens : supply.Logs → live.length < 5 * state.pTCPHASH.uiHashSize → Opens state timers supply) :
    ∃ state', procNew hash state key packet control supply = some state' ∧ state'.Bound hash := by
  obtain ⟨created, state', creates, bound', status⟩ :=
    @create_bound _ _ _ _ _ _ _ packet control _ bound length absent opens
  refine ⟨state', ?_, bound'⟩
  rw [procNew, creates]
  simp only [Option.bind_eq_bind, Option.bind_some]
  cases created with
  | none => rfl
  | some p =>
      obtain ⟨notNormal, notRst⟩ := status p rfl
      have ends : procEnd hash state' key p supply = some state' := by
        rw [procEnd]
        cases ended : (state'.sess p).ucEndStatus with
        | normal => exact absurd ended notNormal
        | rst => exact absurd ended notRst
        | «open» => rfl
        | abnormal => rfl
        | longLast => rfl
      dsimp only
      rw [ends, ite_self]

end Create

section Verdict

variable {packet : Packet}

/-- A callback does not make a packet renew the session. -/
theorem renew_ended {sess sess' : TcpSess} (ended : Ended sess sess')
    (renews : sess'.verdict packet = .renew) : sess.verdict packet = .renew := by
  rcases ended with rfl | rfl
  · exact renews
  · rw [TcpSess.verdict] at renews ⊢
    cases control : getTCPControl packet.nControlType with
    | syn =>
        rw [control] at renews
        simp only [TcpSess.onSyn] at renews ⊢
        grind
    | synAck =>
        rw [control] at renews
        simp only [TcpSess.onSynAck] at renews ⊢
        grind
    | rst =>
        rw [control] at renews
        cases renews
    | fin =>
        rw [control] at renews
        cases renews
    | ack =>
        rw [control] at renews
        cases renews
    | other =>
        rw [control] at renews
        cases renews

end Verdict

section Conditions

variable {p : Nat} {timeout : Int}

/-- No timer that waits has the id. -/
def TcpState.Unused (state : TcpState) (id : TimernKey) : Prop :=
  hashgFind state.pTIMER.pstHASHGINFO id = some none

/-- Where the deadline lies ahead, the session's timer can be moved to it: the deadline is in the
window, and the id that it makes is the session's own or is not in use. -/
def TcpState.Moves (state : TcpState) (p : Nat) (timeout : Int) : Prop :=
  state.pTIMER.uiCurrentTime < timeout →
    timeout ≤ state.pTIMER.uiCurrentTime + N_DAY - ONE_MINUTE ∧
      ((state.sess p).timerNID =
          some { timerKey (state.sess p).timerNID with sTimeKey := s32 timeout } ∨
        state.Unused { timerKey (state.sess p).timerNID with sTimeKey := s32 timeout })

/-- Where the deadline of a new session lies ahead, it can have a timer: the deadline is in the
window, `malloc` has a block, and the next id is `old` or is not in use. -/
def TcpState.Gives (state : TcpState) (supply : Supply) (old : Option TimernKey) : Prop :=
  state.pTIMER.uiCurrentTime < supply.createTimeout →
    supply.createTimeout ≤ state.pTIMER.uiCurrentTime + N_DAY - ONE_MINUTE ∧
      Grants supply.malloc ∧
        (old = some (nextId state.pTIMER supply.createTimeout) ∨
          state.Unused (nextId state.pTIMER supply.createTimeout))

theorem moves_spare (bound : Bound hash state live timers agenda timerOf) (member : p ∈ live)
    (moves : state.Moves p timeout) (later : state.pTIMER.uiCurrentTime < timeout) :
    timeout ≤ state.pTIMER.uiCurrentTime + N_DAY - ONE_MINUTE ∧
      Spare state.pTIMER timers (timerOf p) (movedId state.pTIMER (timerOf p) timeout) := by
  obtain ⟨window, free⟩ := moves later
  rw [timer_key bound member] at free
  exact ⟨window, own_spare bound.served member free⟩

end Conditions

section Packets

variable {p : Nat} {key : List UInt8} {packet : Packet} {supply : Supply}

/-- The end of a packet of a session that is in the table. -/
theorem end_bound (bound : Bound hash state live timers agenda timerOf) (member : p ∈ live)
    (own : state.pTCPHASH.keyAt p = key)
    (resets : (state.sess p).ucEndStatus = .rst →
      state.pTIMER.uiCurrentTime < supply.rstTimeout →
        supply.rstTimeout ≤ state.pTIMER.uiCurrentTime + N_DAY - ONE_MINUTE ∧
          Spare state.pTIMER timers (timerOf p) (movedId state.pTIMER (timerOf p) supply.rstTimeout)) :
    ∃ state', procEnd hash state key p supply = some state' ∧ state'.Bound hash := by
  subst own
  have same : state.Bound hash := ⟨live, timers, agenda, timerOf, bound⟩
  rw [procEnd]
  cases ended : (state.sess p).ucEndStatus with
  | normal =>
      obtain ⟨state₁, state', closed, deleted, bound', -⟩ := close_bound bound member
      refine ⟨state', ?_, _, _, _, _, bound'⟩
      simp only [closed, Option.bind_eq_bind, Option.bind_some, deleted]
  | rst =>
      by_cases passed : supply.rstTimeout ≤ state.pTIMER.uiCurrentTime
      · obtain ⟨state', -, updated, bound', -⟩ := update_closes bound member passed
        exact ⟨state', updated, _, _, _, _, bound'⟩
      · have later := Int.lt_of_not_ge passed
        obtain ⟨window, spare⟩ := resets ended later
        obtain ⟨info, updated, bound', -⟩ := update_waits bound member later window spare
        exact ⟨_, updated, _, _, _, _, bound'⟩
  | «open» => exact ⟨state, rfl, same⟩
  | abnormal => exact ⟨state, rfl, same⟩
  | longLast => exact ⟨state, rfl, same⟩

/-- The end of a packet of a session that its timer has closed. -/
theorem end_closed (bound : Bound hash state live timers agenda timerOf)
    (nothing : (state.sess p).timerNID = none) (gone : p ∉ live)
    (length : key.length = TCP_SESS_KEY_SIZE) (absent : key ∉ live.map state.pTCPHASH.keyAt) :
    ∃ state', procEnd hash state key p supply = some state' ∧ state'.Bound hash := by
  have same : state.Bound hash := ⟨live, timers, agenda, timerOf, bound⟩
  rw [procEnd]
  cases ended : (state.sess p).ucEndStatus with
  | normal =>
      have counted : Bound hash { state with curSessCnt := u64Pred state.curSessCnt } live timers
          agenda timerOf := ⟨bound.served, bound.keyLen, bound.within⟩
      refine ⟨_, ?_, live, timers, agenda, timerOf, counted⟩
      simp only [close_absent bound.holds length absent, Option.bind_eq_bind, Option.bind_some]
      exact del_nothing counted nothing
  | rst =>
      exact ⟨_, update_nothing bound nothing _, live, timers, agenda, timerOf,
        bound_set bound fun member => absurd member gone⟩
  | «open» => exact ⟨state, rfl, same⟩
  | abnormal => exact ⟨state, rfl, same⟩
  | longLast => exact ⟨state, rfl, same⟩

/-- A session is closed, its timer deleted, and another session created under its key. -/
theorem renew_own (bound : Bound hash state live timers agenda timerOf) (member : p ∈ live)
    (length : (state.pTCPHASH.keyAt p).length = TCP_SESS_KEY_SIZE) {control : Control}
    (gives : supply.Logs → state.pTIMER.uiCurrentTime < supply.createTimeout →
      supply.createTimeout ≤ state.pTIMER.uiCurrentTime + N_DAY - ONE_MINUTE ∧
        Grants supply.malloc ∧
          Spare state.pTIMER timers (timerOf p) (nextId state.pTIMER supply.createTimeout)) :
    ∃ state₁ state₂ state', dCloseSession hash state (state.pTCPHASH.keyAt p) = some state₁ ∧
      timerDel state₁ p = some state₂ ∧
      procNew hash state₂ (state.pTCPHASH.keyAt p) packet control supply = some state' ∧
      state'.Bound hash := by
  obtain ⟨state₁, state₂, closed, deleted, bound₂, keys, -, ids, clock⟩ := close_bound bound member
  have absent : state.pTCPHASH.keyAt p ∉ (live.erase p).map state₂.pTCPHASH.keyAt := by
    rw [List.map_congr_left keys]
    exact key_gone bound.served.paired.keys (TimedTable.served_distinct bound.served) member
  have now : state₂.pTIMER.uiCurrentTime = state.pTIMER.uiCurrentTime := (Prod.mk.inj clock).1
  have next : nextId state₂.pTIMER supply.createTimeout = nextId state.pTIMER supply.createTimeout :=
    by rw [nextId, nextId, (Prod.mk.inj clock).2]
  obtain ⟨state', created, bound'⟩ := @new_bound _ _ _ _ _ _ _ packet control supply bound₂ length
    absent (by
      intro logs _ later
      rw [now] at later ⊢
      obtain ⟨window, grants, spare⟩ := gives logs later
      refine ⟨window, ?_, grants, ?_⟩
      · intro other kept
        obtain ⟨apart, waits⟩ := bound.served.named.keeps.linked.distinct.mem_erase_iff.mp kept
        rw [ids, next]
        exact spare other waits apart
      · have fewer := List.length_erase_of_mem (timer_waits bound member)
        have some := List.length_pos_of_mem (timer_waits bound member)
        have within := bound.within
        omega)
  exact ⟨state₁, state₂, state', closed, deleted, created, bound'⟩

/-- A packet finds each timer that it asks for. -/
def PacketTimely (hash : List UInt8 → Nat) (state : TcpState) (packet : Packet) (supply : Supply) :
    Prop :=
  match hashoFind hash state.pTCPHASH (makeTCPHashKey packet).bytes with
  | none => True
  | some none =>
      getTCPControl packet.nControlType = .syn ∨ getTCPControl packet.nControlType = .synAck →
        supply.Logs → state.HasRoom → state.Gives supply none ∧
          (state.pTIMER.uiCurrentTime < supply.createTimeout →
            state.pTIMER.pstHASHGINFO.uiLinkedCnt < 10 * N_DAY)
  | some (some p) =>
      state.Moves p supply.updateTimeout ∧
        match (state.sess p).verdict packet with
        | .keep sess =>
            sess.ucEndStatus = .rst → state.pTIMER.uiCurrentTime < supply.updateTimeout →
              state.Moves p supply.rstTimeout
        | .strange => True
        | .renew => supply.Logs → state.Gives supply (state.sess p).timerNID

/-- The rest of `dProcTcpSess`, for a packet of a session. -/
def procVerdict (hash : List UInt8 → Nat) (state : TcpState) (key : List UInt8) (p : Nat)
    (packet : Packet) (supply : Supply) : Option TcpState :=
  match (state.sess p).verdict packet with
  | .keep sess => procEnd hash (state.setSess p sess) key p supply
  | .strange => some state
  | .renew => do
      let state := state.setSess p { state.sess p with ucEndStatus := .abnormal }
      let state ← dCloseSession hash state key
      let state ← timerDel state p
      procNew hash state key packet (getTCPControl packet.nControlType) supply

theorem proc_found (found : hashoFind hash state.pTCPHASH (makeTCPHashKey packet).bytes =
    some (some p)) :
    dProcTcpSess hash state packet supply =
      (timerUpdate hash state p supply.updateTimeout).bind fun state =>
        procVerdict hash state (makeTCPHashKey packet).bytes p packet supply := by
  rw [dProcTcpSess, found]
  rfl

/-- A packet of a session whose timer waits on. -/
theorem packet_ahead (bound : Bound hash state live timers agenda timerOf) (member : p ∈ live)
    (length : (state.pTCPHASH.keyAt p).length = TCP_SESS_KEY_SIZE)
    (later : state.pTIMER.uiCurrentTime < supply.updateTimeout)
    (moves : state.Moves p supply.updateTimeout)
    (resets : ∀ sess, (state.sess p).verdict packet = .keep sess → sess.ucEndStatus = .rst →
      state.Moves p supply.rstTimeout)
    (gives : (state.sess p).verdict packet = .renew → supply.Logs →
      state.Gives supply (state.sess p).timerNID) :
    ∃ state₁ state', timerUpdate hash state p supply.updateTimeout = some state₁ ∧
      procVerdict hash state₁ (state.pTCPHASH.keyAt p) p packet supply = some state' ∧
      state'.Bound hash := by
  obtain ⟨window, spare⟩ := moves_spare bound member moves later
  obtain ⟨info, updated, bound₁, clock, own, others⟩ := update_waits bound member later window spare
  let id := movedId state.pTIMER (timerOf p) supply.updateTimeout
  let state₁ := (state.setTimer info).setSess p { state.sess p with timerNID := some id }
  have record : state₁.sess p = { state.sess p with timerNID := some id } := Function.update_self ..
  have now : state₁.pTIMER.uiCurrentTime = state.pTIMER.uiCurrentTime := (Prod.mk.inj clock).1
  -- the other timers keep their ids
  have spares {id : TimernKey} (free : Spare state.pTIMER timers (timerOf p) id) :
      Spare state₁.pTIMER (timerOf p :: timers.erase (timerOf p)) (timerOf p) id := by
    intro other inside apart
    have kept := (List.mem_cons.mp inside).resolve_left apart
    show idAt info other ≠ id
    rw [others other apart]
    exact free other (List.mem_of_mem_erase kept) apart
  suffices ∃ state', procVerdict hash state₁ (state.pTCPHASH.keyAt p) p packet supply = some state' ∧
      state'.Bound hash from this.elim fun state' after => ⟨state₁, state', updated, after⟩
  rw [procVerdict, record, verdict_timer]
  cases verdict : (state.sess p).verdict packet with
  | keep sess =>
      dsimp only [Verdict.withTimer]
      have kept := @bound_set _ _ _ _ _ _ p bound₁ { sess with timerNID := some id } fun _ =>
        (congrArg TcpSess.timerNID record).symm
      apply end_bound kept member rfl
      intro rst later'
      rw [set_sess_own] at rst
      have moves' := moves_spare bound member (resets sess verdict rst) (now ▸ later')
      have window' := moves'.1
      rw [← now] at window'
      refine ⟨window', ?_⟩
      have same : movedId info (timerOf p) supply.rstTimeout =
          movedId state.pTIMER (timerOf p) supply.rstTimeout := by
        rw [movedId, own]
        rfl
      show Spare state₁.pTIMER _ _ (movedId info (timerOf p) supply.rstTimeout)
      rw [same]
      exact spares moves'.2
  | strange => exact ⟨state₁, rfl, live, _, _, timerOf, bound₁⟩
  | renew =>
      dsimp only [Verdict.withTimer]
      have abnormal := @bound_set _ _ _ _ _ _ p bound₁
        { state₁.sess p with ucEndStatus := .abnormal } fun _ => rfl
      obtain ⟨state₂, state₃, state', closed, deleted, created, bound'⟩ :=
        @renew_own _ _ _ _ _ _ p packet supply abnormal member length
          (getTCPControl packet.nControlType) (by
            intro logs later'
            obtain ⟨window', grants, free⟩ := gives verdict logs (now ▸ later')
            rw [← now] at window'
            have next : nextId info supply.createTimeout =
                nextId state.pTIMER supply.createTimeout := by
              rw [nextId, nextId, (Prod.mk.inj clock).2]
            refine ⟨window', grants, ?_⟩
            show Spare state₁.pTIMER _ _ (nextId info supply.createTimeout)
            rw [next]
            exact spares (own_spare bound.served member free))
      refine ⟨state', ?_, bound'⟩
      have closed' : dCloseSession hash (state₁.setSess p { state₁.sess p with
        ucEndStatus := .abnormal }) (state.pTCPHASH.keyAt p) = some state₂ := closed
      rw [record] at closed'
      simp only [closed', Option.bind_eq_bind, Option.bind_some, deleted]
      exact created

/-- A packet of a session that its timer closes. -/
theorem packet_passed (bound : Bound hash state live timers agenda timerOf) (member : p ∈ live)
    (length : (state.pTCPHASH.keyAt p).length = TCP_SESS_KEY_SIZE)
    (passed : supply.updateTimeout ≤ state.pTIMER.uiCurrentTime)
    (gives : (state.sess p).verdict packet = .renew → supply.Logs →
      state.Gives supply (state.sess p).timerNID) :
    ∃ state₁ state', timerUpdate hash state p supply.updateTimeout = some state₁ ∧
      procVerdict hash state₁ (state.pTCPHASH.keyAt p) p packet supply = some state' ∧
      state'.Bound hash := by
  obtain ⟨state₁, sess, updated, bound₁, keys, ended, record, clock, others⟩ :=
    update_closes bound member passed
  have now : state₁.pTIMER.uiCurrentTime = state.pTIMER.uiCurrentTime := (Prod.mk.inj clock).1
  have gone : p ∉ live.erase p := fun kept =>
    ((TimedTable.served_distinct bound.served).mem_erase_iff.mp kept).1 rfl
  have absent : state.pTCPHASH.keyAt p ∉ (live.erase p).map state₁.pTCPHASH.keyAt := by
    rw [List.map_congr_left keys]
    exact key_gone bound.served.paired.keys (TimedTable.served_distinct bound.served) member
  suffices ∃ state', procVerdict hash state₁ (state.pTCPHASH.keyAt p) p packet supply = some state' ∧
      state'.Bound hash from this.elim fun state' after => ⟨state₁, state', updated, after⟩
  rw [procVerdict, record, verdict_timer]
  cases verdict : sess.verdict packet with
  | keep sess' =>
      dsimp only [Verdict.withTimer]
      apply end_closed (bound_set bound₁ fun kept => absurd kept gone) _ gone length absent
      rw [set_sess_own]
  | strange => exact ⟨state₁, rfl, _, _, _, timerOf, bound₁⟩
  | renew =>
      dsimp only [Verdict.withTimer]
      let record' : TcpSess := { sess with timerNID := none, ucEndStatus := .abnormal }
      have abnormal := @bound_set _ _ _ _ _ _ p bound₁ record' fun kept => absurd kept gone
      have counted : Bound hash { state₁.setSess p record' with
          curSessCnt := u64Pred state₁.curSessCnt } (live.erase p) (timers.erase (timerOf p))
          (agenda.drop (timerOf p)) timerOf :=
        ⟨abnormal.served, abnormal.keyLen, abnormal.within⟩
      obtain ⟨state', created, bound'⟩ := @new_bound _ _ _ _ _ _ _ packet
        (getTCPControl packet.nControlType) supply counted length absent (by
          intro logs _ later
          have later' : state.pTIMER.uiCurrentTime < supply.createTimeout := now ▸ later
          obtain ⟨window, grants, free⟩ := gives (renew_ended ended verdict) logs later'
          have spare := own_spare bound.served member free
          have fewer := List.length_erase_of_mem (timer_waits bound member)
          have some := List.length_pos_of_mem (timer_waits bound member)
          have within := bound.within
          rw [← now] at window
          refine ⟨window, ?_, grants, by omega⟩
          intro other kept
          obtain ⟨apart, waits⟩ := bound.served.named.keeps.linked.distinct.mem_erase_iff.mp kept
          have next : nextId state₁.pTIMER supply.createTimeout =
              nextId state.pTIMER supply.createTimeout := by
            rw [nextId, nextId, (Prod.mk.inj clock).2]
          show idAt state₁.pTIMER other ≠ nextId state₁.pTIMER supply.createTimeout
          rw [others other apart, next]
          exact spare other waits apart)
      refine ⟨state', ?_, bound'⟩
      have closed := close_absent abnormal.holds length absent
      have deleted := del_nothing counted (congrArg TcpSess.timerNID (set_sess_own state₁ p record'))
      exact Option.bind_eq_some_iff.mpr ⟨_, closed, Option.bind_eq_some_iff.mpr ⟨_, deleted, created⟩⟩

theorem packet_bound (bound : state.Bound hash) (timely : PacketTimely hash state packet supply) :
    ∃ state', dProcTcpSess hash state packet supply = some state' ∧ state'.Bound hash := by
  obtain ⟨live, timers, agenda, timerOf, bound⟩ := bound
  have length : (makeTCPHashKey packet).bytes.length = TCP_SESS_KEY_SIZE := rfl
  have found := find_spec bound.holds.stores bound.holds.inRange
    (length.trans bound.holds.keyLen.symm)
  rw [PacketTimely, found] at timely
  cases search : live.find? fun p => state.pTCPHASH.keyAt p = (makeTCPHashKey packet).bytes with
  | none =>
      rw [search] at found timely
      have absent : (makeTCPHashKey packet).bytes ∉ live.map state.pTCPHASH.keyAt := by
        intro inside
        obtain ⟨p, member, same⟩ := List.mem_map.mp inside
        exact List.find?_eq_none.mp search p member (decide_eq_true same)
      rw [dProcTcpSess, found]
      simp only [Option.bind_eq_bind, Option.bind_some]
      split
      next opens =>
        apply new_bound bound length absent
        intro logs room later
        have alloced : state.HasRoom := by
          rw [TcpState.HasRoom, bound.holds.stores.pool.count, bound.holds.stores.total]
          exact room
        obtain ⟨gives, few⟩ := timely opens logs alloced
        obtain ⟨window, grants, free⟩ := gives later
        have unused := free.resolve_left fun absurd => by cases absurd
        rw [← bound.served.named.keeps.linked.count]
        exact ⟨window, (TimedTable.unused_iff bound.served.named).mp unused, grants, few later⟩
      next => exact ⟨state, rfl, live, timers, agenda, timerOf, bound⟩
  | some p =>
      rw [search] at found timely
      have member := List.mem_of_find?_eq_some search
      have own : state.pTCPHASH.keyAt p = (makeTCPHashKey packet).bytes := by
        simpa using List.find?_some search
      obtain ⟨moves, verdicts⟩ := timely
      rw [← own] at length
      have gives : (state.sess p).verdict packet = .renew → supply.Logs →
          state.Gives supply (state.sess p).timerNID := by
        intro verdict
        rw [verdict] at verdicts
        exact verdicts
      suffices ∃ state₁ state', timerUpdate hash state p supply.updateTimeout = some state₁ ∧
          procVerdict hash state₁ (state.pTCPHASH.keyAt p) p packet supply = some state' ∧
          state'.Bound hash by
        obtain ⟨state₁, state', updated, proceeds, bound'⟩ := this
        refine ⟨state', ?_, bound'⟩
        rw [proc_found found, updated, ← own]
        exact proceeds
      by_cases passed : supply.updateTimeout ≤ state.pTIMER.uiCurrentTime
      · exact packet_passed bound member length passed gives
      · have later := Int.lt_of_not_ge passed
        apply packet_ahead bound member length later moves _ gives
        intro sess verdict rst
        rw [verdict] at verdicts
        exact verdicts rst later

end Packets

section Run

theorem del_sess_key_bound (bound : state.Bound hash) (key : TcpSessKey) :
    ∃ state', delSessKey hash state key.bytes = some state' ∧ state'.Bound hash := by
  obtain ⟨live, timers, agenda, timerOf, bound⟩ := bound
  have length : key.bytes.length = TCP_SESS_KEY_SIZE := rfl
  have found := find_spec bound.holds.stores bound.holds.inRange
    (length.trans bound.holds.keyLen.symm)
  rw [delSessKey, found]
  cases search : live.find? fun p => state.pTCPHASH.keyAt p = key.bytes with
  | none => exact ⟨state, rfl, live, timers, agenda, timerOf, bound⟩
  | some p =>
      have member := List.mem_of_find?_eq_some search
      have own : state.pTCPHASH.keyAt p = key.bytes := by simpa using List.find?_some search
      have ended := @bound_set _ _ _ _ _ _ p bound
        { state.sess p with ucEndStatus := .longLast } fun _ => rfl
      obtain ⟨state₁, state', closed, deleted, bound', -⟩ := close_bound ended member
      refine ⟨state', ?_, live.erase p, _, _, timerOf, bound'⟩
      rw [← own, Option.bind_eq_bind, Option.bind_some]
      exact Option.bind_eq_some_iff.mpr ⟨state₁, closed, deleted⟩

theorem invoke_bound (bound : state.Bound hash) {clock : Int} (early : 0 ≤ clock)
    (late : clock + 1 + N_DAY < 2 ^ 31) :
    ∃ state', invokeTimers hash state clock = some state' ∧ state'.Bound hash := by
  obtain ⟨live, timers, agenda, timerOf, bound⟩ := bound
  let invoke := fun (state : TcpState) (data : TimernData) => invokeDel hash state data.arg
  let Inv (info : TimernInfo) (current : TcpState) (live : List Nat) : Prop :=
    current.pTIMER = info ∧ live.length ≤ timers.length ∧ Holds hash current.pTCPHASH live ∧
      current.pTCPHASH.sizes = state.pTCPHASH.sizes ∧
      ∀ q ∈ live, current.pTCPHASH.keyAt q = state.pTCPHASH.keyAt q ∧
        (current.sess q).timerNID = (state.sess q).timerNID
  have closes : ∀ info current live p, Inv info current live → p ∈ live →
      ∃ after, invoke current (invokeDelData (state.pTCPHASH.keyAt p)) = some after ∧
        Inv info after (live.erase p) := by
    intro info current live p inv member
    obtain ⟨timer, few, holds, sizes, kept⟩ := inv
    obtain ⟨after, invoked, erased, sameTimer, -, others⟩ := invoke_own holds member
    rw [(kept p member).1] at invoked
    refine ⟨after, invoked, sameTimer.trans timer, Nat.le_trans List.length_erase_le few,
      holds.erase erased, erased.sizes.trans sizes, ?_⟩
    intro q inside
    obtain ⟨apart, before⟩ := holds.stores.pool.distinct.mem_erase_iff.mp inside
    rw [erased.keys q inside, others q apart]
    exact kept q before
  have injective := invoke_del_data_injective
  have pairs := (TimedTable.timers_perm bound.served injective).length_eq
  rw [List.length_map] at pairs
  obtain ⟨info, events, after, live', timers', passed, invoked, ⟨timer, few, holds, -⟩, served⟩ :=
    @TimedTable.pass_served _ _ _ _ _ _ _ _ _ _ invoke Inv TcpState.pTCPHASH
      (fun state p => (state.sess p).timerNID) injective bound.served clock early late state.setTimer
      (fun _ => ⟨rfl, Nat.le_of_eq pairs, bound.holds, rfl, fun _ _ => ⟨rfl, rfl⟩⟩) closes
      fun _ _ _ inv => ⟨inv.2.2.1.stores, inv.2.2.2.1, inv.2.2.2.2⟩
  rw [← timer] at served
  refine ⟨after, ?_, live', timers', _, timerOf, served, holds.keyLen, ?_⟩
  · exact Option.bind_eq_some_iff.mpr ⟨(info, events), passed, invoked⟩
  · rw [← (TimedTable.timers_perm served injective).length_eq, List.length_map]
    exact Nat.le_trans few bound.within

/-- `timerN_invoke` counts seconds in 31 bits. -/
def StepTimely (hash : List UInt8 → Nat) (state : TcpState) : Step → Prop
  | .packet packet supply => PacketTimely hash state packet supply
  | .invoke clock => 0 ≤ clock ∧ clock + 1 + N_DAY < 2 ^ 31
  | .clearCall _ => True

theorem step_bound {step : Step} (timely : StepTimely hash state step) (bound : state.Bound hash) :
    ∃ state', state.step hash step = some state' ∧ state'.Bound hash := by
  cases step with
  | packet packet supply => exact packet_bound bound timely
  | invoke clock => exact invoke_bound bound timely.1 timely.2
  | clearCall keys =>
      exact run_total (fun state key bound => @del_sess_key_bound _ state bound key) keys bound

theorem init_bound (rawHash : HashoInfo) (rawSess : Nat → TcpSess)
    (heap : Nat → HashgNode TimernKey TimernData) {clock : Int} {TCP_SESS_SIZE TCP_SESS_CNT : Nat}
    (inRange : ∀ key : List UInt8, key.length = TCP_SESS_KEY_SIZE → hash key < TCP_SESS_CNT)
    (uncut : stHASHOINFO_SIZE + OFFSET_SIZE * TCP_SESS_CNT < 2 ^ 32) (early : 0 < clock)
    (late : clock + N_DAY < 2 ^ 31) :
    (dInitTcp rawHash rawSess TCP_SESS_SIZE TCP_SESS_CNT clock heap).Bound hash := by
  have stores := init_stores hash rawHash TCP_SESS_KEY_SIZE TCP_SESS_SIZE uncut
  have keeps := init_keeps (Int.le_of_lt early) late heap
  have small : s32 clock = clock := s32_small (by omega) (by omega)
  refine ⟨[], [], start clock, id, ⟨inRange, stores, ⟨List.nodup_nil, nofun, ?_⟩, ⟨keeps, ?_, nofun⟩,
    nofun⟩, rfl, Nat.zero_le _⟩
  · exact fun t waits => absurd rfl waits
  · show 0 < s32 clock
    rw [small]
    exact early

/-- A run whose every step finds the timers that it asks for goes through, and leaves each session
with a timer of its own. -/
theorem sessions_timed (rawHash : HashoInfo) (rawSess : Nat → TcpSess)
    (heap : Nat → HashgNode TimernKey TimernData) {clock : Int} {TCP_SESS_SIZE TCP_SESS_CNT : Nat}
    (inRange : ∀ key : List UInt8, key.length = TCP_SESS_KEY_SIZE → hash key < TCP_SESS_CNT)
    (uncut : stHASHOINFO_SIZE + OFFSET_SIZE * TCP_SESS_CNT < 2 ^ 32) (early : 0 < clock)
    (late : clock + N_DAY < 2 ^ 31) {steps : List Step}
    (meets : Meets (TcpState.step hash) (StepTimely hash)
      (dInitTcp rawHash rawSess TCP_SESS_SIZE TCP_SESS_CNT clock heap) steps) :
    ∃ state, steps.foldlM (TcpState.step hash)
      (dInitTcp rawHash rawSess TCP_SESS_SIZE TCP_SESS_CNT clock heap) = some state ∧
      state.Timed hash := by
  obtain ⟨state, ran, bound⟩ := run_reaches (fun state step => @step_bound hash state step) meets
    (init_bound rawHash rawSess heap inRange uncut early late)
  obtain ⟨live, timers, agenda, timerOf, bound⟩ := bound
  exact ⟨state, ran, bound_timed bound⟩

theorem sessions_timed_three : ∃ state,
    threeSteps.foldlM (TcpState.step fun _ => 0) (startAt100 2) = some state ∧
      state.Timed fun _ => 0 := by
  have unused : (startAt100 2).Unused (nextId (startAt100 2).pTIMER 160) := by
    unfold TcpState.Unused
    decide +kernel
  have opened : PacketTimely (fun _ => 0) (startAt100 2) (packetFrom .client TCP_SYN 7 0) richSupply :=
    fun _ _ _ => ⟨fun _ => ⟨by decide, TimedTable.next_block_grants, Or.inr unused⟩, fun _ => by decide⟩
  have meets : Meets (TcpState.step fun _ => 0) (StepTimely fun _ => 0) (startAt100 2) threeSteps :=
    ⟨opened, fun _ _ => ⟨trivial, fun _ _ => ⟨⟨by decide, by decide⟩, fun _ _ => trivial⟩⟩⟩
  exact @sessions_timed (fun _ => 0) blankTable blankSession blankHeap 100 280 2
    (fun _ _ => by decide) (by decide) (by decide) (by decide) threeSteps meets

end Run

section Refused

theorem timed_counts (timed : state.Timed hash) :
    state.pTCPHASH.memg.uiMemNodeAllocedCnt = state.pTIMER.pstHASHGINFO.uiLinkedCnt := by
  obtain ⟨live, timers, timerOf, stores, linked, pairs, -⟩ := timed
  rw [stores.pool.count, linked.count, ← pairs.length_eq, List.length_map]

/-- A SYN for which no block is left in the timer table. -/
def blocklessSyn : Step :=
  .packet (packetFrom .client TCP_SYN 7 0) { richSupply with malloc := fun _ => none }

/-- The session of that SYN has no timer. -/
theorem blockless_untimed : ∃ state, (startAt100 10007).step (fun _ => 0) blocklessSyn = some state ∧
    ¬state.Timed fun _ => 0 := by
  have counts : ((startAt100 10007).step (fun _ => 0) blocklessSyn).map (fun state =>
      (state.pTCPHASH.memg.uiMemNodeAllocedCnt, state.pTIMER.pstHASHGINFO.uiLinkedCnt)) =
        some (1, 0) := by
    decide +kernel
  obtain ⟨state, ran, pair⟩ := Option.map_eq_some_iff.mp counts
  obtain ⟨sessions, timers⟩ := Prod.mk.inj pair
  refine ⟨state, ran, fun timed => ?_⟩
  have same := timed_counts timed
  rw [sessions, timers] at same
  exact Nat.one_ne_zero same

end Refused

end Upst.Tcp
