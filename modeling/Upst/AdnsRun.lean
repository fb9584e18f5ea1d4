import Upst.Adns
import Upst.Interleave

/-!
Sessions, timers and logs of A_DNS. Every session of the table waits for one timer and no other timer
waits, a session is removed once, and a log that is taken by its receiver is that of a session which
is removed with it.
-/

namespace Upst.Adns

open Bytes Word Hasho Hashg Timern TimedTable Deadlines Interleave

set_option autoImplicit false

section Ledger

variable {state after : DnsState} {live : List Nat} {p : Nat}

theorem in_use {memg : MemgInfo} {table : HashoInfo} (same : table.memg = memg)
    (ok : PoolOk memg live) (member : p ∈ live) : InUse table p := by
  obtain ⟨index, bound, rfl⟩ := ok.inPool p member
  rw [InUse, same, body_address ok.start, Nat.add_sub_cancel, ok.header index bound, if_pos member]

theorem touch_live (state : DnsState) (ok : PoolOk state.pDNSSESSHASH.memg live) (member : p ∈ live) :
    state.touch p = state :=
  if_pos (in_use rfl ok member)

theorem change_live (state : DnsState) (ok : PoolOk state.pDNSSESSHASH.memg live) (member : p ∈ live)
    (f : DnsSess → DnsSess) :
    state.change p f =
      { state with pDNSSESS := Function.update state.pDNSSESS p (f (state.pDNSSESS p)) } := by
  rw [DnsState.change, touch_live state ok member]

/-- No record was used after its node was given back, the sessions in the table are not yet removed, no
session was removed twice, the logs are those of removed sessions, and every node that was taken for a
log was written. -/
structure Ledger (state : DnsState) (live : List Nat) : Prop where
  strayed : state.strayed = []
  fresh : ∀ p ∈ live, state.number p < state.count ∧ state.number p ∉ state.removed
  apart : ∀ p ∈ live, ∀ q ∈ live, state.number p = state.number q → p = q
  old : ∀ number ∈ state.removed, number < state.count
  once : state.removed.Nodup
  logs : (state.written.map Written.session).Sublist state.removed
  nodes : state.nodes = state.written.map Written.pstNode

/-- A session and its log, if one was written, are done with. -/
structure Done (state : DnsState) (p : Nat) (logs : List Written) (after : DnsState) : Prop where
  sessions : (logs.map Written.session).Sublist [state.number p]
  written : after.written = state.written ++ logs
  nodes : after.nodes = state.nodes ++ logs.map Written.pstNode
  removed : after.removed = state.removed ++ [state.number p]
  strayed : after.strayed = state.strayed
  count : after.count = state.count
  number : after.number = state.number

theorem ledger_done (ledger : Ledger state live) (distinct : live.Nodup) (member : p ∈ live)
    {logs : List Written} (done : Done state p logs after) : Ledger after (live.erase p) := by
  obtain ⟨below, kept⟩ := ledger.fresh p member
  constructor
  · rw [done.strayed, ledger.strayed]
  · intro q inside
    obtain ⟨other, old⟩ := distinct.mem_erase_iff.mp inside
    obtain ⟨below', kept'⟩ := ledger.fresh q old
    rw [done.number, done.count, done.removed, List.mem_append, List.mem_singleton, not_or]
    exact ⟨below', kept', fun same => other (ledger.apart q old p member same)⟩
  · intro q inside r inside'
    rw [done.number]
    exact ledger.apart q (List.mem_of_mem_erase inside) r (List.mem_of_mem_erase inside')
  · intro number inside
    rw [done.removed, List.mem_append, List.mem_singleton] at inside
    rw [done.count]
    rcases inside with before | rfl
    · exact ledger.old number before
    · exact below
  · rw [done.removed]
    refine ledger.once.append (List.nodup_singleton _) ?_
    rw [List.disjoint_singleton]
    exact kept
  · rw [done.written, done.removed, List.map_append]
    exact ledger.logs.append done.sessions
  · rw [done.nodes, done.written, List.map_append, ledger.nodes]

/-- A session is added under the next number. -/
theorem ledger_add (ledger : Ledger state live) (fresh : p ∉ live) (table : HashoInfo)
    (record : Nat → DnsSess) (timer : TimernInfo) :
    Ledger { state with
      pDNSSESSHASH := table
      pDNSSESS := record
      pTIMERNINFO := timer
      count := state.count + 1
      number := Function.update state.number p state.count } (p :: live) := by
  have others : ∀ q ∈ live, Function.update state.number p state.count q = state.number q := by
    intro q inside
    apply Function.update_of_ne
    rintro rfl
    exact fresh inside
  have own : Function.update state.number p state.count p = state.count := Function.update_self ..
  constructor
  · exact ledger.strayed
  · intro q inside
    dsimp only
    rcases List.mem_cons.mp inside with rfl | old
    · rw [own]
      exact ⟨Nat.lt_succ_self _, fun gone => Nat.lt_irrefl _ (ledger.old _ gone)⟩
    · rw [others q old]
      obtain ⟨below, kept⟩ := ledger.fresh q old
      exact ⟨Nat.lt_succ_of_lt below, kept⟩
  · intro q inside r inside' same
    dsimp only at same
    rcases List.mem_cons.mp inside with rfl | old
    · rcases List.mem_cons.mp inside' with rfl | old'
      · rfl
      · rw [own, others r old'] at same
        exact absurd same.symm (Nat.ne_of_lt (ledger.fresh r old').1)
    · rcases List.mem_cons.mp inside' with rfl | old'
      · rw [own, others q old] at same
        exact absurd same (Nat.ne_of_lt (ledger.fresh q old).1)
      · rw [others q old, others r old'] at same
        exact ledger.apart q old r old' same
  · exact fun number inside => Nat.lt_succ_of_lt (ledger.old number inside)
  · exact ledger.once
  · exact ledger.logs
  · exact ledger.nodes

end Ledger

variable {conf : Conf} {state : DnsState} {live timers : List Nat} {agenda : Agenda Nat TimernData}
  {timerOf : Nat → Nat}

section Bound

def DnsState.idOf (state : DnsState) (p : Nat) : Option TimernKey := (state.pDNSSESS p).timerNID

/-- The sessions `live` with their timers and their ledger. -/
structure Bound (conf : Conf) (state : DnsState) (live timers : List Nat)
    (agenda : Agenda Nat TimernData) (timerOf : Nat → Nat) : Prop where
  sizes : state.pDNSSESSHASH.sizes = conf.sizes
  served : Served conf.hash delDns state.pDNSSESSHASH state.pTIMERNINFO state.idOf live timers agenda
    timerOf
  ledger : Ledger state live

def DnsState.Bound (conf : Conf) (state : DnsState) : Prop :=
  ∃ live timers agenda timerOf, Adns.Bound conf state live timers agenda timerOf

variable {p : Nat} {key : DnsSessKey} {supply : Supply} {send : Send}

theorem del_dns_injective : Function.Injective delDns := by
  intro key key' same
  exact (TimernData.mk.inj same).2

theorem key_bytes_length (key : DnsSessKey) : key.bytes.length = DNS_SESS_KEY_SIZE := rfl

theorem key_len (sizes : state.pDNSSESSHASH.sizes = conf.sizes) :
    state.pDNSSESSHASH.usKeyLen = DNS_SESS_KEY_SIZE :=
  congrArg HashoSizes.usKeyLen sizes

theorem bound_pool (bound : Bound conf state live timers agenda timerOf) :
    PoolOk state.pDNSSESSHASH.memg live :=
  bound.served.stores.pool

theorem timer_key (bound : Bound conf state live timers agenda timerOf) (member : p ∈ live) :
    timerKey (state.pDNSSESS p).timerNID = idAt state.pTIMERNINFO (timerOf p) := by
  have own : (state.pDNSSESS p).timerNID = some (idAt state.pTIMERNINFO (timerOf p)) :=
    bound.served.ids p member
  rw [own]
  rfl

theorem change_bound (bound : Bound conf state live timers agenda timerOf) (member : p ∈ live)
    {f : DnsSess → DnsSess} (keeps : ∀ session, (f session).timerNID = session.timerNID) :
    Bound conf (state.change p f) live timers agenda timerOf := by
  rw [change_live state (bound_pool bound) member]
  have ids : ∀ q ∈ live, DnsState.idOf
      { state with pDNSSESS := Function.update state.pDNSSESS p (f (state.pDNSSESS p)) } q =
        state.idOf q := by
    intro q _
    show (Function.update state.pDNSSESS p (f (state.pDNSSESS p)) q).timerNID = _
    by_cases same : q = p
    · subst same
      rw [Function.update_self, keeps]
      rfl
    · rw [Function.update_of_ne same]
      rfl
  exact ⟨bound.sizes, served_ids bound.served ids, bound.ledger.strayed, bound.ledger.fresh,
    bound.ledger.apart, bound.ledger.old, bound.ledger.once, bound.ledger.logs, bound.ledger.nodes⟩

theorem change_table (state : DnsState) (p : Nat) (f : DnsSess → DnsSess) :
    (state.change p f).pDNSSESSHASH = state.pDNSSESSHASH := by
  rw [DnsState.change, DnsState.touch]
  split
  · rfl
  · rfl

theorem change_record (p : Nat) (f : DnsSess → DnsSess) :
    (state.change p f).pDNSSESS p = f (state.pDNSSESS p) :=
  Function.update_self ..

/-- The id that the timer of a session gets with a new deadline. -/
def DnsState.nextKey (state : DnsState) (p : Nat) (supply : Supply) : TimernKey :=
  { timerKey (state.idOf p) with sTimeKey := s32 supply.timeout }

/-- The new deadline lies ahead, within the timers' window, and the id that goes with it is not in
use. -/
structure Moves (state : DnsState) (p : Nat) (supply : Supply) : Prop where
  later : state.pTIMERNINFO.uiCurrentTime < supply.timeout
  window : supply.timeout ≤ state.pTIMERNINFO.uiCurrentTime + N_DAY - ONE_MINUTE
  spare : state.idOf p = some (state.nextKey p supply) ∨
    Unused state.pTIMERNINFO (state.nextKey p supply)

instance (state : DnsState) (p : Nat) (supply : Supply) : Decidable (Moves state p supply) :=
  decidable_of_iff (state.pTIMERNINFO.uiCurrentTime < supply.timeout ∧
    supply.timeout ≤ state.pTIMERNINFO.uiCurrentTime + N_DAY - ONE_MINUTE ∧
    (state.idOf p = some (state.nextKey p supply) ∨
      Unused state.pTIMERNINFO (state.nextKey p supply)))
    ⟨fun all => ⟨all.1, all.2.1, all.2.2⟩, fun moves => ⟨moves.later, moves.window, moves.spare⟩⟩

theorem update_bound (bound : Bound conf state live timers agenda timerOf) (member : p ∈ live)
    (moves : Moves state p supply) : ∃ timer timers' agenda',
    updateTimer conf state p supply = some ((state.setTimer timer).change p fun session =>
      { session with timerNID := some (state.nextKey p supply) }) ∧
    Bound conf ((state.setTimer timer).change p fun session =>
      { session with timerNID := some (state.nextKey p supply) }) live timers' agenda' timerOf := by
  have pool := bound_pool bound
  have id : state.nextKey p supply = movedId state.pTIMERNINFO (timerOf p) supply.timeout := by
    rw [movedId, ← timer_key bound member]
    rfl
  have spare := moves.spare
  rw [id] at spare ⊢
  let entry : DnsSess := { state.pDNSSESS p with
    timerNID := some (movedId state.pTIMERNINFO (timerOf p) supply.timeout) }
  have own : Function.update state.pDNSSESS p entry p = entry := Function.update_self ..
  have others : ∀ q ∈ live, q ≠ p →
      Function.update state.pDNSSESS p entry q = state.pDNSSESS q :=
    fun q _ apart => Function.update_of_ne apart ..
  obtain ⟨timer, updated, served⟩ :=
    @update_moves _ _ _ _ _ (fun q => (Function.update state.pDNSSESS p entry q).timerNID) _ _ _ _ _ _
      bound.served del_dns_injective member moves.later moves.window
      (own_spare bound.served member spare) (congrArg DnsSess.timerNID own)
      fun q inside apart => congrArg DnsSess.timerNID (others q inside apart)
  refine ⟨timer, timerOf p :: timers.erase (timerOf p),
    agenda.after (.moved (timerOf p) supply.timeout), ?_, ?_⟩
  · rw [updateTimer, touch_live state pool member, timer_key bound member]
    dsimp only
    rw [show (fun timer => some (timer, [])) = quiet from rfl, updated]
    rfl
  · have moved : (state.setTimer timer).change p (fun session => { session with
        timerNID := some (movedId state.pTIMERNINFO (timerOf p) supply.timeout) }) =
          { state.setTimer timer with pDNSSESS := Function.update state.pDNSSESS p entry } :=
      change_live (state.setTimer timer) pool member _
    rw [moved]
    exact ⟨bound.sizes, served, bound.ledger.strayed, bound.ledger.fresh, bound.ledger.apart,
      bound.ledger.old, bound.ledger.once, bound.ledger.logs, bound.ledger.nodes⟩

end Bound

section Close

variable {after : DnsState} {p : Nat} {key : DnsSessKey} {send : Send}

/-- Where a node is given for the log, its TLV fits and the receiver takes it. -/
def Send.Taken (send : Send) : Prop :=
  send.pstNode ≠ none → send.pLOGDNS = true ∧ 0 ≤ send.dRet

instance (send : Send) : Decidable send.Taken := inferInstanceAs (Decidable (_ → _))

/-- The logs that a call of `dSend_DNSLog` for `p` writes. -/
structure Sent (state : DnsState) (p : Nat) (logs : List Written) (after : DnsState) : Prop where
  sessions : (logs.map Written.session).Sublist [state.number p]
  result : after = { state with
    nodes := state.nodes ++ logs.map Written.pstNode
    written := state.written ++ logs }

/-- Without a node nothing is done; with one, the log is written. -/
theorem send_taken (ok : PoolOk state.pDNSSESSHASH.memg live) (member : p ∈ live) (key : DnsSessKey)
    (taken : send.Taken) :
    (dSend_DNSLog conf state key p send = (-1, state)) ∨
      ∃ logs after, dSend_DNSLog conf state key p send = (1, after) ∧ Sent state p logs after := by
  rw [dSend_DNSLog]
  cases given : send.pstNode with
  | none => exact Or.inl rfl
  | some pstNode =>
      obtain ⟨fits, accepted⟩ := taken (by rw [given]; exact Option.some_ne_none _)
      refine Or.inr ⟨[⟨pstNode, state.number p, dGetCALLProcID conf key.SIP,
        logOf key (state.pDNSSESS p)⟩], _, ?_, List.Sublist.refl _, rfl⟩
      dsimp only
      rw [fits, if_neg Bool.true_eq_false_eq_False, touch_live { state with nodes := state.nodes ++ [pstNode] }
        ok member, if_neg (Int.not_lt.mpr accepted)]
      rfl

theorem sent_any (ok : PoolOk state.pDNSSESSHASH.memg live) (member : p ∈ live) (key : DnsSessKey)
    (taken : send.Taken) : ∃ logs, Sent state p logs (dSend_DNSLog conf state key p send).2 := by
  rcases send_taken ok member key taken with nothing | ⟨logs, after, sends, sent⟩
  · rw [nothing]
    refine ⟨[], List.nil_sublist _, ?_⟩
    rw [List.map_nil, List.append_nil, List.append_nil]
  · rw [sends]
    exact ⟨logs, sent⟩

/-- The session is removed with the log that was sent for it. -/
theorem close_bound {logs : List Written} (bound : Bound conf state live timers agenda timerOf)
    (member : p ∈ live) (sent : Sent state p logs after) :
    ∃ final, closeSession conf after (state.pDNSSESSHASH.keyAt p) p = some final ∧
      Bound conf final (live.erase p) (timers.erase (timerOf p)) (agenda.drop (timerOf p)) timerOf := by
  obtain ⟨table, timer, deleted, dropped, erased, served⟩ :=
    @delete_closes _ _ _ _ _ state.idOf _ _ _ _ _ bound.served del_dns_injective member
      fun _ _ _ => rfl
  have pool := bound_pool bound
  have touched : after.touch p = after := by
    rw [sent.result]
    exact touch_live _ pool member
  let final : DnsState := { state with
    pDNSSESSHASH := table
    pTIMERNINFO := timer
    removed := state.removed ++ [state.number p]
    nodes := state.nodes ++ logs.map Written.pstNode
    written := state.written ++ logs }
  have done : Done state p logs final := ⟨sent.sessions, rfl, rfl, rfl, rfl, rfl, rfl⟩
  refine ⟨final, ?_, erased.sizes.trans bound.sizes, served,
    ledger_done bound.ledger (served_distinct bound.served) member done⟩
  rw [closeSession, touched, sent.result]
  dsimp only
  rw [timer_key bound member, dropped, Option.bind_some, removeSession]
  dsimp only [DnsState.setTimer]
  rw [deleted]
  rfl

/-- The callback of a timer removes the session whose key it is given. -/
theorem invoke_own (inRange : InRange conf.hash state.pDNSSESSHASH)
    (stores : Stores conf.hash state.pDNSSESSHASH live) (sizes : state.pDNSSESSHASH.sizes = conf.sizes)
    (member : p ∈ live) (taken : send.Taken) :
    ∃ logs after, invoke_del_DNS conf send state (delDns (state.pDNSSESSHASH.keyAt p)) = some after ∧
      Done state p logs after ∧ Erased conf.hash state.pDNSSESSHASH live p after.pDNSSESSHASH ∧
      after.pTIMERNINFO = state.pTIMERNINFO ∧ ∀ q, after.idOf q = state.idOf q := by
  have length : (state.pDNSSESSHASH.keyAt p).length = DNS_SESS_KEY_SIZE :=
    (Hasho.key_length state.pDNSSESSHASH p).trans (key_len sizes)
  have whole : (delDns (state.pDNSSESSHASH.keyAt p)).arg.take DNS_SESS_KEY_SIZE =
      state.pDNSSESSHASH.keyAt p := by
    rw [← length]
    exact List.take_length
  obtain ⟨table, deleted, erased⟩ := del_erases inRange stores member
  let marked : DnsState := { state with
    pDNSSESS := Function.update state.pDNSSESS p { state.pDNSSESS p with ucErrorCode := 22 } }
  obtain ⟨logs, sent⟩ := @sent_any conf marked live p send stores.pool member
    (keyOf (state.pDNSSESSHASH.keyAt p)) taken
  let final : DnsState := { marked with
    pDNSSESSHASH := table
    removed := state.removed ++ [state.number p]
    nodes := state.nodes ++ logs.map Written.pstNode
    written := state.written ++ logs }
  have done : Done state p logs final := ⟨sent.sessions, rfl, rfl, rfl, rfl, rfl, rfl⟩
  refine ⟨logs, final, ?_, done, erased, rfl, ?_⟩
  · rw [invoke_del_DNS]
    dsimp only
    rw [whole, find_own stores inRange member, Option.bind_some]
    dsimp only
    rw [change_live state stores.pool member, sent.result, removeSession]
    dsimp only
    rw [deleted]
    rfl
  · intro q
    show (Function.update state.pDNSSESS p { state.pDNSSESS p with ucErrorCode := 22 } q).timerNID = _
    by_cases same : q = p
    · subst same
      rw [Function.update_self]
      rfl
    · rw [Function.update_of_ne same]
      rfl

end Close

section Open

variable {p : Nat} {key : DnsSessKey} {supply : Supply}

/-- The first deadline lies ahead, within the timers' window, the next id is not in use, and `malloc`
gives a block. -/
structure Opens (state : DnsState) (supply : Supply) : Prop where
  later : state.pTIMERNINFO.uiCurrentTime < supply.timeout
  window : supply.timeout ≤ state.pTIMERNINFO.uiCurrentTime + N_DAY - ONE_MINUTE
  unused : Unused state.pTIMERNINFO (nextId state.pTIMERNINFO supply.timeout)
  granted : ∃ t, supply.malloc state.pTIMERNINFO.pstHASHGINFO.alloced = some t ∧ t ≠ 0 ∧
    t ∉ state.pTIMERNINFO.pstHASHGINFO.alloced

theorem open_full (bound : Bound conf state live timers agenda timerOf)
    (absent : key.bytes ∉ live.map state.pDNSSESSHASH.keyAt)
    (full : live.length = 5 * state.pDNSSESSHASH.uiHashSize) :
    openSession conf state key.bytes supply = some (none, state) := by
  have length : key.bytes.length = state.pDNSSESSHASH.usKeyLen :=
    (key_bytes_length key).trans (key_len bound.sizes).symm
  rw [openSession, Hasho.add_full bound.served.stores bound.served.inRange length absent full]
  rfl

/-- A new session waits for its timer, with nothing in its record. -/
theorem open_room (bound : Bound conf state live timers agenda timerOf)
    (absent : key.bytes ∉ live.map state.pDNSSESSHASH.keyAt)
    (room : live.length < 5 * state.pDNSSESSHASH.uiHashSize) (opens : Opens state supply) :
    ∃ p after timers' agenda' timerOf',
      openSession conf state key.bytes supply = some (some p, after) ∧
      Bound conf after (p :: live) timers' agenda' timerOf' ∧
      after.pDNSSESSHASH.keyAt p = key.bytes ∧
      after.pDNSSESS p = InitDNSSESS { supply.DNSSESS with
        timerNID := some (nextId state.pTIMERNINFO supply.timeout) } := by
  have length : key.bytes.length = state.pDNSSESSHASH.usKeyLen :=
    (key_bytes_length key).trans (key_len bound.sizes).symm
  obtain ⟨p, table, adds, added⟩ := @add_stores _ _ _ _ _ _ _ _ _ key.bytes
    (List.replicate state.pDNSSESSHASH.usDataLen 0) bound.served length List.length_replicate absent room
  let entry : DnsSess := InitDNSSESS { supply.DNSSESS with
    timerNID := some (nextId state.pTIMERNINFO supply.timeout) }
  have size : state.pDNSSESSHASH.uiHashSize = DNS_SESS_CNT :=
    congrArg HashoSizes.uiHashSize bound.sizes
  have few : live.length < 10 * N_DAY := by
    rw [size] at room
    exact room.trans (by decide)
  have own : Function.update state.pDNSSESS p entry p = entry := Function.update_self ..
  have others : ∀ q ∈ live, Function.update state.pDNSSESS p entry q = state.pDNSSESS q := by
    intro q inside
    apply Function.update_of_ne
    rintro rfl
    exact added.fresh inside
  obtain ⟨t, timer, accepted, served⟩ :=
    @add_waits _ _ _ _ _ (fun q => (Function.update state.pDNSSESS p entry q).timerNID) _ _ _ _ _ _ _
      _ _ bound.served del_dns_injective added opens.later opens.window opens.unused opens.granted few
      (congrArg DnsSess.timerNID own) fun q inside => congrArg DnsSess.timerNID (others q inside)
  let final : DnsState := { state with
    pDNSSESSHASH := table
    pDNSSESS := Function.update state.pDNSSESS p entry
    pTIMERNINFO := timer
    count := state.count + 1
    number := Function.update state.number p state.count }
  refine ⟨p, final, _, _, _, ?_, ⟨added.sizes.trans bound.sizes, served,
    ledger_add bound.ledger added.fresh table (Function.update state.pDNSSESS p entry) timer⟩, added.key,
    own⟩
  rw [openSession, adds, Option.bind_some]
  dsimp only
  rw [show (fun timer => some (timer, [])) = quiet from rfl, accepted, Option.bind_some]
  dsimp only [runCallbacks, List.foldlM, Event.invoked]
  have changed := change_live (DnsState.setTimer { state with
      pDNSSESSHASH := table
      pDNSSESS := Function.update state.pDNSSESS p supply.DNSSESS
      count := state.count + 1
      number := Function.update state.number p state.count } timer) added.stores.pool
    List.mem_cons_self fun session => InitDNSSESS { session with
      timerNID := some (nextId state.pTIMERNINFO supply.timeout) }
  rw [DnsState.setTimer] at changed
  dsimp only at changed
  rw [Function.update_self, Function.update_idem] at changed
  exact congrArg (fun after => some (some p, after)) changed

end Open

section Messages

variable {p : Nat} {key : DnsSessKey} {message : Message} {supply : Supply}

/-- The query of the session was seen. -/
def DnsSess.Queried (session : DnsSess) : Prop :=
  session.dRequestTime ≠ 0 ∨ session.dRequestMTime ≠ 0

instance (session : DnsSess) : Decidable session.Queried := inferInstanceAs (Decidable (_ ∨ _))

/-- What a reply to a session needs: its timer is moved, and if it carries the identification of the
session then a query was seen and the log that it sends is taken. -/
structure ReplyOk (state : DnsState) (p : Nat) (message : Message) (supply : Supply) : Prop where
  moves : Moves state p supply
  queried : message.Ident = (state.pDNSSESS p).usIdentification → (state.pDNSSESS p).Queried
  taken : message.Ident = (state.pDNSSESS p).usIdentification → message.ucRCode = 0 →
    supply.send.Taken

def AnalyzeOk (state : DnsState) (p : Nat) (message : Message) (supply : Supply) : Prop :=
  if message.Param 0 &&& DEF_CHECK_QR = DEF_CHECK_QR then
    message.bRtxType = DEF_FROM_SERVER → ReplyOk state p message supply
  else message.bRtxType = DEF_FROM_CLIENT → (state.pDNSSESS p).retry → Moves state p supply

theorem answered_bound (bound : Bound conf state live timers agenda timerOf) (member : p ∈ live)
    (own : state.pDNSSESSHASH.keyAt p = key.bytes) (queried : (state.pDNSSESS p).Queried)
    (taken : message.ucRCode = 0 → supply.send.Taken) :
    ∃ dRet after, answered conf state key p message supply = some (dRet, after) ∧
      after.Bound conf := by
  have seen : ¬ ((state.pDNSSESS p).dRequestTime = 0 ∧ (state.pDNSSESS p).dRequestMTime = 0) :=
    fun both => queried.elim (fun time => time both.1) fun time => time both.2
  rw [answered, if_neg seen, Option.bind_some]
  dsimp only
  have bound₁ := @change_bound _ _ _ _ _ _ _ bound member (fun session => { session with
    dResponseTime := message.curtime
    dResponseMTime := message.ucurtime }) fun _ => rfl
  have bound₂ := @change_bound _ _ _ _ _ _ _ bound₁ member (fun session => { session with
    usResponseCnt := session.usResponseCnt + 1
    uiResponseSize := session.uiResponseSize + message.wTotalLength }) fun _ => rfl
  generalize table : ((state.change p _).change p _) = counted at bound₂ ⊢
  have key' : counted.pDNSSESSHASH.keyAt p = key.bytes := by
    rw [← table, change_table, change_table, own]
  by_cases success : message.ucRCode = 0
  · rw [if_pos success]
    rcases @send_taken conf _ _ _ _ (bound_pool bound₂) member key (taken success) with
      nothing | ⟨logs, after, sends, sent⟩
    · rw [nothing]
      exact ⟨-8, counted, rfl, live, timers, agenda, timerOf, bound₂⟩
    · obtain ⟨final, closes, bound'⟩ := close_bound bound₂ member sent
      rw [sends]
      dsimp only
      rw [← key', closes]
      exact ⟨1, final, rfl, _, _, _, _, bound'⟩
  · rw [if_neg success]
    exact ⟨1, _, rfl, live, timers, agenda, timerOf, change_bound bound₂ member fun _ => rfl⟩

theorem reply_bound (bound : Bound conf state live timers agenda timerOf) (member : p ∈ live)
    (own : state.pDNSSESSHASH.keyAt p = key.bytes)
    (ok : message.bRtxType = DEF_FROM_SERVER → ReplyOk state p message supply) :
    ∃ dRet after, reply conf state key p message supply = some (dRet, after) ∧ after.Bound conf := by
  rw [reply]
  by_cases server : message.bRtxType = DEF_FROM_SERVER
  · obtain ⟨moves, queried, taken⟩ := ok server
    obtain ⟨timer, timers', agenda', updated, bound'⟩ := update_bound bound member moves
    have record : ((state.setTimer timer).change p fun session =>
        { session with timerNID := some (state.nextKey p supply) }).pDNSSESS p =
          { state.pDNSSESS p with timerNID := some (state.nextKey p supply) } := change_record ..
    have table : ((state.setTimer timer).change p fun session =>
        { session with timerNID := some (state.nextKey p supply) }).pDNSSESSHASH =
          state.pDNSSESSHASH := change_table ..
    rw [if_neg (not_not.mpr server), updated, Option.bind_some, record]
    by_cases same : message.Ident = (state.pDNSSESS p).usIdentification
    · rw [if_neg (not_not.mpr same)]
      refine answered_bound bound' member (table ▸ own) ?_ (taken same)
      rw [record]
      exact queried same
    · rw [if_pos same]
      exact ⟨-7, _, rfl, live, timers', agenda', timerOf, bound'⟩
  · rw [if_pos server]
    exact ⟨-6, state, rfl, live, timers, agenda, timerOf, bound⟩

theorem query_bound (bound : Bound conf state live timers agenda timerOf) (member : p ∈ live)
    (ok : message.bRtxType = DEF_FROM_CLIENT → (state.pDNSSESS p).retry → Moves state p supply) :
    ∃ dRet after, query conf state p message supply = some (dRet, after) ∧ after.Bound conf := by
  rw [query]
  by_cases client : message.bRtxType = DEF_FROM_CLIENT
  · rw [if_neg (not_not.mpr client)]
    by_cases retry : (state.pDNSSESS p).retry
    · obtain ⟨timer, timers', agenda', updated, bound'⟩ := update_bound bound member (ok client retry)
      rw [if_pos retry, updated]
      exact ⟨1, _, rfl, live, timers', agenda', timerOf, change_bound bound' member fun _ => rfl⟩
    · rw [if_neg retry]
      have bound' := @change_bound _ _ _ _ _ _ _ bound member (fun session => { session with
        dRequestTime := message.curtime
        dRequestMTime := message.ucurtime
        usPlatformType := DEF_PLATFORM_ETC
        usSvcL4Type := message.usL4Code
        usSvcL7Type := message.usL7Code
        usIdentification := message.Ident
        ucErrorCode := 0 }) fun _ => rfl
      exact ⟨1, _, rfl, live, timers, agenda, timerOf, change_bound bound' member fun _ => rfl⟩
  · rw [if_pos client]
    exact ⟨-9, state, rfl, live, timers, agenda, timerOf, bound⟩

theorem analyze_bound (bound : Bound conf state live timers agenda timerOf) (member : p ∈ live)
    (own : state.pDNSSESSHASH.keyAt p = key.bytes) (ok : AnalyzeOk state p message supply) :
    ∃ dRet after, analyze conf state key p message supply = some (dRet, after) ∧
      after.Bound conf := by
  rw [AnalyzeOk] at ok
  rw [analyze]
  split at ok
  · next isReply =>
      rw [if_pos isReply]
      exact reply_bound bound member own ok
  · next other =>
      rw [if_neg other]
      split
      · exact query_bound bound member ok
      · exact ⟨-10, state, rfl, live, timers, agenda, timerOf, bound⟩

/-- What a message needs: one to a session as `AnalyzeOk` says, one that opens a session a timer. -/
def MessageOk (conf : Conf) (state : DnsState) (message : Message) (supply : Supply) : Prop :=
  match message.key with
  | .error _ => True
  | .ok key =>
      match hashoFind conf.hash state.pDNSSESSHASH key.bytes with
      | some (some p) => AnalyzeOk state p message supply
      | _ => message.bRtxType = DEF_FROM_CLIENT →
          state.pDNSSESSHASH.memg.uiMemNodeAllocedCnt < state.pDNSSESSHASH.memg.uiMemNodeTotCnt →
            Opens state supply

/-- A session that was just opened has not seen a query, and a client's message is no reply to it. -/
theorem opened_analyze (client : message.bRtxType = DEF_FROM_CLIENT) {session : DnsSess}
    (record : state.pDNSSESS p = InitDNSSESS session) : AnalyzeOk state p message supply := by
  rw [AnalyzeOk]
  split
  · intro server
    rw [client] at server
    exact nomatch server
  · intro _ retry
    rw [record] at retry
    exact absurd rfl retry.1

theorem message_bound (bound : state.Bound conf) (ok : MessageOk conf state message supply) :
    ∃ dRet after, dUDPDNSProcess conf state message supply = some (dRet, after) ∧
      after.Bound conf := by
  obtain ⟨live, timers, agenda, timerOf, bound⟩ := bound
  rw [MessageOk] at ok
  rw [dUDPDNSProcess]
  cases keyed : message.key with
  | error code => exact ⟨code, state, rfl, live, timers, agenda, timerOf, bound⟩
  | ok key =>
      have length : key.bytes.length = state.pDNSSESSHASH.usKeyLen :=
        (key_bytes_length key).trans (key_len bound.sizes).symm
      have found := find_spec bound.served.stores bound.served.inRange length
      rw [keyed] at ok
      dsimp only at ok ⊢
      rw [found, Option.bind_some]
      rw [found] at ok
      cases search : live.find? fun p => state.pDNSSESSHASH.keyAt p = key.bytes with
      | some p =>
          rw [search] at ok
          have own : state.pDNSSESSHASH.keyAt p = key.bytes := by
            simpa using List.find?_some search
          exact analyze_bound bound (List.mem_of_find?_eq_some search) own ok
      | none =>
          rw [search] at ok
          dsimp only at ok ⊢
          have absent : key.bytes ∉ live.map state.pDNSSESSHASH.keyAt := by
            intro inside
            obtain ⟨p, member, same⟩ := List.mem_map.mp inside
            exact List.find?_eq_none.mp search p member (decide_eq_true same)
          have within := live_length_le (bound_pool bound)
          rw [bound.served.stores.total] at within
          split
          · next client =>
              by_cases room : live.length < 5 * state.pDNSSESSHASH.uiHashSize
              · have opens := ok client (by
                  rw [bound.served.stores.pool.count, bound.served.stores.total]
                  exact room)
                obtain ⟨p, after, timers', agenda', timerOf', opened, bound', own, record⟩ :=
                  open_room bound absent room opens
                rw [opened, Option.bind_some]
                exact analyze_bound bound' List.mem_cons_self own (opened_analyze client record)
              · rw [open_full bound absent (Nat.le_antisymm within (Nat.le_of_not_lt room))]
                exact ⟨-4, state, rfl, live, timers, agenda, timerOf, bound⟩
          · exact ⟨-5, state, rfl, live, timers, agenda, timerOf, bound⟩

end Messages

section Pass

/-- The timers that are due remove their sessions. -/
theorem invoke_bound (bound : state.Bound conf) {clock : Int} (early : 0 ≤ clock)
    (late : clock + 1 + N_DAY < 2 ^ 31) {sends : List Nat → Send}
    (taken : ∀ nodes, (sends nodes).Taken) :
    ∃ after, invokeTimers conf state clock sends = some after ∧ after.Bound conf := by
  obtain ⟨live, timers, agenda, timerOf, bound⟩ := bound
  let invoke := fun state : DnsState => invoke_del_DNS conf (sends state.nodes) state
  let Inv (info : TimernInfo) (current : DnsState) (live : List Nat) : Prop :=
    current.pTIMERNINFO = info ∧ (∀ q, current.idOf q = state.idOf q) ∧
      Stores conf.hash current.pDNSSESSHASH live ∧
      current.pDNSSESSHASH.sizes = state.pDNSSESSHASH.sizes ∧
      (∀ q ∈ live, current.pDNSSESSHASH.keyAt q = state.pDNSSESSHASH.keyAt q) ∧ Ledger current live
  have closes : ∀ info current live p, Inv info current live → p ∈ live →
      ∃ after, invoke current (delDns (state.pDNSSESSHASH.keyAt p)) = some after ∧
        Inv info after (live.erase p) := by
    intro info current live p inv member
    obtain ⟨timer, ids, stores, sizes, keys, ledger⟩ := inv
    obtain ⟨logs, after, invoked, done, erased, sameTimer, sameIds⟩ :=
      invoke_own (in_range_congr sizes bound.served.inRange) stores (sizes.trans bound.sizes) member
        (taken current.nodes)
    rw [keys p member] at invoked
    refine ⟨after, invoked, sameTimer.trans timer, fun q => (sameIds q).trans (ids q), erased.stores,
      erased.sizes.trans sizes, ?_, ledger_done ledger stores.pool.distinct member done⟩
    intro q kept
    exact (erased.keys q kept).trans (keys q (List.mem_of_mem_erase kept))
  have ledger := bound.ledger
  obtain ⟨info, events, after, live', timers', passed, invoked, inv, served⟩ :=
    @pass_served _ _ _ _ _ _ _ _ _ _ invoke Inv DnsState.pDNSSESSHASH DnsState.idOf
      del_dns_injective bound.served clock early late state.setTimer
      (fun _ => ⟨rfl, fun _ => rfl, bound.served.stores, rfl, fun _ _ => rfl, ledger.strayed,
        ledger.fresh, ledger.apart, ledger.old, ledger.once, ledger.logs, ledger.nodes⟩)
      closes fun _ current _ inv =>
        ⟨inv.2.2.1, inv.2.2.2.1, fun q inside => ⟨inv.2.2.2.2.1 q inside, inv.2.1 q⟩⟩
  obtain ⟨timer, -, -, sizes, -, ledger'⟩ := inv
  refine ⟨after, ?_, live', timers', agenda.afterAll events, timerOf, sizes.trans bound.sizes, ?_,
    ledger'⟩
  · rw [invokeTimers, passed, Option.bind_some]
    exact invoked
  · rw [timer]
    exact served

end Pass

section Run

/-- `timerN_invoke` counts seconds in 31 bits. -/
def StepOk (conf : Conf) (state : DnsState) : Step → Prop
  | .message message supply => MessageOk conf state message supply
  | .invoke clock sends =>
      (0 ≤ clock ∧ clock + 1 + N_DAY < 2 ^ 31) ∧ ∀ nodes, (sends nodes).Taken

theorem step_bound (step : Step) (ok : StepOk conf state step) (bound : state.Bound conf) :
    ∃ after, state.step conf step = some after ∧ after.Bound conf := by
  cases step with
  | message message supply =>
      obtain ⟨dRet, after, processed, bound'⟩ := message_bound bound ok
      refine ⟨after, ?_, bound'⟩
      rw [DnsState.step, processed]
      rfl
  | invoke clock sends => exact invoke_bound bound ok.1.1 ok.1.2 ok.2

/-- Each session has one timer that waits, under the id that it keeps and with its key, and no other
timer waits; ids are given to one timer each; and the ledger is kept. -/
structure Kept (conf : Conf) (state : DnsState) (live timers : List Nat) (timerOf : Nat → Nat) :
    Prop where
  stores : Stores conf.hash state.pDNSSESSHASH live
  linked : Linked state.pTIMERNINFO.pstHASHGINFO timers
  pairs : (live.map timerOf).Perm timers
  timed : ∀ p ∈ live, state.idOf p = some (idAt state.pTIMERNINFO (timerOf p)) ∧
    (state.pTIMERNINFO.pstHASHGINFO.node (timerOf p)).pstData =
      delDns (state.pDNSSESSHASH.keyAt p)
  distinct : ∀ t ∈ timers, ∀ other ∈ timers,
    idAt state.pTIMERNINFO t = idAt state.pTIMERNINFO other → t = other
  ledger : Ledger state live

def DnsState.Kept (conf : Conf) (state : DnsState) : Prop :=
  ∃ live timers timerOf, Adns.Kept conf state live timers timerOf

theorem bound_kept (bound : state.Bound conf) : state.Kept conf := by
  obtain ⟨live, timers, agenda, timerOf, bound⟩ := bound
  have served := bound.served
  refine ⟨live, timers, timerOf, served.stores, served.named.keeps.linked, ?_, ?_,
    served.named.distinct, bound.ledger⟩
  · exact timers_perm served del_dns_injective
  · exact fun p member => ⟨served.ids p member, timer_data served member⟩

theorem init_bound (rawHash : HashoInfo) (rawSess : Nat → DnsSess)
    (heap : Nat → HashgNode TimernKey TimernData) {clock : Int} (early : 0 < clock)
    (late : clock + N_DAY < 2 ^ 31) : (initState conf rawHash rawSess clock heap).Bound conf := by
  have uncut : stHASHOINFO_SIZE + OFFSET_SIZE * DNS_SESS_CNT < 2 ^ 32 := by decide
  have stores := init_stores conf.hash rawHash DNS_SESS_KEY_SIZE conf.DNS_SESS_SIZE uncut
  have keeps := init_keeps (Int.le_of_lt early) late heap
  have small : s32 clock = clock := s32_small (by omega) (by omega)
  have named : Named (timernInit clock heap) (start clock) [] := by
    refine ⟨keeps, ?_, nofun⟩
    show 0 < s32 clock
    rw [small]
    exact early
  refine ⟨[], [], start clock, id, rfl, ⟨?_, stores, ⟨List.nodup_nil, nofun, ?_⟩, named, nofun⟩,
    ⟨rfl, nofun, nofun, nofun, List.nodup_nil, List.Sublist.refl _, rfl⟩⟩
  · exact fun key _ => Nat.mod_lt _ (show 0 < DNS_SESS_CNT by decide)
  · exact fun t waits => absurd rfl waits

/-- Every run in which a new session gets its timer, the deadlines of timers that are moved lie ahead,
a reply to a session finds that a query was seen, and logs that get a node are taken. -/
theorem sessions_kept (conf : Conf) (rawHash : HashoInfo) (rawSess : Nat → DnsSess)
    (heap : Nat → HashgNode TimernKey TimernData) {clock : Int} (early : 0 < clock)
    (late : clock + N_DAY < 2 ^ 31) {steps : List Step}
    (meets : Meets (DnsState.step conf) (StepOk conf) (initState conf rawHash rawSess clock heap)
      steps) :
    ∃ state, steps.foldlM (DnsState.step conf) (initState conf rawHash rawSess clock heap) =
      some state ∧ state.Kept conf := by
  obtain ⟨state, ran, bound⟩ := run_reaches (fun _ step ok bound => step_bound step ok bound) meets
    (init_bound rawHash rawSess heap early late)
  exact ⟨state, ran, bound_kept bound⟩

/-- A message between client 1 and server 2, with the first byte of `Param`. -/
def dnsMessage (bRtxType : Nat) (param : UInt8) : Message where
  bRtxType := bRtxType
  curtime := 100
  ucurtime := 7
  dwSrcIP := if bRtxType = DEF_FROM_CLIENT then 1 else 2
  dwDestIP := if bRtxType = DEF_FROM_CLIENT then 2 else 1
  wSrcPort := if bRtxType = DEF_FROM_CLIENT then 4000 else 53
  wDestPort := if bRtxType = DEF_FROM_CLIENT then 53 else 4000
  wIPHeaderLen := 20
  wHeaderLen := 8
  wTotalLength := 60
  usL4Code := 0
  usL7Code := 0
  pDATA := fun place => if place = 44 then param else 0

def blankSess (_ : Nat) : DnsSess := InitDNSSESS ⟨0, 0, 0, none, 0, 0, 0, 0, 0, 0, 0, 0, 0, 0⟩

def smallConf : Conf := ⟨100, 4, 96⟩

/-- A process that starts at second 100. -/
def stateAt100 : DnsState := initState smallConf blankTable blankSess 100 blankHeap

/-- A timeout of half a minute, memory for a timer, and a node for a log. -/
def supplyAt (time : Int) : Supply where
  time := time
  guiTimerValue := 30
  malloc := nextBlock
  DNSSESS := blankSess 0
  late := ⟨none, true, 1⟩
  send := ⟨some 4096, true, 1⟩

/-- A query and its reply. -/
def answeredQuery : List Step :=
  [.message (dnsMessage DEF_FROM_CLIENT 0) (supplyAt 100),
    .message (dnsMessage DEF_FROM_SERVER DEF_CHECK_QR) (supplyAt 101)]

theorem sessions_kept_answered : ∃ state,
    answeredQuery.foldlM (DnsState.step smallConf) stateAt100 = some state ∧ state.Kept smallConf := by
  have found : hashoFind smallConf.hash stateAt100.pDNSSESSHASH
      (DnsSessKey.bytes ⟨1, 2, 4000, 53⟩) = some none := by decide +kernel
  have unused : Unused stateAt100.pTIMERNINFO (nextId stateAt100.pTIMERNINFO 130) := by decide +kernel
  have first : MessageOk smallConf stateAt100 (dnsMessage DEF_FROM_CLIENT 0) (supplyAt 100) := by
    show (match hashoFind smallConf.hash stateAt100.pDNSSESSHASH
      (DnsSessKey.bytes ⟨1, 2, 4000, 53⟩) with
      | some (some p) => AnalyzeOk stateAt100 p (dnsMessage DEF_FROM_CLIENT 0) (supplyAt 100)
      | _ => _)
    rw [found]
    exact fun _ _ => ⟨by decide, by decide, unused, _, rfl, next_block_fresh _ _ rfl⟩
  have second : (stateAt100.step smallConf (.message (dnsMessage DEF_FROM_CLIENT 0)
      (supplyAt 100))).all fun state =>
        decide (hashoFind smallConf.hash state.pDNSSESSHASH (DnsSessKey.bytes ⟨1, 2, 4000, 53⟩) =
          some (some 40076) ∧ Moves state 40076 (supplyAt 101) ∧ (state.pDNSSESS 40076).Queried) := by
    decide +kernel
  have meets : Meets (DnsState.step smallConf) (StepOk smallConf) stateAt100 answeredQuery := by
    refine ⟨first, fun after stepped => ⟨?_, fun _ _ => trivial⟩⟩
    rw [stepped] at second
    obtain ⟨found, moves, queried⟩ := of_decide_eq_true second
    show (match hashoFind smallConf.hash after.pDNSSESSHASH (DnsSessKey.bytes ⟨1, 2, 4000, 53⟩) with
      | some (some p) => AnalyzeOk after p (dnsMessage DEF_FROM_SERVER DEF_CHECK_QR) (supplyAt 101)
      | _ => _)
    rw [found]
    exact fun _ => ⟨moves, fun _ => queried, fun _ _ _ => ⟨rfl, by decide⟩⟩
  exact sessions_kept smallConf blankTable blankSess blankHeap (by decide) (by decide) meets

/-- A client's message that is marked as a reply opens a session; the server's reply to the identification
0 removes it, goes on with its record and removes it again. -/
theorem reply_without_query : ∃ state,
    [Step.message (dnsMessage DEF_FROM_CLIENT DEF_CHECK_QR) (supplyAt 100),
      .message (dnsMessage DEF_FROM_SERVER DEF_CHECK_QR) (supplyAt 101)].foldlM
        (DnsState.step smallConf) stateAt100 = some state ∧ ¬ state.Kept smallConf := by
  have ledgers : ([Step.message (dnsMessage DEF_FROM_CLIENT DEF_CHECK_QR) (supplyAt 100),
      .message (dnsMessage DEF_FROM_SERVER DEF_CHECK_QR) (supplyAt 101)].foldlM
        (DnsState.step smallConf) stateAt100).map (fun state => (state.strayed, state.removed)) =
      some ([40076, 40076, 40076], [0, 0]) := by decide +kernel
  obtain ⟨state, ran, ledger⟩ := Option.map_eq_some_iff.mp ledgers
  refine ⟨state, ran, ?_⟩
  intro ⟨live, timers, timerOf, kept⟩
  have strayed := kept.ledger.strayed
  rw [(Prod.mk.inj ledger).1] at strayed
  exact nomatch strayed

end Run

end Upst.Adns
