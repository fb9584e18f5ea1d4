import Upst.Tcp
import Upst.HashoRun
import Upst.TimernRun

/-!
The count of sessions and the table of sessions. Both go up where `pCreateSession` adds a
session and down where `dCloseSession` deletes one; they part where the former fails, and
where a session is closed that the callback of its timer has closed before.
-/

namespace Upst.Tcp

open Bytes Word Entries Hasho Hashg Timern Deadlines Interleave

set_option autoImplicit false

section Table

variable {hash : List UInt8 → Nat} {sizes : HashoSizes} {table : HashoInfo} {map : Contents}
  {key : List UInt8}

theorem find_matches (inv : Matches hash sizes table map) (length : key.length = sizes.usKeyLen) :
    ∃ found, hashoFind hash table key = some found ∧ (found.isSome ↔ key ∈ map) := by
  obtain ⟨inRange, rfl, live, stores, same⟩ := inv
  refine ⟨_, find_spec stores inRange length, ?_⟩
  rw [same_mem same, Hasho.entries_keys, List.find?_isSome, List.mem_map]
  simp

/-- The table has a node that is not in use. -/
theorem room_matches (inv : Matches hash sizes table map) :
    table.memg.uiMemNodeAllocedCnt = map.keys.card ∧
      table.memg.uiMemNodeTotCnt = 5 * sizes.uiHashSize ∧ map.keys.card ≤ 5 * sizes.uiHashSize := by
  have counter := (matches_sound inv).counter
  obtain ⟨-, rfl, live, stores, same⟩ := inv
  have card : map.keys.card = live.length := by
    rw [same_card same (by rw [Hasho.entries_keys]; exact stores.keys), HashoInfo.entries,
      List.length_map]
  have within := Hasho.live_length_le stores.pool
  rw [stores.total, ← card] at within
  exact ⟨counter, stores.total, within⟩

theorem add_new (inv : Matches hash sizes table map) {pData : List UInt8}
    (keyLen : key.length = sizes.usKeyLen) (dataLen : pData.length = sizes.usDataLen)
    (absent : key ∉ map) (room : map.keys.card ≠ 5 * sizes.uiHashSize) :
    ∃ p after, hashoAdd hash table key pData = some (some p, after) ∧
      Matches hash sizes after (map.insert key pData) := by
  obtain ⟨after, stepped, matched, -⟩ := add_matches inv keyLen dataLen
  simp only [Hasho.specStep, if_neg (not_or.mpr ⟨absent, room⟩)] at stepped matched
  obtain ⟨⟨node, table'⟩, added, answer⟩ := Option.bind_eq_some_iff.mp stepped
  obtain ⟨fresh, rfl⟩ := Prod.mk.inj (Option.some.inj answer)
  obtain ⟨p, rfl⟩ := Option.isSome_iff_exists.mp (Hasho.Answer.added.inj fresh)
  exact ⟨p, table', added, matched⟩

theorem insert_card (absent : key ∉ map) (pData : List UInt8) :
    (map.insert key pData).keys.card = map.keys.card + 1 := by
  have keys : (map.insert key pData).keys = insert key map.keys := by
    ext other
    simp only [Finmap.mem_keys, Finmap.mem_insert, Finset.mem_insert]
  rw [keys, Finset.card_insert_of_notMem (by rwa [Finmap.mem_keys])]

theorem erase_card (present : key ∈ map) : (map.erase key).keys.card = map.keys.card - 1 := by
  rw [Finmap.keys_erase, Finset.card_erase_of_mem (Finmap.mem_keys.mpr present)]

theorem card_pos (present : key ∈ map) : 0 < map.keys.card :=
  Finset.card_pos.mpr ⟨key, Finmap.mem_keys.mpr present⟩

end Table

variable {hash : List UInt8 → Nat} {sizes : HashoSizes} {state state' : TcpState} {map : Contents}
  {key : List UInt8} {p : Nat}

section Close

/-- The table holds the entries of the map, and the process counts them. -/
structure Counts (hash : List UInt8 → Nat) (sizes : HashoSizes) (state : TcpState)
    (map : Contents) : Prop where
  table : Matches hash sizes state.pTCPHASH map
  count : state.curSessCnt = map.keys.card

/-- A callback changes nothing of a record but that it may end it. -/
def Ended (sess sess' : TcpSess) : Prop :=
  sess' = sess ∨ sess' = { sess with ucEndStatus := .longLast }

theorem Ended.trans {first second third : TcpSess} (before : Ended first second)
    (later : Ended second third) : Ended first third := by
  rcases before with rfl | rfl
  · exact later
  · rcases later with rfl | rfl
    · exact Or.inr rfl
    · exact Or.inr rfl

theorem Ended.abnormal {sess sess' : TcpSess} (ended : Ended sess sess')
    (abnormal : sess.ucEndStatus ≠ .normal) : sess'.ucEndStatus ≠ .normal := by
  rcases ended with rfl | rfl
  · exact abnormal
  · exact EndStatus.noConfusion

theorem close_counts (counts : Counts hash sizes state map) (length : key.length = sizes.usKeyLen)
    (present : key ∈ map) :
    ∃ state', dCloseSession hash state key = some state' ∧
      Counts hash sizes state' (map.erase key) ∧ state'.sess = state.sess ∧
        state'.pTIMER = state.pTIMER := by
  obtain ⟨table, deleted, matched⟩ := del_matches counts.table length
  refine ⟨{ state with curSessCnt := u64Pred state.curSessCnt, pTCPHASH := table }, ?_,
    ⟨matched, ?_⟩, rfl, rfl⟩
  · rw [dCloseSession, deleted]
    rfl
  · show u64Pred state.curSessCnt = (map.erase key).keys.card
    rw [erase_card present, counts.count, u64_pred_pos (card_pos present)]

theorem set_sess_counts (counts : Counts hash sizes state map) (p : Nat) (sess : TcpSess) :
    Counts hash sizes (state.setSess p sess) map := ⟨counts.table, counts.count⟩

theorem set_timer_counts (counts : Counts hash sizes state map) (timer : TimernInfo) :
    Counts hash sizes (state.setTimer timer) map := ⟨counts.table, counts.count⟩

theorem set_sess_own (state : TcpState) (p : Nat) (sess : TcpSess) :
    (state.setSess p sess).sess p = sess := Function.update_self ..

variable (keySize : sizes.usKeyLen = TCP_SESS_KEY_SIZE)

include keySize

theorem common_key_length (arg : List UInt8) : (commonKey arg).length = sizes.usKeyLen := by
  rw [commonKey, read_bytes_length, keySize]

theorem invoke_del_counts (counts : Counts hash sizes state map) (arg : List UInt8) :
    ∃ state' map', invokeDel hash state arg = some state' ∧ Counts hash sizes state' map' ∧
      ∀ p, Ended (state.sess p) (state'.sess p) := by
  have length := common_key_length keySize arg
  obtain ⟨found, search, present⟩ := find_matches counts.table length
  rw [invokeDel, search]
  simp only [Option.bind_eq_bind, Option.bind_some]
  cases found with
  | none => exact ⟨state, map, rfl, counts, fun p => Or.inl rfl⟩
  | some p =>
      obtain ⟨state', closed, counts', sess, -⟩ :=
        close_counts (set_sess_counts counts p _) length (present.mp rfl)
      refine ⟨state', map.erase (commonKey arg), closed, counts', ?_⟩
      intro q
      rw [sess]
      by_cases own : q = p
      · subst own
        rw [set_sess_own]
        split
        · exact Or.inr rfl
        · exact Or.inl rfl
      · exact Or.inl (Function.update_of_ne own ..)

theorem run_invoked_counts (events : List TimerEvent) : ∀ {state : TcpState} {map : Contents},
    Counts hash sizes state map → ∃ state' map', runInvoked hash state events = some state' ∧
      Counts hash sizes state' map' ∧ ∀ p, Ended (state.sess p) (state'.sess p) := by
  induction events with
  | nil =>
      intro state map counts
      exact ⟨state, map, rfl, counts, fun p => Or.inl rfl⟩
  | cons event rest ih =>
      intro state map counts
      rw [runInvoked, List.foldlM_cons]
      cases event.invoked with
      | none => exact ih counts
      | some data =>
          obtain ⟨state₁, map₁, ran₁, counts₁, ended₁⟩ := invoke_del_counts keySize counts data.arg
          obtain ⟨state₂, map₂, ran₂, counts₂, ended₂⟩ := ih counts₁
          refine ⟨state₂, map₂, ?_, counts₂, fun p => (ended₁ p).trans (ended₂ p)⟩
          simp only [Option.bind_eq_bind, ran₁, Option.bind_some]
          exact ran₂

end Close

section Timers

theorem update_quiet {info info' : TimernInfo} {timerNid : TimernKey} {timeout : Int}
    {invoke : TimernInfo → Option (TimernInfo × List TimerEvent)} {answer : Option TimernKey}
    {events : List TimerEvent}
    (later : hashgFind info.pstHASHGINFO timerNid = some none ∨ info.uiCurrentTime < timeout)
    (ran : timernUpdate info timerNid timeout invoke = some (answer, info', events)) :
    ∀ event ∈ events, event.invoked = none := by
  obtain ⟨found, search, ran⟩ := Option.bind_eq_some_iff.mp ran
  cases found with
  | none =>
      cases ran
      simp
  | some p =>
      have ahead : ¬timeout ≤ info.uiCurrentTime := by
        rcases later with nothing | ahead
        · rw [nothing] at search
          cases search
        · exact Int.not_le.mpr ahead
      obtain ⟨hash, keyed, ran⟩ := Option.bind_eq_some_iff.mp ran
      rw [if_neg ahead] at ran
      obtain ⟨latest, -, ran⟩ := Option.bind_eq_some_iff.mp ran
      split at ran
      · obtain ⟨hash', unlink, ran⟩ := Option.bind_eq_some_iff.mp ran
        obtain ⟨hash'', link, ran⟩ := Option.bind_eq_some_iff.mp ran
        cases ran
        simp [Event.invoked]
      · cases ran
        simp

theorem run_invoked_quiet (hash : List UInt8 → Nat) (state : TcpState) {events : List TimerEvent}
    (quiet : ∀ event ∈ events, event.invoked = none) :
    runInvoked hash state events = some state := by
  induction events with
  | nil => rfl
  | cons event rest ih =>
      rw [runInvoked, List.foldlM_cons, quiet event List.mem_cons_self]
      exact ih fun other member => quiet other (.tail _ member)

variable {timeout : Int}

/-- The update of a session's timer runs no callback. -/
def TcpState.TimerAhead (state : TcpState) (p : Nat) (timeout : Int) : Prop :=
  hashgFind state.pTIMER.pstHASHGINFO (timerKey (state.sess p).timerNID) = some none ∨
    state.pTIMER.uiCurrentTime < timeout

theorem timer_update_quiet (ahead : state.TimerAhead p timeout)
    (ran : timerUpdate hash state p timeout = some state') :
    ∃ timer timerNID, state' =
      (state.setTimer timer).setSess p { state.sess p with timerNID := timerNID } := by
  obtain ⟨⟨timerNID, timer, events⟩, updated, ran⟩ := Option.bind_eq_some_iff.mp ran
  dsimp only at ran
  rw [run_invoked_quiet hash _ (update_quiet ahead updated)] at ran
  exact ⟨timer, timerNID, (Option.some.inj ran).symm⟩

theorem timer_update_counts (keySize : sizes.usKeyLen = TCP_SESS_KEY_SIZE)
    (counts : Counts hash sizes state map) (ran : timerUpdate hash state p timeout = some state') :
    ∃ map' timerNID sess, Counts hash sizes state' map' ∧ Ended (state.sess p) sess ∧
      state'.sess p = { sess with timerNID := timerNID } := by
  obtain ⟨⟨timerNID, timer, events⟩, -, ran⟩ := Option.bind_eq_some_iff.mp ran
  obtain ⟨state₁, map₁, invoked, counts₁, ended⟩ :=
    run_invoked_counts keySize events (set_timer_counts counts timer)
  dsimp only at ran
  rw [invoked] at ran
  obtain rfl := Option.some.inj ran
  exact ⟨map₁, timerNID, state₁.sess p, set_sess_counts counts₁ p _, ended p, set_sess_own ..⟩

theorem timer_del_counts (counts : Counts hash sizes state map)
    (ran : timerDel state p = some state') :
    Counts hash sizes state' map ∧ state'.pTCPHASH = state.pTCPHASH := by
  obtain ⟨⟨timer, events⟩, -, ran⟩ := Option.bind_eq_some_iff.mp ran
  obtain rfl := Option.some.inj ran
  exact ⟨set_timer_counts counts timer, rfl⟩

end Timers

section Packets

variable {packet : Packet} {supply : Supply}

/-- `nifo_node_alloc` and `nifo_tlv_alloc` succeed where they are called. -/
def Supply.Logs (supply : Supply) : Prop := supply.logNode = true ∧ supply.logTlv = true

theorem create_counts (keySize : sizes.usKeyLen = TCP_SESS_KEY_SIZE)
    (small : 5 * sizes.uiHashSize < 2 ^ 64) (counts : Counts hash sizes state map)
    (length : key.length = sizes.usKeyLen) (absent : key ∉ map) (logs : supply.Logs)
    (room : map.keys.card ≠ 5 * sizes.uiHashSize) {control : Control} {created : Option Nat}
    (ran : pCreateSession hash state key packet control supply = some (created, state')) :
    ∃ map', Counts hash sizes state' map' ∧
      ∀ p, created = some p → (state'.sess p).ucEndStatus ≠ .normal := by
  have dataLen : (List.replicate state.pTCPHASH.usDataLen (0 : UInt8)).length = sizes.usDataLen := by
    rw [List.length_replicate]
    exact congrArg HashoSizes.usDataLen counts.table.sizesEq
  obtain ⟨p, table, added, matched⟩ := add_new counts.table length dataLen absent room
  have within := (room_matches counts.table).2.2
  have counted : u64 (state.curSessCnt + 1) =
      (map.insert key (List.replicate state.pTCPHASH.usDataLen 0)).keys.card := by
    rw [insert_card absent, counts.count, u64_small (by omega)]
  rw [pCreateSession] at ran
  simp only [logs.1, logs.2, not_true_eq_false, if_false, added, Option.bind_eq_bind,
    Option.bind_some] at ran
  obtain ⟨⟨timerNID, timer, events⟩, -, ran⟩ := Option.bind_eq_some_iff.mp ran
  obtain ⟨state₁, invoked, ran⟩ := Option.bind_eq_some_iff.mp ran
  obtain ⟨rfl, rfl⟩ := Prod.mk.inj (Option.some.inj ran)
  let opened := { state with pTCPHASH := table, curSessCnt := u64 (state.curSessCnt + 1) }
  have counts₀ : Counts hash sizes opened _ := ⟨matched, counted⟩
  obtain ⟨state₂, map₂, invoked', counts₂, ended⟩ := run_invoked_counts keySize events
    (set_timer_counts (set_sess_counts counts₀ p (newSession packet control)) timer)
  obtain rfl := Option.some.inj (invoked'.symm.trans invoked)
  refine ⟨map₂, set_sess_counts counts₂ p _, ?_⟩
  rintro _ ⟨⟩
  have status : (newSession packet control).ucEndStatus ≠ .normal := EndStatus.noConfusion
  have kept := ended p
  rw [show ((opened.setSess p (newSession packet control)).setTimer timer).sess p =
    newSession packet control from set_sess_own ..] at kept
  rw [set_sess_own]
  exact kept.abnormal status

theorem proc_end_counts (keySize : sizes.usKeyLen = TCP_SESS_KEY_SIZE)
    (counts : Counts hash sizes state map) (length : key.length = sizes.usKeyLen)
    (present : (state.sess p).ucEndStatus = .normal → key ∈ map)
    (ran : procEnd hash state key p supply = some state') :
    ∃ map', Counts hash sizes state' map' := by
  rw [procEnd] at ran
  split at ran
  next normal =>
    obtain ⟨state₁, closed, ran⟩ := Option.bind_eq_some_iff.mp ran
    obtain ⟨state₂, closed', counts₂, -⟩ := close_counts counts length (present normal)
    obtain rfl := Option.some.inj (closed'.symm.trans closed)
    exact ⟨_, (timer_del_counts counts₂ ran).1⟩
  next =>
    obtain ⟨map', -, -, counts', -⟩ := timer_update_counts keySize counts ran
    exact ⟨map', counts'⟩
  next =>
    obtain rfl := Option.some.inj ran
    exact ⟨map, counts⟩

theorem proc_new_counts (keySize : sizes.usKeyLen = TCP_SESS_KEY_SIZE)
    (small : 5 * sizes.uiHashSize < 2 ^ 64) (counts : Counts hash sizes state map)
    (length : key.length = sizes.usKeyLen) (absent : key ∉ map) (logs : supply.Logs)
    (room : map.keys.card ≠ 5 * sizes.uiHashSize) {control : Control}
    (ran : procNew hash state key packet control supply = some state') :
    ∃ map', Counts hash sizes state' map' := by
  obtain ⟨⟨created, state₁⟩, opened, ran⟩ := Option.bind_eq_some_iff.mp ran
  obtain ⟨map₁, counts₁, status⟩ :=
    create_counts keySize small counts length absent logs room opened
  cases created with
  | none =>
      obtain rfl := Option.some.inj ran
      exact ⟨map₁, counts₁⟩
  | some p =>
      dsimp only at ran
      split at ran
      · exact proc_end_counts keySize counts₁ length
          (fun normal => absurd normal (status p rfl)) ran
      · obtain rfl := Option.some.inj ran
        exact ⟨map₁, counts₁⟩

/-- The packet makes `dProcTcpSess` close the session itself. -/
def TcpSess.Closes (sess : TcpSess) (packet : Packet) : Prop :=
  match sess.verdict packet with
  | .keep sess => sess.ucEndStatus = .normal
  | .renew => True
  | .strange => False

theorem fin_end (sess : TcpSess) (packet : Packet) :
    (sess.onFin packet).ucEndStatus = sess.ucEndStatus := by
  unfold TcpSess.onFin TcpSess.refin TcpSess.setFinAcked
  split
  · rfl
  · split
    · split <;> rfl
    · dsimp only
      split <;> rfl
  · split <;> rfl
  · rfl

/-- A callback does not make a packet close the session. -/
theorem ended_closes {sess sess' : TcpSess} (ended : Ended sess sess') (timerNID : Option TimernKey)
    (closes : ({ sess' with timerNID := timerNID } : TcpSess).Closes packet) :
    sess.Closes packet := by
  rw [TcpSess.Closes, TcpSess.verdict] at closes ⊢
  cases control : getTCPControl packet.nControlType with
  | syn =>
      rw [control] at closes
      rcases ended with rfl | rfl
      · simp only [TcpSess.onSyn] at closes ⊢
        grind
      · simp only [TcpSess.onSyn] at closes ⊢
        grind
  | synAck =>
      rw [control] at closes
      rcases ended with rfl | rfl
      · simp only [TcpSess.onSynAck] at closes ⊢
        grind
      · simp only [TcpSess.onSynAck] at closes ⊢
        grind
  | rst =>
      rw [control] at closes
      cases closes
  | fin =>
      rw [control] at closes
      dsimp only at closes ⊢
      rw [fin_end] at closes ⊢
      rcases ended with rfl | rfl
      · exact closes
      · cases closes
  | ack =>
      rw [control] at closes
      rcases ended with rfl | rfl
      · simp only [TcpSess.onAck, TcpSess.finAcked, TcpSess.setFinAcked] at closes ⊢
        grind
      · simp only [TcpSess.onAck, TcpSess.finAcked, TcpSess.setFinAcked] at closes ⊢
        grind
  | other =>
      rw [control] at closes
      exact closes

def Verdict.withTimer (timerNID : Option TimernKey) : Verdict → Verdict
  | .keep sess => .keep { sess with timerNID := timerNID }
  | .renew => .renew
  | .strange => .strange

theorem fin_timer (sess : TcpSess) (packet : Packet) (timerNID : Option TimernKey) :
    ({ sess with timerNID := timerNID } : TcpSess).onFin packet =
      { sess.onFin packet with timerNID := timerNID } := by
  rcases sess with ⟨ucStatus, ucFinStatus, ucEndStatus, ucSynRtx, ucFinRtx, ucRstRtx, ucRcvSyn,
    uiSynSeq, uiSynAckSeq, uiSynAckAck, uiFinChkSeq, uiFinChkAck, old⟩
  cases ucFinStatus with
  | fin0 => rfl
  | fin1 =>
      simp only [TcpSess.onFin, TcpSess.refin]
      split
      · split <;> rfl
      · grind [TcpSess.finAcked, TcpSess.setFinAcked]
  | fin2 =>
      simp only [TcpSess.onFin, TcpSess.refin]
      split <;> rfl
  | fin3 => rfl

/-- What a packet does with a session does not depend on its timer, and leaves it. -/
theorem verdict_timer (sess : TcpSess) (packet : Packet) (timerNID : Option TimernKey) :
    ({ sess with timerNID := timerNID } : TcpSess).verdict packet =
      (sess.verdict packet).withTimer timerNID := by
  rw [TcpSess.verdict, TcpSess.verdict]
  cases getTCPControl packet.nControlType with
  | syn =>
      simp only [TcpSess.onSyn]
      split
      · rfl
      · split <;> rfl
  | synAck =>
      simp only [TcpSess.onSynAck]
      split
      · rfl
      · split <;> rfl
  | rst => rfl
  | fin => exact congrArg Verdict.keep (fin_timer sess packet timerNID)
  | ack =>
      simp only [TcpSess.onAck]
      split
      · rfl
      · grind [TcpSess.finAcked, TcpSess.setFinAcked, Verdict.withTimer]
  | other => rfl

/-- Whether a session is renewed does not depend on its timer. -/
theorem verdict_renew {sess : TcpSess} {timerNID : Option TimernKey}
    (renews : ({ sess with timerNID := timerNID } : TcpSess).verdict packet = .renew) :
    sess.verdict packet = .renew := by
  rw [verdict_timer] at renews
  cases verdict : sess.verdict packet with
  | keep kept =>
      rw [verdict] at renews
      cases renews
  | strange =>
      rw [verdict] at renews
      cases renews
  | renew => rfl

def TcpState.HasRoom (state : TcpState) : Prop :=
  state.pTCPHASH.memg.uiMemNodeAllocedCnt < state.pTCPHASH.memg.uiMemNodeTotCnt

/-- A session that the packet creates has its nodes, and one that it closes has not been closed
by its timer just before. -/
def PacketOk (hash : List UInt8 → Nat) (state : TcpState) (packet : Packet) (supply : Supply) : Prop :=
  match hashoFind hash state.pTCPHASH (makeTCPHashKey packet).bytes with
  | none => True
  | some none =>
      getTCPControl packet.nControlType = .syn ∨ getTCPControl packet.nControlType = .synAck →
        supply.Logs ∧ state.HasRoom
  | some (some p) =>
      ((state.sess p).verdict packet = .renew → supply.Logs) ∧
        ((state.sess p).Closes packet → state.TimerAhead p supply.updateTimeout)

theorem renew_counts (keySize : sizes.usKeyLen = TCP_SESS_KEY_SIZE)
    (small : 5 * sizes.uiHashSize < 2 ^ 64) (counts : Counts hash sizes state map)
    (length : key.length = sizes.usKeyLen) (present : key ∈ map) (logs : supply.Logs)
    {control : Control}
    (ran : (do
      let state ← dCloseSession hash state key
      let state ← timerDel state p
      procNew hash state key packet control supply) = some state') :
    ∃ map', Counts hash sizes state' map' := by
  obtain ⟨state₁, closed, later⟩ := Option.bind_eq_some_iff.mp ran
  obtain ⟨state₂, deleted, created⟩ := Option.bind_eq_some_iff.mp later
  obtain ⟨state₃, closed', counts₃, -⟩ := close_counts counts length present
  obtain rfl := Option.some.inj (closed'.symm.trans closed)
  obtain ⟨counts₂, -⟩ := timer_del_counts counts₃ deleted
  have absent : key ∉ map.erase key := by
    rw [Finmap.mem_erase]
    exact fun member => member.1 rfl
  -- the deleted session has left a node
  have room : (map.erase key).keys.card ≠ 5 * sizes.uiHashSize := by
    have within := (room_matches counts.table).2.2
    have positive := card_pos present
    rw [erase_card present]
    omega
  exact proc_new_counts keySize small counts₂ length absent logs room created

theorem packet_counts (keySize : sizes.usKeyLen = TCP_SESS_KEY_SIZE)
    (small : 5 * sizes.uiHashSize < 2 ^ 64) (counts : Counts hash sizes state map)
    (ok : PacketOk hash state packet supply)
    (ran : dProcTcpSess hash state packet supply = some state') :
    ∃ map', Counts hash sizes state' map' := by
  have length : (makeTCPHashKey packet).bytes.length = sizes.usKeyLen := keySize.symm
  obtain ⟨found, search, present⟩ := find_matches counts.table length
  rw [PacketOk, search] at ok
  rw [dProcTcpSess, search] at ran
  simp only [Option.bind_eq_bind, Option.bind_some] at ran
  cases found with
  | none =>
      dsimp only at ran ok
      split at ran
      next opens =>
        obtain ⟨logs, room⟩ := ok opens
        have absent : (makeTCPHashKey packet).bytes ∉ map := fun member => by
          cases present.mpr member
        have free : map.keys.card ≠ 5 * sizes.uiHashSize := by
          obtain ⟨alloced, total, -⟩ := room_matches counts.table
          rw [TcpState.HasRoom, alloced, total] at room
          exact Nat.ne_of_lt room
        exact proc_new_counts keySize small counts length absent logs free ran
      next =>
        obtain rfl := Option.some.inj ran
        exact ⟨map, counts⟩
  | some p =>
      have member := present.mp rfl
      obtain ⟨renewLogs, closesAhead⟩ := ok
      obtain ⟨state₁, updated, ran⟩ := Option.bind_eq_some_iff.mp ran
      by_cases ahead : state.TimerAhead p supply.updateTimeout
      · obtain ⟨timer, timerNID, rfl⟩ := timer_update_quiet ahead updated
        have counts₁ := set_sess_counts (set_timer_counts counts timer) p
          { state.sess p with timerNID := timerNID }
        rw [set_sess_own] at ran
        cases verdict : ({ state.sess p with timerNID := timerNID } : TcpSess).verdict packet with
        | keep sess =>
            rw [verdict] at ran
            exact proc_end_counts keySize (set_sess_counts counts₁ p sess) length
              (fun _ => member) ran
        | strange =>
            rw [verdict] at ran
            obtain rfl := Option.some.inj ran
            exact ⟨map, counts₁⟩
        | renew =>
            rw [verdict] at ran
            exact renew_counts keySize small (set_sess_counts counts₁ p _) length member
              (renewLogs (verdict_renew verdict)) ran
      · -- the callback may have closed the session; the packet does not
        have keeps : ¬(state.sess p).Closes packet := fun closes => ahead (closesAhead closes)
        obtain ⟨map₁, timerNID, sess, counts₁, ended, own⟩ :=
          timer_update_counts keySize counts updated
        have open' := fun closes => keeps (ended_closes ended timerNID closes)
        rw [own] at ran
        rw [TcpSess.Closes] at open'
        cases verdict : ({ sess with timerNID := timerNID } : TcpSess).verdict packet with
        | keep sess' =>
            rw [verdict] at ran open'
            refine proc_end_counts keySize (set_sess_counts counts₁ p sess') length ?_ ran
            intro normal
            rw [set_sess_own] at normal
            exact absurd normal open'
        | strange =>
            rw [verdict] at ran
            obtain rfl := Option.some.inj ran
            exact ⟨map₁, counts₁⟩
        | renew =>
            rw [verdict] at open'
            exact absurd trivial open'

end Packets

section Run

theorem del_sess_key_counts {state state' : TcpState} {map : Contents} {key : List UInt8}
    (counts : Counts hash sizes state map) (length : key.length = sizes.usKeyLen)
    (ran : delSessKey hash state key = some state') : ∃ map', Counts hash sizes state' map' := by
  obtain ⟨found, search, present⟩ := find_matches counts.table length
  rw [delSessKey, search] at ran
  simp only [Option.bind_eq_bind, Option.bind_some] at ran
  cases found with
  | none =>
      obtain rfl := Option.some.inj ran
      exact ⟨map, counts⟩
  | some p =>
      obtain ⟨state₁, closed, ran⟩ := Option.bind_eq_some_iff.mp ran
      obtain ⟨state₂, closed', counts₂, -⟩ :=
        close_counts (set_sess_counts counts p _) length (present.mp rfl)
      obtain rfl := Option.some.inj (closed'.symm.trans closed)
      exact ⟨_, (timer_del_counts counts₂ ran).1⟩

theorem clear_call_counts (keySize : sizes.usKeyLen = TCP_SESS_KEY_SIZE) {keys : List TcpSessKey} :
    ∀ {state state' : TcpState} {map : Contents}, Counts hash sizes state map →
      keys.foldlM (fun state key => delSessKey hash state key.bytes) state = some state' →
      ∃ map', Counts hash sizes state' map' := by
  induction keys with
  | nil =>
      intro state state' map counts ran
      obtain rfl := Option.some.inj ran
      exact ⟨map, counts⟩
  | cons key rest ih =>
      intro state state' map counts ran
      obtain ⟨state₁, deleted, later⟩ := run_cons ran
      obtain ⟨map₁, counts₁⟩ := @del_sess_key_counts _ _ _ _ _ key.bytes counts keySize.symm deleted
      exact ih counts₁ later

def StepOk (hash : List UInt8 → Nat) (state : TcpState) : Step → Prop
  | .packet packet supply => PacketOk hash state packet supply
  | .invoke _ => True
  | .clearCall _ => True

theorem step_counts (keySize : sizes.usKeyLen = TCP_SESS_KEY_SIZE)
    (small : 5 * sizes.uiHashSize < 2 ^ 64) {state state' : TcpState} {map : Contents} {step : Step}
    (counts : Counts hash sizes state map) (ok : StepOk hash state step)
    (ran : state.step hash step = some state') : ∃ map', Counts hash sizes state' map' := by
  cases step with
  | packet packet supply => exact packet_counts keySize small counts ok ran
  | invoke clock =>
      obtain ⟨⟨timer, events⟩, -, ran⟩ := Option.bind_eq_some_iff.mp ran
      obtain ⟨state₁, map₁, invoked, counts₁, -⟩ :=
        run_invoked_counts keySize events (set_timer_counts counts timer)
      obtain rfl := Option.some.inj (invoked.symm.trans ran)
      exact ⟨map₁, counts₁⟩
  | clearCall keys => exact clear_call_counts keySize counts ran

/-- In every state that a run reaches whose steps meet the condition, the process counts the
sessions of its table. -/
theorem session_count (rawHash : HashoInfo) (rawSess : Nat → TcpSess)
    (heap : Nat → HashgNode TimernKey TimernData) (clock : Int) {TCP_SESS_SIZE TCP_SESS_CNT : Nat}
    (inRange : ∀ key : List UInt8, key.length = TCP_SESS_KEY_SIZE → hash key < TCP_SESS_CNT)
    (uncut : stHASHOINFO_SIZE + OFFSET_SIZE * TCP_SESS_CNT < 2 ^ 32) {steps : List Step}
    {state : TcpState}
    (meets : Meets (TcpState.step hash) (StepOk hash)
      (dInitTcp rawHash rawSess TCP_SESS_SIZE TCP_SESS_CNT clock heap) steps)
    (run : steps.foldlM (TcpState.step hash)
      (dInitTcp rawHash rawSess TCP_SESS_SIZE TCP_SESS_CNT clock heap) = some state) :
    ∃ map, Matches hash ⟨TCP_SESS_KEY_SIZE, TCP_SESS_SIZE, TCP_SESS_CNT⟩ state.pTCPHASH map ∧
      state.curSessCnt = map.keys.card := by
  have small : 5 * TCP_SESS_CNT < 2 ^ 64 := by
    simp only [stHASHOINFO_SIZE, OFFSET_SIZE] at uncut
    omega
  let sizes : HashoSizes := ⟨TCP_SESS_KEY_SIZE, TCP_SESS_SIZE, TCP_SESS_CNT⟩
  have start : Counts hash sizes
      (dInitTcp rawHash rawSess TCP_SESS_SIZE TCP_SESS_CNT clock heap) ∅ :=
    ⟨init_matches rawHash inRange uncut, rfl⟩
  obtain ⟨map, counts⟩ := @run_invariant _ _ (TcpState.step hash) (StepOk hash)
    (fun state => ∃ map, Counts hash sizes state map)
    (fun before step after ok stepped inv => inv.elim fun map counts =>
      step_counts rfl small counts ok stepped) steps _ state ⟨∅, start⟩ meets run
  exact ⟨map, counts.table, counts.count⟩

def blankSession (_ : Nat) : TcpSess :=
  newSession ⟨.client, 0, 0, 0, 0, 0, 0, 0, 0⟩ .syn

/-- A process that starts at second 100. -/
def startAt100 (TCP_SESS_CNT : Nat) : TcpState :=
  dInitTcp blankTable blankSession 280 TCP_SESS_CNT 100 blankHeap

def packetFrom (bRtxType : Rtx) (nControlType seq ack : Nat) : Packet :=
  ⟨bRtxType, 1, 2, 1000, 80, nControlType, seq, ack, 0⟩

/-- Everything can be had, and the timer of the session is due at second 160 or 220. -/
def richSupply : Supply := ⟨220, 160, 160, nextBlock, true, true, true⟩

def threeSteps : List Step :=
  [.packet (packetFrom .client TCP_SYN 7 0) richSupply, .clearCall [⟨1, 2, 1000, 80⟩], .invoke 101]

theorem session_count_three : ∃ state map,
    threeSteps.foldlM (TcpState.step fun _ => 0) (startAt100 2) = some state ∧
      Matches (fun _ => 0) ⟨TCP_SESS_KEY_SIZE, 280, 2⟩ state.pTCPHASH map ∧
      state.curSessCnt = map.keys.card := by
  have ran : (threeSteps.foldlM (TcpState.step fun _ => 0) (startAt100 2)).isSome := by
    decide +kernel
  have opened : PacketOk (fun _ => 0) (startAt100 2) (packetFrom .client TCP_SYN 7 0) richSupply :=
    fun _ => ⟨⟨rfl, rfl⟩, (by decide : 0 < 10)⟩
  have meets : Meets (TcpState.step fun _ => 0) (StepOk fun _ => 0) (startAt100 2) threeSteps :=
    ⟨opened, fun _ _ => ⟨trivial, fun _ _ => ⟨trivial, fun _ _ => trivial⟩⟩⟩
  obtain ⟨state, run⟩ := Option.isSome_iff_exists.mp ran
  obtain ⟨map, matched, count⟩ := @session_count (fun _ => 0) blankTable blankSession blankHeap 100
    280 2 (fun _ _ => by decide) (by decide) threeSteps state meets run
  exact ⟨state, map, run, matched, count⟩

/-- Without a node for the log of its session a SYN is counted all the same. Where the update of
the timer closes the session, a SYNACK that renews it takes it off the count again. -/
theorem unopened_session_counted :
    (TcpState.step (fun _ => 0) (startAt100 10007) (.packet (packetFrom .client TCP_SYN 7 0)
        { richSupply with logNode := false })).map
          (fun state => (state.curSessCnt, state.pTCPHASH.memg.uiMemNodeAllocedCnt)) =
      some (1, 0) ∧
    ([.packet (packetFrom .client TCP_SYN 7 0) richSupply,
        .packet ⟨.server, 2, 1, 80, 1000, TCP_SYNACK, 5, 20, 0⟩
          { richSupply with updateTimeout := 90 }].foldlM
          (TcpState.step fun _ => 0) (startAt100 2)).map
        (fun state => (state.curSessCnt, state.pTCPHASH.memg.uiMemNodeAllocedCnt)) =
      some (0, 1) := by
  decide +kernel

end Run

end Upst.Tcp
