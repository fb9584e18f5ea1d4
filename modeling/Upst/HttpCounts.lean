import Mathlib.Data.ZMod.Basic
import Mathlib.Tactic.Abel
import Upst.HttpLedger
import Upst.HttpStatus

/-!
The sixteen counters of a client. What the nodes of a client count is in the logs that were sent for it,
in the logs of its open transactions and in its session. Every entry, every response and every close moves
the counters of the session into a log; they are lost where a transaction is refused, where a log finds no
way out and where a session is closed that has none left to take them.
-/

namespace Upst.Http

set_option autoImplicit false

/-! ## Amounts -/

/-- What the counters count, modulo `2 ^ 32`. -/
abbrev Amount := Fin 16 → ZMod (2 ^ 32)

def Counts.amount (counts : Counts) : Amount := fun index => (counts[index] : ZMod (2 ^ 32))

theorem amount_zero : Counts.zero.amount = 0 := by
  funext index
  show ((Counts.zero[index.val] : Nat) : ZMod (2 ^ 32)) = 0
  rw [Counts.zero, Vector.getElem_replicate, Nat.cast_zero]

theorem amount_add (counts more : Counts) : (counts.add more).amount = counts.amount + more.amount := by
  funext index
  show (((counts.add more)[index.val] : Nat) : ZMod (2 ^ 32)) =
    ((counts[index.val] : Nat) : ZMod (2 ^ 32)) + ((more[index.val] : Nat) : ZMod (2 ^ 32))
  rw [Counts.add, Vector.getElem_zipWith, ZMod.natCast_mod, Nat.cast_add]

section Amounts

variable (own : TSessKey)

/-- What a log counts for the client. -/
def LogHttp.amount (log : LogHttp) : Amount := if log.ofClient own then log.counts.amount else 0

def Event.amount : Event → Amount
  | .written _ (.log _ log _) => log.amount own
  | _ => 0

def eventsAmount (events : List Event) : Amount := (events.map (Event.amount own)).sum

/-- In the logs that were sent. -/
def sent (world : World) : Amount := eventsAmount own world.events

/-- In the logs of the open transactions. -/
def opened (http : AList fun _ : TransKey => Trans) : Amount :=
  (http.entries.map fun entry => entry.2.log.amount own).sum

/-- In the session. -/
def residual (world : World) : Amount :=
  (world.tcp.lookup own).elim 0 fun sess => sess.counts.amount

/-- An amount of the client `client`, as far as it is the client looked at. -/
def share (client : TSessKey) (amount : Amount) : Amount := if client = own then amount else 0

variable {own}

theorem share_own (amount : Amount) : share own own amount = amount :=
  if_pos rfl

theorem share_other {client : TSessKey} (different : client ≠ own) (amount : Amount) :
    share own client amount = 0 :=
  if_neg different

theorem log_share {client : TSessKey} (port : client.usReserved = 0) (ownPort : own.usReserved = 0)
    {log : LogHttp} (ofClient : log.ofClient client) :
    log.amount own = share own client log.counts.amount := by
  by_cases same : client = own
  · rw [same, share_own, LogHttp.amount, if_pos (same ▸ ofClient)]
  · have other : ¬log.ofClient own := by
      intro ofOwn
      apply same
      obtain ⟨ip, cliPort, reserved⟩ := client
      obtain ⟨ip', cliPort', reserved'⟩ := own
      obtain ⟨rfl, rfl⟩ := ofClient
      obtain ⟨rfl, rfl⟩ := ofOwn
      cases port
      cases ownPort
      rfl
    rw [share_other same, LogHttp.amount, if_neg other]

theorem eventsAmount_append (events more : List Event) :
    eventsAmount own (events ++ more) = eventsAmount own events + eventsAmount own more := by
  rw [eventsAmount, List.map_append, List.sum_append, ← eventsAmount, ← eventsAmount]

theorem eventsAmount_plain {more : List Event} (plain : ∀ event ∈ more, event.plain = true) :
    eventsAmount own more = 0 := by
  apply List.sum_eq_zero
  intro amount member
  obtain ⟨event, held, rfl⟩ := List.mem_map.mp member
  have quiet := plain event held
  cases event with
  | written dest parcel =>
      cases parcel with
      | node node => rfl
      | log node log linked => cases quiet
  | _ => rfl

theorem opened_new {http : AList fun _ : TransKey => Trans} {key : TransKey} (trans : Trans)
    (free : http.lookup key = none) :
    opened own (http.insert key trans) = opened own http + trans.log.amount own := by
  have absent : key ∉ http := AList.lookup_eq_none.mp free
  rw [opened, AList.entries_insert_of_notMem absent, List.map_cons, List.sum_cons, add_comm]
  rfl

theorem opened_erase {http : AList fun _ : TransKey => Trans} {key : TransKey} {found : Trans}
    (held : http.lookup key = some found) :
    opened own (http.erase key) + found.log.amount own = opened own http := by
  have present : key ∈ http.entries.keys := by
    by_contra absent
    rw [AList.lookup_eq_none.mpr absent] at held
    cases held
  obtain ⟨other, before, behind, -, all, left⟩ := List.exists_of_kerase present
  have member : Sigma.mk key other ∈ http.entries := by
    rw [all]
    exact List.mem_append_right _ List.mem_cons_self
  obtain rfl := Option.some.inj (held.symm.trans (AList.mem_lookup_iff.mpr member))
  have erased : (http.erase key).entries = before ++ behind := left
  rw [opened, opened, erased, all]
  simp only [List.map_append, List.map_cons, List.sum_append, List.sum_cons]
  abel

/-- A transaction takes the place of another. -/
theorem opened_again {http : AList fun _ : TransKey => Trans} {key : TransKey} {found : Trans}
    (trans : Trans) (held : http.lookup key = some found) :
    opened own (http.insert key trans) + found.log.amount own = opened own http + trans.log.amount own := by
  have erased := @opened_erase own _ _ _ held
  have inserted : opened own (http.insert key trans) =
      trans.log.amount own + opened own (http.erase key) := by
    rw [opened, AList.entries_insert, List.map_cons, List.sum_cons]
    rfl
  rw [inserted, ← erased]
  abel

end Amounts

/-! ## The transactions -/

/-- The transactions and the logs, with the amount in them. -/
structure Tally (own : TSessKey) (world : World) (total : Amount) : Prop where
  logs : LogsOwn world
  sends : ∀ key found, key.ofClient own → world.http.lookup key = some found → 0 < found.dSndMsgQ
  total : sent own world + opened own world.http = total

/-- No transaction of the client is refused for want of room, and no log of it. -/
structure Carries (env : Env) (own : TSessKey) : Prop where
  adds : ∀ number, env.grants .addTrans own number = true
  writes : ∀ number, env.grants .writeLog own number = true

/-- A request of the client found its number taken. -/
def Clashed (own : TSessKey) (world : World) : Prop :=
  ∃ key : TransKey, key.ofClient own ∧ Event.refused key ∈ world.events

theorem Clashed.grows {own : TSessKey} {world after : World} (clashed : Clashed own world)
    (grows : ∃ more, after.events = world.events ++ more) : Clashed own after := by
  obtain ⟨key, ofOwn, member⟩ := clashed
  obtain ⟨more, events⟩ := grows
  exact ⟨key, ofOwn, events ▸ List.mem_append_left more member⟩

section Tally

variable {own : TSessKey} {world after : World} {total : Amount}

theorem Tally.still (tally : Tally own world total) (still : Still world after) :
    Tally own after total := by
  obtain ⟨more, events, plain⟩ := still.events
  refine ⟨?_, ?_, ?_⟩
  · intro key found
    rw [still.http]
    exact tally.logs key found
  · intro key found
    rw [still.http]
    exact tally.sends key found
  · rw [still.http, sent, events, eventsAmount_append, eventsAmount_plain plain, add_zero]
    exact tally.total

/-- A response is attached: the log of the transaction stays. -/
theorem Tally.attach {client : TSessKey} {key : TransKey} (ofClient : key.ofClient client)
    (tally : Tally own world total) {found : Trans} (trans : Trans) (held : world.http.lookup key = some found) (log : trans.log = found.log)
    (dest : trans.dSndMsgQ = found.dSndMsgQ) (hdr body : Option Chain) :
    Tally own ({ world with http := world.http.insert key trans }.emit (.attached key hdr body)) total where
  logs := tally.logs.insert ofClient (log ▸ tally.logs.ofClient ofClient held)
  sends other later ofOwn here := by
    by_cases same : other = key
    · rw [World.emit, same, AList.lookup_insert] at here
      rw [← Option.some.inj here, dest]
      exact tally.sends key found (same ▸ ofOwn) held
    · rw [World.emit, AList.lookup_insert_ne same] at here
      exact tally.sends other later ofOwn here
  total := by
    have quiet : eventsAmount own [.attached key hdr body] = 0 := add_zero 0
    have again := @opened_again own _ _ _ trans held
    rw [log] at again
    show eventsAmount own (world.events ++ [.attached key hdr body]) +
      opened own (world.http.insert key trans) = _
    rw [eventsAmount_append, quiet, add_right_cancel again, add_zero]
    exact tally.total

variable (ownPort : own.usReserved = 0) {client : TSessKey} (port : client.usReserved = 0) {key : TransKey}
  (ofClient : key.ofClient client)

include ownPort port ofClient

theorem Tally.enter (tally : Tally own world total) {trans : Trans} (free : world.http.lookup key = none)
    (log : trans.log.ofClient client) (dest : client = own → 0 < trans.dSndMsgQ) :
    Tally own ({ world with http := world.http.insert key trans }.emit (.entered key))
      (total + share own client trans.log.counts.amount) where
  logs := tally.logs.insert ofClient log
  sends other found ofOwn held := by
    by_cases same : other = key
    · have ours : client = own := by
        by_contra different
        exact ofClient_other port ownPort (Ne.symm different) ofClient (same ▸ ofOwn)
      rw [World.emit, same, AList.lookup_insert] at held
      exact Option.some.inj held ▸ dest ours
    · rw [World.emit, AList.lookup_insert_ne same] at held
      exact tally.sends other found ofOwn held
  total := by
    have quiet : eventsAmount own [.entered key] = 0 := add_zero 0
    show eventsAmount own (world.events ++ [.entered key]) + opened own (world.http.insert key trans) = _
    rw [eventsAmount_append, quiet, opened_new trans free, log_share port ownPort log, ← tally.total, sent]
    abel

/-- A log goes out with what it counts and what the session counts. -/
theorem Tally.close {env : Env} (carries : Carries env own) (tally : Tally own world total)
    {found trans : Trans} {sess sess' : TSess} (held : world.http.lookup key = some found)
    (done : dCloseHttpTrans env client key trans sess world = (sess', after))
    (log : trans.log.ofClient client) (dest : trans.dSndMsgQ = found.dSndMsgQ) :
    Tally own after (total +
      share own client (trans.log.counts.amount + sess.counts.amount - found.log.counts.amount)) := by
  obtain ⟨-, -, http, more, events, went⟩ := close_cases done
  have left : eventsAmount own [.left key] = 0 := add_zero 0
  have closing : (closeLog sess trans).ofClient client := log
  have amount : eventsAmount own more =
      share own client (trans.log.counts.amount + sess.counts.amount) := by
    have counts : (closeLog sess trans).counts.amount = trans.log.counts.amount + sess.counts.amount :=
      amount_add _ _
    by_cases same : client = own
    · subst same
      rcases went with ⟨-, rfl⟩ | ⟨-, number, refused⟩ | ⟨unserved, -⟩
      · rw [← counts, ← log_share port ownPort closing]
        exact add_zero _
      · rw [carries.writes] at refused
        cases refused
      · rw [dest] at unserved
        exact absurd (tally.sends key found ofClient held) unserved
    · rw [share_other same]
      rcases went with ⟨-, rfl⟩ | ⟨rfl, -⟩ | ⟨-, rfl⟩
      · have none : (closeLog sess trans).amount own = 0 := by
          rw [log_share port ownPort closing, share_other same]
        exact (add_zero _).trans none
      · rfl
      · exact add_zero 0
  refine ⟨?_, ?_, ?_⟩
  · intro other later
    rw [http]
    exact tally.logs.erase key other later
  · intro other later ofOwn
    rw [http]
    by_cases same : other = key
    · rw [same, AList.lookup_erase]
      exact nofun
    · rw [AList.lookup_erase_ne same]
      exact tally.sends other later ofOwn
  · have erased := @opened_erase own _ _ _ held
    rw [log_share port ownPort (tally.logs.ofClient ofClient held)] at erased
    rw [http, sent, events, eventsAmount_append, eventsAmount_append, left, amount, ← tally.total, sent,
      ← erased]
    by_cases same : client = own
    · rw [same, share_own, share_own, share_own]
      abel
    · rw [share_other same, share_other same, share_other same]
      abel

end Tally

/-! ## What is done for a session -/

theorem Still.moves {world after : World} (still : Still world after) : Moves world after := by
  obtain ⟨more, events, -⟩ := still.events
  exact ⟨still.tcp, more, events⟩

theorem leave_counts (sess : TSess) : sess.initCount.leaveTrans.counts = .zero := by
  rw [TSess.leaveTrans]
  split <;> rfl

variable {env : Env} {own client : TSessKey} {sess sess' : TSess} {world after : World}

section Status

variable {total : Amount} {dRet : Int} {failCode : Nat}

theorem close_counts {key : TransKey} {trans : Trans}
    (done : dCloseHttpTrans env client key trans sess world = (sess', after)) : sess'.counts.amount = 0 := by
  obtain ⟨closed, -⟩ := close_cases done
  rw [closed, leave_counts, amount_zero]

variable (ownPort : own.usReserved = 0) (port : client.usReserved = 0) (carries : Carries env own)

include ownPort port carries

end Status

/-! ## The end of a session -/

section Zero

variable {dRet : Int} {failCode : Nat}

end Zero

/-! ## Runs -/

/-- The counts of the client are all there, unless a number was taken. -/
def Even (env : Env) (own : TSessKey) (received : Amount) (world : World) : Prop :=
  Clashed own world ∨ (Tally own world (received - residual own world) ∧
    ∀ sess, world.tcp.lookup own = some sess → Served env own sess.usAppCode)

section Even

variable {received : Amount}

theorem residual_put_own (world : World) (sess : TSess) :
    residual own (world.put own sess) = sess.counts.amount := by
  rw [residual, World.put, AList.lookup_insert]
  rfl

theorem residual_put_other (different : client ≠ own) (world : World) (sess : TSess) :
    residual own (world.put client sess) = residual own world := by
  rw [residual, World.put, AList.lookup_insert_ne (Ne.symm different)]
  rfl

theorem residual_tcp (tcp : after.tcp = world.tcp) : residual own after = residual own world := by
  rw [residual, residual, tcp]

/-- Tallies do not look at the sessions. -/
theorem Tally.sessions {total : Amount} (tally : Tally own world total) (http : after.http = world.http)
    (events : after.events = world.events) : Tally own after total := by
  refine ⟨?_, ?_, ?_⟩
  · intro key found
    rw [http]
    exact tally.logs key found
  · intro key found
    rw [http]
    exact tally.sends key found
  · rw [sent, events, http]
    exact tally.total

/-- What is done for a session keeps the counts even when it moves what the session counts. -/
theorem Even.turn (even : Even env own received (world.put client sess)) (moves : Moves world after)
    (app : sess'.usAppCode = sess.usAppCode)
    (turns : ∀ total, Tally own world total → (client = own → Served env own sess.usAppCode) →
      Clashed own after ∨
        Tally own after (total + share own client (sess.counts.amount - sess'.counts.amount))) :
    Even env own received (after.put client sess') := by
  rcases even with clashed | ⟨tally, served⟩
  · obtain ⟨key, ofOwn, member⟩ := @Clashed.grows own world after clashed moves.events
    exact Or.inl ⟨key, ofOwn, member⟩
  · have mine (same : client = own) : Served env own sess.usAppCode := by
      apply served sess
      rw [same, World.put, AList.lookup_insert]
    have base : Tally own world (received - residual own (world.put client sess)) :=
      tally.sessions rfl rfl
    rcases turns _ base mine with ⟨key, ofOwn, member⟩ | later
    · exact Or.inl ⟨key, ofOwn, member⟩
    · right
      refine ⟨?_, ?_⟩
      · have amount : received - residual own (world.put client sess) +
            share own client (sess.counts.amount - sess'.counts.amount) =
              received - residual own (after.put client sess') := by
          by_cases same : client = own
          · subst same
            rw [residual_put_own, residual_put_own, share_own]
            abel
          · rw [residual_put_other same, residual_put_other same, share_other same, add_zero,
              residual_tcp moves.tcp]
        rw [amount] at later
        exact later.sessions rfl rfl
      · intro found held
        by_cases same : client = own
        · rw [same, World.put, AList.lookup_insert] at held
          rw [← Option.some.inj held, app]
          exact mine same
        · apply served found
          rw [World.put, AList.lookup_insert_ne (Ne.symm same)] at held ⊢
          rw [← moves.tcp]
          exact held

theorem Even.still (even : Even env own received world) (still : Still world after) :
    Even env own received after := by
  rcases even with clashed | ⟨tally, served⟩
  · exact Or.inl (clashed.grows still.moves.events)
  · right
    rw [residual_tcp still.tcp, still.tcp]
    exact ⟨tally.still still, served⟩

end Even

end Upst.Http
