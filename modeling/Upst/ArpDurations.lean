import Upst.ArpFrame
import Mathlib.Data.List.Induction
import Mathlib.Data.Nat.ModEq

/-!
The active and idle durations of a session of `A_RP`. A record of the airlink adds the time since the mark
of the session if the registration record still shows the opposite one. A complete pair clears what it
shows, a new registration overwrites it, and a request without lifetime moves the mark.
-/

namespace Upst.Arp

open Psess Slots Sweeping Tcp

set_option autoImplicit false

section Time

/-- A time in microseconds. -/
def micros (time : Stamp) : Nat := 1000000 * time.Time + time.MTime

/-- A capture time: a `timeval` behind the epoch. -/
structure Captured (time : Stamp) : Prop where
  set : time.Time ≠ 0
  micro : time.MTime < 1000000

/-- Between two capture times the duration is their distance as an `unsigned int`. -/
theorem up_time_eq {start stop : Stamp} (first : Captured start) (second : Captured stop)
    (ordered : micros start ≤ micros stop) :
    GetUpTime start stop = (micros stop - micros start) % 2 ^ 32 := by
  have low := first.micro
  have high := second.micro
  rw [micros, micros] at ordered
  have guard : ¬(start.Time = 0 ∨ stop.Time = 0 ∨ stop.Time < start.Time ∨
      start.Time = stop.Time ∧ stop.MTime < start.MTime) := by
    have one := first.set
    have two := second.set
    omega
  have word {value : Int} {span : Nat} (same : value = span) : u32 value = span % 2 ^ 32 := by
    rw [u32, same]
    omega
  rw [GetUpTime, if_neg guard, micros, micros]
  split
  · exact word (by omega)
  · exact word (by omega)

end Time

section Account

/-- A record of the airlink in a registration request. -/
inductive Airlink where
  | start
  | stop
  deriving DecidableEq, Repr

def airlinkRecord (info : InfoA11) : Option Airlink :=
  if info.ucAirlinkType &&& ACTIVE_START ≠ 0 then some .start
  else if info.ucAirlinkType &&& ACTIVE_STOP ≠ 0 then some .stop
  else none

/-- What the messages of a session add up to in microseconds: the time of the latest one, the last record of
the airlink, and the times spent after a start up to the next stop and after a stop up to the next start. -/
structure Account where
  latest : Nat
  last : Option (Airlink × Stamp)
  active : Nat
  idle : Nat
  deriving DecidableEq, Repr

def Account.empty : Account where
  latest := 0
  last := none
  active := 0
  idle := 0

def Account.add (account : Account) (record : Airlink) (time : Stamp) : Account :=
  match account.last, record with
  | some (.start, since), .stop =>
      { account with
        last := some (record, time)
        active := account.active + (micros time - micros since) }
  | some (.stop, since), .start =>
      { account with
        last := some (record, time)
        idle := account.idle + (micros time - micros since) }
  | _, _ => { account with last := some (record, time) }

def Account.message (account : Account) (message : Message) (info : InfoA11) : Account :=
  let account := { account with latest := micros message.time }
  if info.ucMsg = DEF_A11_REG_REQ then
    match airlinkRecord info with
    | none => account
    | some record => account.add record message.time
  else account

/-- The account of the session of a key; without a session it is empty. -/
def accountStep (key : PsessKey) (state : State) (account : Account) (event : Event) : Account :=
  if ((step state event).record key).isNone then Account.empty
  else
    match event with
    | .message message _ =>
        if message.session state = some key then
          match message.info with
          | none => account
          | some info => account.message message info
        else account
    | .checkTimer _ => account
    | .recallPSESS _ => account

/-- A run with the account of a session. -/
def tracked (key : PsessKey) (start : State) (events : List Event) : State × Account :=
  beside (accountStep key) start Account.empty events

/-- The durations are the totals as an `unsigned int`. -/
def Agrees (session : Session) (account : Account) : Prop :=
  session.uiActiveDuration = account.active % 2 ^ 32 ∧ session.uiIdleDuration = account.idle % 2 ^ 32

/-- The session of the key, if there is one, agrees with its account. -/
def Accounted (key : PsessKey) (state : State) (account : Account) : Prop :=
  ∀ session, state.record key = some session → Agrees session account

/-- A message of the session in the order of the capture, whose record is the other one than the last. -/
structure Orderly (account : Account) (message : Message) (info : InfoA11) : Prop where
  captured : Captured message.time
  later : account.latest ≤ micros message.time
  single : info.ucMsg = DEF_A11_REG_REQ →
    ¬(info.ucAirlinkType &&& ACTIVE_START ≠ 0 ∧ info.ucAirlinkType &&& ACTIVE_STOP ≠ 0)
  alternates : info.ucMsg = DEF_A11_REG_REQ → ∀ record last, airlinkRecord info = some record →
    account.last = some last → last.1 ≠ record

/-- The time from which the handler counts at a record: the mark of the session, if a request with a
lifetime finds the opposite record, and for a start if it repeats a registration that is not answered. -/
def countedFrom (session : Session) (message : Message) (info : InfoA11) : Airlink → Stamp
  | .start =>
      if 0 < info.usLifetime ∧ session.RegA11.ucAirlink &&& ACTIVE_STOP ≠ 0 ∧ regiRetry session info then
        session.RPT
      else message.time
  | .stop =>
      if 0 < info.usLifetime ∧ session.RegA11.ucAirlink &&& ACTIVE_START ≠ 0 then session.RPT
      else message.time

end Account

section Request

/-- The durations and the mark. -/
structure SameTime (before after : Session) : Prop where
  active : after.uiActiveDuration = before.uiActiveDuration
  idle : after.uiIdleDuration = before.uiIdleDuration
  mark : after.RPT = before.RPT

theorem SameTime.trans {first second third : Session} (one : SameTime first second)
    (two : SameTime second third) : SameTime first third :=
  ⟨two.active.trans one.active, two.idle.trans one.idle, two.mark.trans one.mark⟩

variable (session : Session) (message : Message) (info : InfoA11)

theorem option_time : SameTime session (requestOption session info) := by
  simp only [requestOption]
  split <;> exact ⟨rfl, rfl, rfl⟩

theorem accepted_time : SameTime session (replyAccepted session message info) := by
  simp only [replyAccepted]
  split_ifs <;> exact ⟨rfl, rfl, rfl⟩

theorem rejected_time : SameTime session (replyRejected session info) := by
  simp only [replyRejected]
  split_ifs <;> exact ⟨rfl, rfl, rfl⟩

theorem rep_time : SameTime session (regRep session message info) := by
  let counted := { session with RegA11 := { session.RegA11 with usLifetime := info.usLifetime } }
  have first : SameTime session counted := ⟨rfl, rfl, rfl⟩
  simp only [regRep]
  split
  · exact (first.trans (accepted_time counted message info)).trans ⟨rfl, rfl, rfl⟩
  · exact (first.trans (rejected_time counted info)).trans ⟨rfl, rfl, rfl⟩

theorem replied_time : SameTime session (replied session message info) := by
  simp only [replied]
  refine (rep_time session message info).trans ?_
  split_ifs <;> exact ⟨rfl, rfl, rfl⟩

/-- Only a registration request counts a time. -/
theorem handled_time (other : info.ucMsg ≠ DEF_A11_REG_REQ) :
    SameTime session (handled session message info) := by
  have first : SameTime session (touch session message) := ⟨rfl, rfl, rfl⟩
  simp only [handled, if_neg other]
  split_ifs
  · exact first.trans (replied_time _ message info)
  all_goals exact first.trans ⟨rfl, rfl, rfl⟩

/-- A request without lifetime moves the mark. -/
structure Lifetime (after : Session) : Prop where
  active : after.uiActiveDuration = session.uiActiveDuration
  idle : after.uiIdleDuration = session.uiIdleDuration
  mark : after.RPT = if 0 < info.usLifetime then session.RPT else message.time
  airlink : after.RegA11.ucAirlink = session.RegA11.ucAirlink

theorem lifetime_time : Lifetime session message info (requestLifetime session message info) := by
  simp only [requestLifetime]
  split
  · next lasting =>
      split <;> exact ⟨rfl, rfl, (if_pos lasting).symm, rfl⟩
  · next ends => exact ⟨rfl, rfl, (if_neg ends).symm, rfl⟩

theorem req_time : SameTime
    (activeStop (activeStart (requestLifetime { session with ucRegiReqCount := session.ucRegiReqCount + 1 }
      message info) message info) message info) (regReq session message info) := by
  have fields (session : Session) : SameTime session (requestFields session info) := ⟨rfl, rfl, rfl⟩
  exact ((fields _).trans (option_time _ info)).trans ⟨rfl, rfl, rfl⟩

variable {session message info}

theorem start_time (start : info.ucAirlinkType &&& ACTIVE_START ≠ 0) :
    (activeStart session message info).uiActiveDuration = session.uiActiveDuration ∧
      (activeStart session message info).uiIdleDuration =
        (if session.RegA11.ucAirlink &&& ACTIVE_STOP ≠ 0 then
          (session.uiIdleDuration + GetUpTime session.RPT message.time) % 2 ^ 32
        else session.uiIdleDuration) ∧
      ((activeStart session message info).RPT = session.RPT ∨
        (activeStart session message info).RPT = message.time) := by
  rw [activeStart, if_pos start]
  by_cases shown : session.RegA11.ucAirlink &&& ACTIVE_STOP ≠ 0
  · simp only [if_pos shown]
    exact ⟨trivial, trivial, Or.inr trivial⟩
  · simp only [if_neg shown]
    exact ⟨trivial, trivial, Or.inl trivial⟩

theorem stop_time (stop : info.ucAirlinkType &&& ACTIVE_STOP ≠ 0) :
    (activeStop session message info).uiIdleDuration = session.uiIdleDuration ∧
      (activeStop session message info).uiActiveDuration =
        (if session.RegA11.ucAirlink &&& ACTIVE_START ≠ 0 then
          (session.uiActiveDuration + GetUpTime session.RPT message.time) % 2 ^ 32
        else session.uiActiveDuration) ∧
      ((activeStop session message info).RPT = session.RPT ∨
        (activeStop session message info).RPT = message.time) := by
  rw [activeStop, if_pos stop]
  by_cases shown : session.RegA11.ucAirlink &&& ACTIVE_START ≠ 0
  · simp only [if_pos shown]
    exact ⟨trivial, trivial, Or.inr trivial⟩
  · simp only [if_neg shown]
    exact ⟨trivial, trivial, Or.inl trivial⟩

/-- The mark behind the lifetime is that of before or the time of the message. -/
theorem Lifetime.mark_or {after : Session} (lifetime : Lifetime session message info after) :
    after.RPT = session.RPT ∨ after.RPT = message.time := by
  rw [lifetime.mark]
  split
  · exact Or.inl rfl
  · exact Or.inr rfl

/-- A request that has a start and no stop. -/
theorem req_start (start : info.ucAirlinkType &&& ACTIVE_START ≠ 0)
    (single : ¬info.ucAirlinkType &&& ACTIVE_STOP ≠ 0) :
    (regReq session message info).uiActiveDuration = session.uiActiveDuration ∧
      (regReq session message info).uiIdleDuration =
        (if session.RegA11.ucAirlink &&& ACTIVE_STOP ≠ 0 then
          (session.uiIdleDuration +
            GetUpTime (if 0 < info.usLifetime then session.RPT else message.time) message.time) % 2 ^ 32
        else session.uiIdleDuration) ∧
      ((regReq session message info).RPT = session.RPT ∨ (regReq session message info).RPT = message.time) := by
  have last := req_time session message info
  have lifetime := lifetime_time { session with ucRegiReqCount := session.ucRegiReqCount + 1 } message info
  obtain ⟨active, idle, mark⟩ := @start_time
    (requestLifetime { session with ucRegiReqCount := session.ucRegiReqCount + 1 } message info) message info start
  rw [activeStop, if_neg single] at last
  rw [lifetime.airlink, lifetime.idle, lifetime.mark] at idle
  refine ⟨last.active.trans (active.trans lifetime.active), last.idle.trans idle, ?_⟩
  rw [last.mark]
  rcases mark with same | moved
  · rw [same]
    exact lifetime.mark_or
  · exact Or.inr moved

/-- A request that has a stop and no start. -/
theorem req_stop (single : ¬info.ucAirlinkType &&& ACTIVE_START ≠ 0)
    (stop : info.ucAirlinkType &&& ACTIVE_STOP ≠ 0) :
    (regReq session message info).uiIdleDuration = session.uiIdleDuration ∧
      (regReq session message info).uiActiveDuration =
        (if session.RegA11.ucAirlink &&& ACTIVE_START ≠ 0 then
          (session.uiActiveDuration +
            GetUpTime (if 0 < info.usLifetime then session.RPT else message.time) message.time) % 2 ^ 32
        else session.uiActiveDuration) ∧
      ((regReq session message info).RPT = session.RPT ∨ (regReq session message info).RPT = message.time) := by
  have last := req_time session message info
  have lifetime := lifetime_time { session with ucRegiReqCount := session.ucRegiReqCount + 1 } message info
  obtain ⟨idle, active, mark⟩ := @stop_time
    (requestLifetime { session with ucRegiReqCount := session.ucRegiReqCount + 1 } message info) message info stop
  rw [activeStart, if_neg single] at last
  rw [lifetime.airlink, lifetime.active, lifetime.mark] at active
  refine ⟨last.idle.trans (idle.trans lifetime.idle), last.active.trans active, ?_⟩
  rw [last.mark]
  rcases mark with same | moved
  · rw [same]
    exact lifetime.mark_or
  · exact Or.inr moved

/-- A request without a record of the airlink. -/
theorem req_silent (noStart : ¬info.ucAirlinkType &&& ACTIVE_START ≠ 0)
    (noStop : ¬info.ucAirlinkType &&& ACTIVE_STOP ≠ 0) :
    (regReq session message info).uiActiveDuration = session.uiActiveDuration ∧
      (regReq session message info).uiIdleDuration = session.uiIdleDuration ∧
      ((regReq session message info).RPT = session.RPT ∨ (regReq session message info).RPT = message.time) := by
  have last := req_time session message info
  let counted := { session with ucRegiReqCount := session.ucRegiReqCount + 1 }
  have lifetime := lifetime_time counted message info
  rw [activeStart, if_neg noStart, activeStop, if_neg noStop] at last
  rw [last.active, last.idle, last.mark]
  exact ⟨lifetime.active, lifetime.idle, lifetime.mark_or⟩

end Request

section Counted

variable {session : Session} {message : Message} {info : InfoA11} {choice : Choice}

theorem up_time_now {time : Stamp} (captured : Captured time) : GetUpTime time time = 0 := by
  rw [up_time_eq captured captured (Nat.le_refl _), Nat.sub_self, Nat.zero_mod]

theorem handled_req (request : info.ucMsg = DEF_A11_REG_REQ) :
    handled session message info = regReq (touch session message) message info := by
  simp only [handled, if_pos request]

theorem renew_time : (renewA10 session message).uiActiveDuration = session.uiActiveDuration ∧
    (renewA10 session message).uiIdleDuration = session.uiIdleDuration := by
  simp only [renewA10]
  split_ifs <;> exact ⟨rfl, rfl⟩

/-- A registration keeps the durations; its mark is that of before or the time of the message. -/
theorem prepared_time : (prepared session message info choice).uiActiveDuration = session.uiActiveDuration ∧
    (prepared session message info choice).uiIdleDuration = session.uiIdleDuration ∧
    ((prepared session message info choice).RPT = session.RPT ∨
      (prepared session message info choice).RPT = message.time) := by
  rw [prepared, registered]
  split_ifs
  · exact ⟨rfl, rfl, Or.inl rfl⟩
  · exact ⟨renew_time.1, renew_time.2, Or.inr rfl⟩
  · exact ⟨rfl, rfl, Or.inl rfl⟩

theorem prepared_other (noStart : ¬info.ucAirlinkType &&& ACTIVE_START ≠ 0) :
    prepared session message info choice = session := by
  rw [prepared, if_neg]
  exact fun sets => noStart sets.2.2

/-- At a start the idle duration grows by the time since the counted mark. -/
theorem start_counted (captured : Captured message.time) (request : info.ucMsg = DEF_A11_REG_REQ)
    (start : info.ucAirlinkType &&& ACTIVE_START ≠ 0) (single : ¬info.ucAirlinkType &&& ACTIVE_STOP ≠ 0)
    (word : session.uiIdleDuration < 2 ^ 32) :
    (handled (prepared session message info choice) message info).uiActiveDuration =
        session.uiActiveDuration ∧
      (handled (prepared session message info choice) message info).uiIdleDuration =
        (session.uiIdleDuration + GetUpTime (countedFrom session message info .start) message.time) % 2 ^ 32 := by
  obtain ⟨active, idle, -⟩ := @prepared_time session message info choice
  obtain ⟨active', idle', -⟩ := @req_start (touch (prepared session message info choice) message) message info
    start single
  have still : (session.uiIdleDuration + GetUpTime message.time message.time) % 2 ^ 32 =
      session.uiIdleDuration := by
    rw [up_time_now captured, Nat.add_zero, Nat.mod_eq_of_lt word]
  have base : (touch (prepared session message info choice) message).uiIdleDuration =
      session.uiIdleDuration := idle
  rw [handled_req request]
  refine ⟨active'.trans active, idle'.trans ?_⟩
  rw [base, countedFrom]
  by_cases lasting : 0 < info.usLifetime
  · have sets : setsUp info := ⟨request, lasting, start⟩
    have whole : prepared session message info choice = registered session message info choice := if_pos sets
    by_cases retry : regiRetry session info
    · have same : (touch (prepared session message info choice) message).RegA11.ucAirlink =
            session.RegA11.ucAirlink ∧
          (touch (prepared session message info choice) message).RPT = session.RPT := by
        rw [whole, registered, if_pos retry]
        exact ⟨rfl, rfl⟩
      rw [same.1, same.2, if_pos lasting]
      by_cases shown : session.RegA11.ucAirlink &&& ACTIVE_STOP ≠ 0
      · rw [if_pos shown, if_pos ⟨lasting, shown, retry⟩]
      · rw [if_neg shown, if_neg fun all => shown all.2.1, still]
    · have airlink : (touch (prepared session message info choice) message).RegA11.ucAirlink =
          info.ucAirlinkType := by
        rw [whole, registered, if_neg retry]
        rfl
      rw [airlink, if_neg single, if_neg fun all => retry all.2.2, still]
  · have now : ¬(0 < info.usLifetime ∧ session.RegA11.ucAirlink &&& ACTIVE_STOP ≠ 0 ∧
        regiRetry session info) := fun all => lasting all.1
    rw [if_neg lasting, if_neg now, still, ite_self]

/-- At a stop the active duration grows by the time since the counted mark. -/
theorem stop_counted (captured : Captured message.time) (request : info.ucMsg = DEF_A11_REG_REQ)
    (single : ¬info.ucAirlinkType &&& ACTIVE_START ≠ 0) (stop : info.ucAirlinkType &&& ACTIVE_STOP ≠ 0)
    (word : session.uiActiveDuration < 2 ^ 32) :
    (handled (prepared session message info choice) message info).uiIdleDuration = session.uiIdleDuration ∧
      (handled (prepared session message info choice) message info).uiActiveDuration =
        (session.uiActiveDuration + GetUpTime (countedFrom session message info .stop) message.time) %
          2 ^ 32 := by
  obtain ⟨idle, active, -⟩ := @req_stop (touch session message) message info single stop
  have still : (session.uiActiveDuration + GetUpTime message.time message.time) % 2 ^ 32 =
      session.uiActiveDuration := by
    rw [up_time_now captured, Nat.add_zero, Nat.mod_eq_of_lt word]
  rw [prepared_other single, handled_req request]
  refine ⟨idle, active.trans ?_⟩
  rw [countedFrom]
  have airlink : (touch session message).RegA11.ucAirlink = session.RegA11.ucAirlink := rfl
  have base : (touch session message).uiActiveDuration = session.uiActiveDuration := rfl
  have mark : (touch session message).RPT = session.RPT := rfl
  rw [airlink, base, mark]
  by_cases shown : session.RegA11.ucAirlink &&& ACTIVE_START ≠ 0
  · rw [if_pos shown]
    by_cases lasting : 0 < info.usLifetime
    · rw [if_pos lasting, if_pos ⟨lasting, shown⟩]
    · rw [if_neg lasting, if_neg fun both => lasting both.1]
  · rw [if_neg shown, if_neg fun both => shown both.2, still]

/-- The mark behind a request is the one of before or its time. -/
theorem request_mark (request : info.ucMsg = DEF_A11_REG_REQ)
    (single : ¬(info.ucAirlinkType &&& ACTIVE_START ≠ 0 ∧ info.ucAirlinkType &&& ACTIVE_STOP ≠ 0)) :
    (handled (prepared session message info choice) message info).RPT = session.RPT ∨
      (handled (prepared session message info choice) message info).RPT = message.time := by
  have marks : (regReq (touch (prepared session message info choice) message) message info).RPT =
        (prepared session message info choice).RPT ∨
      (regReq (touch (prepared session message info choice) message) message info).RPT = message.time := by
    by_cases start : info.ucAirlinkType &&& ACTIVE_START ≠ 0
    · exact (req_start start fun stop => single ⟨start, stop⟩).2.2
    · by_cases stop : info.ucAirlinkType &&& ACTIVE_STOP ≠ 0
      · exact (req_stop start stop).2.2
      · exact (req_silent start stop).2.2
  rw [handled_req request]
  rcases marks with same | moved
  · rw [same]
    exact prepared_time.2.2
  · exact Or.inr moved

/-- Two marks count the same time modulo `2 ^ 32`. -/
theorem counted_iff (total : Nat) {mark last now : Nat} (before : mark ≤ now) (since : last ≤ now) :
    (total % 2 ^ 32 + (now - mark) % 2 ^ 32) % 2 ^ 32 = (total + (now - last)) % 2 ^ 32 ↔
      mark ≡ last [MOD 2 ^ 32] := by
  rw [Nat.ModEq]
  omega

theorem counted_or (record : Airlink) : countedFrom session message info record = session.RPT ∨
    countedFrom session message info record = message.time := by
  cases record with
  | start =>
      rw [countedFrom]
      split
      · exact Or.inl rfl
      · exact Or.inr rfl
  | stop =>
      rw [countedFrom]
      split
      · exact Or.inl rfl
      · exact Or.inr rfl

/-- What the account knows of a session that is there. -/
structure Known (session : Session) (account : Account) : Prop where
  mark : Captured session.RPT
  marked : micros session.RPT ≤ account.latest
  last : ∃ last, account.last = some last ∧ Captured last.2 ∧ micros last.2 ≤ account.latest

variable {account : Account}

theorem counted_captured (known : Known session account) (orderly : Orderly account message info)
    (record : Airlink) : Captured (countedFrom session message info record) ∧
      micros (countedFrom session message info record) ≤ micros message.time := by
  rcases @counted_or session message info record with same | same
  · rw [same]
    exact ⟨known.mark, Nat.le_trans known.marked orderly.later⟩
  · rw [same]
    exact ⟨orderly.captured, Nat.le_refl _⟩

theorem word_lt (total : Nat) : total % 2 ^ 32 < 2 ^ 32 := Nat.mod_lt _ (Nat.two_pow_pos 32)

/-- A request keeps the durations right if and only if it counts from the last record. -/
theorem request_counts (known : Known session account) (orderly : Orderly account message info)
    (request : info.ucMsg = DEF_A11_REG_REQ) (agrees : Agrees session account) :
    Agrees (handled (prepared session message info choice) message info) (account.message message info) ↔
      ∀ record last, airlinkRecord info = some record → account.last = some last →
        micros (countedFrom session message info record) ≡ micros last.2 [MOD 2 ^ 32] := by
  obtain ⟨since, lastSome, -, sinceLatest⟩ := known.last
  have sinceNow := Nat.le_trans sinceLatest orderly.later
  have single := orderly.single request
  rw [Account.message, if_pos request, Agrees]
  by_cases start : info.ucAirlinkType &&& ACTIVE_START ≠ 0
  · have noStop : ¬info.ucAirlinkType &&& ACTIVE_STOP ≠ 0 := fun stop => single ⟨start, stop⟩
    have record : airlinkRecord info = some .start := if_pos start
    have word : session.uiIdleDuration < 2 ^ 32 := agrees.2 ▸ word_lt account.idle
    obtain ⟨active, idle⟩ := @start_counted session message info choice orderly.captured request start noStop word
    obtain ⟨captured, ordered⟩ := counted_captured known orderly .start
    obtain ⟨kind, time⟩ := since
    have other := orderly.alternates request .start _ record lastSome
    cases kind with
    | start => exact absurd rfl other
    | stop =>
        rw [record]
        simp only [Account.add, lastSome]
        rw [active, idle, up_time_eq captured orderly.captured ordered, agrees.1, agrees.2,
          counted_iff account.idle ordered sinceNow]
        constructor
        · intro both record last same held
          cases same
          cases held
          exact both.2
        · intro all
          exact ⟨rfl, all .start _ rfl rfl⟩
  · by_cases stop : info.ucAirlinkType &&& ACTIVE_STOP ≠ 0
    · have record : airlinkRecord info = some .stop := (if_neg start).trans (if_pos stop)
      have word : session.uiActiveDuration < 2 ^ 32 := agrees.1 ▸ word_lt account.active
      obtain ⟨idle, active⟩ := @stop_counted session message info choice orderly.captured request start stop word
      obtain ⟨captured, ordered⟩ := counted_captured known orderly .stop
      obtain ⟨kind, time⟩ := since
      have other := orderly.alternates request .stop _ record lastSome
      cases kind with
      | stop => exact absurd rfl other
      | start =>
          rw [record]
          simp only [Account.add, lastSome]
          rw [active, idle, up_time_eq captured orderly.captured ordered, agrees.1, agrees.2,
            counted_iff account.active ordered sinceNow]
          constructor
          · intro both record last same held
            cases same
            cases held
            exact both.1
          · intro all
            exact ⟨all .stop _ rfl rfl, rfl⟩
    · have record : airlinkRecord info = none := (if_neg start).trans (if_neg stop)
      obtain ⟨active, idle, -⟩ := @req_silent (touch session message) message info start stop
      rw [record, prepared_other start, handled_req request, active, idle]
      exact iff_of_true agrees nofun

end Counted

section Known

variable {session : Session} {message : Message} {info : InfoA11} {choice : Choice} {account : Account}

theorem add_last (record : Airlink) (time : Stamp) :
    (account.add record time).last = some (record, time) ∧
      (account.add record time).latest = account.latest := by
  rw [Account.add.eq_def]
  split <;> exact ⟨rfl, rfl⟩

theorem message_latest : (account.message message info).latest = micros message.time := by
  rw [Account.message]
  split
  · split
    · rfl
    · exact (add_last _ _).2
  · rfl

/-- The last record of the airlink is an old one or that of the message. -/
theorem message_last : (account.message message info).last = account.last ∨
    ∃ record, (account.message message info).last = some (record, message.time) := by
  rw [Account.message]
  split
  · split
    · exact Or.inl rfl
    · exact Or.inr ⟨_, (add_last _ _).1⟩
  · exact Or.inl rfl

theorem known_message {after : Session} (known : Known session account)
    (orderly : Orderly account message info) (mark : after.RPT = session.RPT ∨ after.RPT = message.time) :
    Known after (account.message message info) := by
  have marks : Captured after.RPT ∧ micros after.RPT ≤ micros message.time := by
    rcases mark with same | same
    · rw [same]
      exact ⟨known.mark, Nat.le_trans known.marked orderly.later⟩
    · rw [same]
      exact ⟨orderly.captured, Nat.le_refl _⟩
  refine ⟨marks.1, ?_, ?_⟩
  · rw [message_latest]
    exact marks.2
  · rw [message_latest]
    obtain ⟨last, lastSome, captured, before⟩ := known.last
    rcases @message_last message info account with same | ⟨record, same⟩
    · exact ⟨last, same.trans lastSome, captured, Nat.le_trans before orderly.later⟩
    · exact ⟨_, same, orderly.captured, Nat.le_refl _⟩

/-- The first message of a session has a start, which nothing has been counted for. -/
theorem fresh_known (key : PsessKey) (create : Stamp) (sets : setsUp info)
    (orderly : Orderly Account.empty message info) :
    Known (handled (fresh key create message info choice) message info) (Account.empty.message message info) ∧
      Agrees (handled (fresh key create message info choice) message info)
        (Account.empty.message message info) := by
  obtain ⟨request, lasting, start⟩ := sets
  have noStop : ¬info.ucAirlinkType &&& ACTIVE_STOP ≠ 0 :=
    fun stop => orderly.single request ⟨start, stop⟩
  have record : airlinkRecord info = some .start := if_pos start
  have whole : Account.empty.message message info =
      { latest := micros message.time, last := some (.start, message.time), active := 0, idle := 0 } := by
    rw [Account.message, if_pos request, record]
    rfl
  obtain ⟨active, idle, mark⟩ := @req_start (touch (fresh key create message info choice) message) message info
    start noStop
  have airlink : ¬(touch (fresh key create message info choice) message).RegA11.ucAirlink &&& ACTIVE_STOP ≠ 0 :=
    noStop
  rw [if_neg airlink] at idle
  have now : (regReq (touch (fresh key create message info choice) message) message info).RPT =
      message.time := mark.elim id id
  rw [whole, handled_req request]
  refine ⟨⟨?_, ?_, ?_⟩, active, idle⟩
  · rw [now]
    exact orderly.captured
  · rw [now]
  · exact ⟨_, rfl, orderly.captured, Nat.le_refl _⟩

end Known

section Step

variable {state : State} {key : PsessKey} {account : Account} {message : Message} {choice : Choice}

/-- What the message makes of the session that it is for. -/
inductive Own (key : PsessKey) (message : Message) (info : InfoA11) (choice : Choice) :
    Option Session → Option Session → Prop where
  | kept (session : Session) : Own key message info choice (some session)
      (some (handled (prepared session message info choice) message info))
  | released (before : Option Session) (reply : info.ucMsg ≠ DEF_A11_REG_REQ) :
      Own key message info choice before none
  | absent : Own key message info choice none none
  | fresh (create : Stamp) (sets : setsUp info) : Own key message info choice none
      (some (handled (Arp.fresh key create message info choice) message info))

theorem message_own (inv : Inv state) (own : message.session state = some key) :
    ∃ info, message.info = some info ∧
      Own key message info choice (state.record key) ((ProcA11 state message choice).2.record key) := by
  rw [Message.session] at own
  cases known : message.info with
  | none =>
      rw [known] at own
      cases own
  | some info =>
      rw [known, Option.bind_some] at own
      refine ⟨info, rfl, ?_⟩
      by_cases bA11 : info.bA11 = true
      · rw [if_pos bA11] at own
        obtain ⟨uiServingPCF, pcf, rfl⟩ := Option.map_eq_some_iff.mp own
        obtain ⟨there, missing⟩ := @proc_own state ⟨uiServingPCF, info.dwKey⟩ message info choice inv
        have whole : ProcA11 state message choice =
            procKey state ⟨uiServingPCF, info.dwKey⟩ message info choice := by
          rw [ProcA11, known]
          dsimp only
          rw [if_pos bA11, pcf]
        rw [whole]
        cases before : state.record (addressed state ⟨uiServingPCF, info.dwKey⟩ info) with
        | some session =>
            rw [there session before]
            split
            · next release =>
                refine .released _ fun request => ?_
                exact absurd (request.symm.trans release.1) (by decide)
            · exact .kept session
        | none =>
            rcases missing before with gone | ⟨sets, create, made⟩
            · rw [gone]
              exact .absent
            · have same : addressed state ⟨uiServingPCF, info.dwKey⟩ info = ⟨uiServingPCF, info.dwKey⟩ :=
                if_pos sets
              rw [made, same]
              exact .fresh create sets
      · rw [if_neg bA11] at own
        cases own

/-- What becomes of a session at the timer keeps its times. -/
theorem outcome_time {turn : Call × Visit} {session : Session} (held : outcome turn = some session) :
    SameTime turn.2.session session := by
  rw [outcome] at held
  split at held
  · rw [Visit.advanced] at held
    split at held
    · cases held
    · rw [← Option.some.inj held]
      exact ⟨rfl, rfl, rfl⟩
    · split at held
      · rw [← Option.some.inj held]
        exact ⟨rfl, rfl, rfl⟩
      · cases held
  · rw [← Option.some.inj held]
    exact ⟨rfl, rfl, rfl⟩

/-- The session that an event other than its messages leaves is one of before. -/
theorem quiet_step (event : Event) (live : Live state)
    (other : ∀ message choice, event = .message message choice → message.session state ≠ some key)
    {after : Session} (held : (step state event).record key = some after) :
    ∃ before, state.record key = some before ∧ SameTime before after := by
  cases event with
  | message message choice =>
      rw [step, (message_records live.toInv).2 key (other message choice rfl)] at held
      exact ⟨after, held, rfl, rfl, rfl⟩
  | checkTimer call =>
      rw [step] at held
      obtain ⟨high, part, -⟩ := @call_part call state live.wf live.begun
      by_cases visited : ∃ turn ∈ (RP_CheckTimer state call).2.map (Prod.mk call), turns.key turn = key
      · obtain ⟨turn, member, rfl⟩ := visited
        have done := part.swept.done turn member
        rw [held] at done
        exact ⟨_, part.swept.held turn member, outcome_time done.symm⟩
      · rw [part.swept.kept key fun turn member same => visited ⟨turn, member, same⟩] at held
        exact ⟨after, held, rfl, rfl, rfl⟩
  | recallPSESS name =>
      rw [step, recallPSESS] at held
      cases found : Search_PSESS state.psess name with
      | none =>
          rw [found] at held
          exact ⟨after, held, rfl, rfl, rfl⟩
      | some slot =>
          have used := (search_some found).1
          rw [found] at held
          dsimp only at held
          split at held
          · have named : Session.key { state.psess.tuple slot with uiCallType := .recall } =
                (state.psess.tuple slot).key := rfl
            rw [put_record live.wf used named, named] at held
            split at held
            · next own =>
                obtain rfl := Option.some.inj held
                rw [own]
                exact ⟨_, record_slot live.wf used, rfl, rfl, rfl⟩
            · exact ⟨after, held, rfl, rfl, rfl⟩
          · exact ⟨after, held, rfl, rfl, rfl⟩

/-- What the account knows of the session of the key. -/
structure Sound (key : PsessKey) (state : State) (account : Account) : Prop where
  absent : state.record key = none → account = Account.empty
  known : ∀ session, state.record key = some session → Known session account

/-- The messages of the session are in the order of the capture, with alternating records. -/
def Regular (key : PsessKey) (state : State) (account : Account) : Event → Prop
  | .message message _ =>
      message.session state = some key → ∀ info, message.info = some info → Orderly account message info
  | .checkTimer _ => True
  | .recallPSESS _ => True

/-- A record of the airlink is counted from the last one. -/
def Counts (key : PsessKey) (state : State) (account : Account) : Event → Prop
  | .message message _ =>
      message.session state = some key → ∀ info, message.info = some info → info.ucMsg = DEF_A11_REG_REQ →
        ∀ session, state.record key = some session →
          ∀ record last, airlinkRecord info = some record → account.last = some last →
            micros (countedFrom session message info record) ≡ micros last.2 [MOD 2 ^ 32]
  | .checkTimer _ => True
  | .recallPSESS _ => True

theorem sound_quiet {next : State} (sound : Sound key state account)
    (quiet : ∀ after, next.record key = some after →
      ∃ before, state.record key = some before ∧ SameTime before after) :
    Sound key next (if (next.record key).isNone then Account.empty else account) ∧
      (Accounted key state account →
        Accounted key next (if (next.record key).isNone then Account.empty else account)) := by
  cases held : next.record key with
  | none =>
      rw [Option.isNone_none, if_pos rfl]
      refine ⟨⟨fun _ => rfl, fun _ same => ?_⟩, fun _ _ same => ?_⟩
      · cases held.symm.trans same
      · cases held.symm.trans same
  | some after =>
      obtain ⟨before, there, time⟩ := quiet after held
      have known := sound.known before there
      rw [Option.isNone_some, if_neg Bool.false_ne_true]
      refine ⟨⟨fun none => ?_, fun session same => ?_⟩, fun accounted session same => ?_⟩
      · cases held.symm.trans none
      · obtain rfl := Option.some.inj (held.symm.trans same)
        refine ⟨?_, ?_, known.last⟩
        · rw [time.mark]
          exact known.mark
        · rw [time.mark]
          exact known.marked
      · obtain rfl := Option.some.inj (held.symm.trans same)
        have agrees := accounted before there
        exact ⟨time.active.trans agrees.1, time.idle.trans agrees.2⟩

theorem handled_mark {session : Session} {info : InfoA11} (orderly : Orderly account message info) :
    (handled (prepared session message info choice) message info).RPT = session.RPT ∨
      (handled (prepared session message info choice) message info).RPT = message.time := by
  by_cases request : info.ucMsg = DEF_A11_REG_REQ
  · exact request_mark request (orderly.single request)
  · have idle : prepared session message info choice = session := if_neg fun sets => request sets.1
    rw [idle, (handled_time session message info request).mark]
    exact Or.inl rfl

theorem other_agrees {session : Session} {info : InfoA11} (other : info.ucMsg ≠ DEF_A11_REG_REQ) :
    Agrees (handled (prepared session message info choice) message info) (account.message message info) ↔
      Agrees session account := by
  have idle : prepared session message info choice = session := if_neg fun sets => other sets.1
  have time := handled_time session message info other
  rw [idle, Account.message, if_neg other, Agrees, time.active, time.idle]
  exact Iff.rfl

/-- The step of a message of the session. -/
theorem own_step {info : InfoA11} (live : Live state) (own : message.session state = some key)
    (known : message.info = some info) (sound : Sound key state account)
    (orderly : Orderly account message info) :
    Sound key (step state (.message message choice)) (accountStep key state account (.message message choice)) ∧
      (Accounted key state account →
        (Accounted key (step state (.message message choice))
            (accountStep key state account (.message message choice)) ↔
          Counts key state account (.message message choice))) := by
  obtain ⟨info', same, made⟩ := @message_own state key message choice live.toInv own
  obtain rfl := Option.some.inj (known.symm.trans same)
  have counts (before : Option Session) (there : state.record key = before) :
      Counts key state account (.message message choice) ↔ (info.ucMsg = DEF_A11_REG_REQ →
        ∀ session, before = some session → ∀ record last, airlinkRecord info = some record →
          account.last = some last →
            micros (countedFrom session message info record) ≡ micros last.2 [MOD 2 ^ 32]) := by
    rw [Counts, ← there]
    refine ⟨fun all => all own info known, fun all _ other same => ?_⟩
    obtain rfl := Option.some.inj (known.symm.trans same)
    exact all
  have shown : accountStep key state account (.message message choice) =
      if ((step state (.message message choice)).record key).isNone then Account.empty
      else account.message message info := by
    simp only [accountStep, if_pos own, known]
  have missing (none : (step state (.message message choice)).record key = none) :
      Sound key (step state (.message message choice)) Account.empty ∧
        Accounted key (step state (.message message choice)) Account.empty := by
    refine ⟨⟨fun _ => rfl, fun _ same => ?_⟩, fun _ same => ?_⟩
    · cases none.symm.trans same
    · cases none.symm.trans same
  have present (after : Session) (there : (step state (.message message choice)).record key = some after)
      (fine : Known after (account.message message info)) :
      Sound key (step state (.message message choice)) (account.message message info) ∧
        (Accounted key (step state (.message message choice)) (account.message message info) ↔
          Agrees after (account.message message info)) := by
    refine ⟨⟨fun none => ?_, fun session same => ?_⟩, fun all => all after there, fun agrees session same => ?_⟩
    · cases there.symm.trans none
    · obtain rfl := Option.some.inj (there.symm.trans same)
      exact fine
    · obtain rfl := Option.some.inj (there.symm.trans same)
      exact agrees
  rw [shown]
  generalize before : state.record key = old at made
  generalize after : (ProcA11 state message choice).2.record key = new at made
  have after' : (step state (.message message choice)).record key = new := after
  rw [counts old before, after']
  cases made with
  | kept session =>
      rw [Option.isNone_some, if_neg Bool.false_ne_true]
      have mark := @handled_mark account message choice session info orderly
      have fine := known_message (sound.known session before) orderly mark
      obtain ⟨sound', iff⟩ := present _ after' fine
      refine ⟨sound', fun accounted => iff.trans ?_⟩
      have agrees := accounted session before
      by_cases request : info.ucMsg = DEF_A11_REG_REQ
      · rw [request_counts (sound.known session before) orderly request agrees]
        constructor
        · intro all _ other same
          obtain rfl := Option.some.inj same
          exact all
        · exact fun all => all request session rfl
      · exact iff_of_true ((other_agrees request).mpr agrees) fun request' => absurd request' request
  | released _ reply =>
      rw [Option.isNone_none, if_pos rfl]
      obtain ⟨sound', accounted'⟩ := missing after'
      exact ⟨sound', fun _ => iff_of_true accounted' fun request => absurd request reply⟩
  | absent =>
      rw [Option.isNone_none, if_pos rfl]
      obtain ⟨sound', accounted'⟩ := missing after'
      exact ⟨sound', fun _ => iff_of_true accounted' fun _ _ absurd => by cases absurd⟩
  | fresh create sets =>
      rw [Option.isNone_some, if_neg Bool.false_ne_true]
      have empty := sound.absent before
      rw [empty] at orderly
      obtain ⟨fine, agrees⟩ := @fresh_known message info choice key create sets orderly
      rw [← empty] at fine agrees
      obtain ⟨sound', iff⟩ := present _ after' fine
      exact ⟨sound', fun _ => iff_of_true (iff.mpr agrees) fun _ _ absurd => by cases absurd⟩

/-- A step keeps the durations right if and only if a record that it handles is counted from the last one. -/
theorem step_accounted_iff (event : Event) (live : Live state) (sound : Sound key state account)
    (regular : Regular key state account event) :
    Sound key (step state event) (accountStep key state account event) ∧
      (Accounted key state account →
        (Accounted key (step state event) (accountStep key state account event) ↔
          Counts key state account event)) := by
  have quiet (same : accountStep key state account event =
        if ((step state event).record key).isNone then Account.empty else account)
      (other : ∀ message choice, event = .message message choice → message.session state ≠ some key)
      (counts : Counts key state account event) :
      Sound key (step state event) (accountStep key state account event) ∧
        (Accounted key state account →
          (Accounted key (step state event) (accountStep key state account event) ↔
            Counts key state account event)) := by
    obtain ⟨sound', kept⟩ := @sound_quiet state key account (step state event) sound fun _ held =>
      quiet_step event live other held
    rw [same]
    exact ⟨sound', fun accounted => iff_of_true (kept accounted) counts⟩
  cases event with
  | message message choice =>
      by_cases own : message.session state = some key
      · obtain ⟨info, known, -⟩ := @message_own state key message choice live.toInv own
        exact own_step live own known sound (regular own info known)
      · refine quiet ?_ ?_ fun own' => absurd own' own
        · simp only [accountStep, if_neg own]
        · intro message' choice' same
          injection same with messages
          rw [← messages]
          exact own
  | checkTimer call => exact quiet rfl (fun _ _ same => by cases same) trivial
  | recallPSESS name => exact quiet rfl (fun _ _ same => by cases same) trivial

end Step

section Run

variable {start : State} {key : PsessKey}

/-- Each step of a run, in the state before it and with the account of before. -/
def EachAccounted (key : PsessKey) (start : State) (events : List Event)
    (condition : State → Account → Event → Prop) : Prop :=
  EachStep events fun front event => condition (run start front) (tracked key start front).2 event

/-- In a run that is in the order of the capture and alternates, the durations are right in every state if
and only if each record is counted from the last one. -/
theorem durations_run_iff (started : Started start) (isSession : IsSession key) (events : List Event)
    (regular : EachAccounted key start events (Regular key)) :
    (∀ front, front <+: events → Accounted key (run start front) (tracked key start front).2) ↔
      EachAccounted key start events (Counts key) := by
  have live (front : List Event) : Live (run start front) := run_live front (started_live started)
  have first : start.record key = none := by
    cases held : start.record key with
    | none => rfl
    | some session => exact absurd (started.borders key session held).1 (not_or.mpr isSession)
  have snoc (front : List Event) (event : Event) : run start (front ++ [event]) = step (run start front) event ∧
      (tracked key start (front ++ [event])).2 =
        accountStep key (run start front) (tracked key start front).2 event := by
    refine ⟨run_snoc start front event, ?_⟩
    rw [tracked, beside_snoc, beside_run]
    rfl
  have sound : ∀ front, front <+: events → Sound key (run start front) (tracked key start front).2 := by
    intro front
    induction front using List.reverseRecOn with
    | nil => exact fun _ => ⟨fun _ => rfl, fun _ held => by cases first.symm.trans held⟩
    | append_singleton front event ih =>
        intro inside
        have before := ih ((List.prefix_append front [event]).trans inside)
        rw [(snoc front event).1, (snoc front event).2]
        exact (step_accounted_iff event (live front) before (regular front event inside)).1
  have iff (front : List Event) (event : Event) (inside : front ++ [event] <+: events)
      (before : Accounted key (run start front) (tracked key start front).2) :
      Accounted key (run start (front ++ [event])) (tracked key start (front ++ [event])).2 ↔
        Counts key (run start front) (tracked key start front).2 event := by
    rw [(snoc front event).1, (snoc front event).2]
    have fine := sound front ((List.prefix_append front [event]).trans inside)
    exact (step_accounted_iff event (live front) fine (regular front event inside)).2 before
  constructor
  · intro all front event inside
    exact (iff front event inside (all front ((List.prefix_append front [event]).trans inside))).mp
      (all _ inside)
  · intro counts front
    induction front using List.reverseRecOn with
    | nil =>
        intro _ session held
        cases first.symm.trans held
    | append_singleton front event ih =>
        intro inside
        have before := ih ((List.prefix_append front [event]).trans inside)
        exact (iff front event inside before).mpr (counts front event inside)

end Run

section Decisions

variable {account : Account} {message : Message} {info : InfoA11}

instance : Decidable (Orderly account message info) :=
  decidable_of_iff
    ((message.time.Time ≠ 0 ∧ message.time.MTime < 1000000) ∧ account.latest ≤ micros message.time ∧
      (info.ucMsg = DEF_A11_REG_REQ →
        ¬(info.ucAirlinkType &&& ACTIVE_START ≠ 0 ∧ info.ucAirlinkType &&& ACTIVE_STOP ≠ 0)) ∧
      (info.ucMsg = DEF_A11_REG_REQ → ∀ record ∈ airlinkRecord info, ∀ last ∈ account.last, last.1 ≠ record))
    ⟨fun all => ⟨⟨all.1.1, all.1.2⟩, all.2.1, all.2.2.1, fun request record last same held =>
        all.2.2.2 request record same last held⟩,
      fun orderly => ⟨⟨orderly.captured.set, orderly.captured.micro⟩, orderly.later, orderly.single,
        fun request record same last held => orderly.alternates request record last same held⟩⟩

instance (key : PsessKey) (state : State) (account : Account) (event : Event) :
    Decidable (Regular key state account event) :=
  match event with
  | .message message _ =>
      inferInstanceAs (Decidable (message.session state = some key → ∀ info ∈ message.info,
        Orderly account message info))
  | .checkTimer _ => .isTrue trivial
  | .recallPSESS _ => .isTrue trivial

instance (key : PsessKey) (state : State) (account : Account) (event : Event) :
    Decidable (Counts key state account event) :=
  match event with
  | .message message _ =>
      decidable_of_iff (message.session state = some key → ∀ info ∈ message.info, info.ucMsg = DEF_A11_REG_REQ →
          ∀ session ∈ state.record key, ∀ record ∈ airlinkRecord info, ∀ last ∈ account.last,
            micros (countedFrom session message info record) % 2 ^ 32 = micros last.2 % 2 ^ 32)
        ⟨fun all own info known request session held record last same since =>
            all own info known request session held record same last since,
          fun all own info known request session held record same last since =>
            all own info known request session held record last same since⟩
  | .checkTimer _ => .isTrue trivial
  | .recallPSESS _ => .isTrue trivial

instance (key : PsessKey) (start : State) (events : List Event) (condition : State → Account → Event → Prop)
    [∀ state account event, Decidable (condition state account event)] :
    Decidable (EachAccounted key start events condition) :=
  inferInstanceAs (Decidable (EachStep events _))

end Decisions

section Witness

/-- A start at 10 s and a stop at 12 s, without a reply. -/
def unansweredEvents : List Event :=
  [Event.message (a11Message .client DEF_A11_REG_REQ 1 ACTIVE_START 1 [49] 10) (simpleChoice none),
    Event.message (a11Message .client DEF_A11_REG_REQ 1 ACTIVE_STOP 1 [49] 12) (simpleChoice none)]

theorem unanswered_accounted :
    Accounted ⟨1, 1⟩ (run (startState [2, 3, 4]) unansweredEvents)
      (tracked ⟨1, 1⟩ (startState [2, 3, 4]) unansweredEvents).2 :=
  (durations_run_iff (start_started (by decide) (by decide)) ⟨by decide, by decide⟩ unansweredEvents
    (by decide +kernel)).mpr (by decide +kernel) unansweredEvents (List.prefix_refl _)

/-- A start at 10 s, its reply and a stop at 12 s, both accepted. -/
def answeredEvents : List Event :=
  [Event.message (a11Message .client DEF_A11_REG_REQ 1 ACTIVE_START 1 [49] 10) (simpleChoice none),
    Event.message (a11Message .server DEF_A11_REG_REP 1 0 1 [] 11) (simpleChoice none),
    Event.message (a11Message .client DEF_A11_REG_REQ 1 ACTIVE_STOP 1 [49] 12) (simpleChoice none),
    Event.message (a11Message .server DEF_A11_REG_REP 1 0 1 [] 13) (simpleChoice none)]

/-- The two seconds behind the start are not counted: the reply has cleared what shows the start. -/
theorem answered_time_lost :
    Started (startState [2, 3, 4]) ∧ IsSession ⟨1, 1⟩ ∧
      EachAccounted ⟨1, 1⟩ (startState [2, 3, 4]) answeredEvents (Regular ⟨1, 1⟩) ∧
      (tracked ⟨1, 1⟩ (startState [2, 3, 4]) answeredEvents).2.active = 2000000 ∧
      ((run (startState [2, 3, 4]) answeredEvents).record ⟨1, 1⟩).map Session.uiActiveDuration = some 0 := by
  refine ⟨start_started (by decide) (by decide), ⟨by decide, by decide⟩, ?_, ?_, ?_⟩
  · decide +kernel
  · decide +kernel
  · decide +kernel

end Witness

end Upst.Arp
