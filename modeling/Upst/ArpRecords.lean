import Upst.Arp

/-!
What `A_RP` does to the records of the sessions. A handler writes to the slot of the session that the
message names; a removal gives the slot to another record, or leaves what was in it.
-/

namespace Upst.Arp

open Psess Slots Tcp

set_option autoImplicit false

section Put

variable {state : State} {slot : Nat} {session : Session}

theorem put_wf (wf : Wf Session.key state.psess) (same : session.key = (state.psess.tuple slot).key) :
    Wf Session.key (state.put slot session).psess :=
  set_wf wf same

theorem put_record (wf : Wf Session.key state.psess) (used : slot ∈ state.psess.used)
    (same : session.key = (state.psess.tuple slot).key) (name : PsessKey) :
    (state.put slot session).record name =
      if name = session.key then some session else state.record name :=
  set_record wf used same name

theorem put_own : (state.put slot session).psess.tuple slot = session := set_own

theorem put_put (other : Session) : (state.put slot session).put slot other = state.put slot other := by
  simp only [State.put, Table.set, Function.update_idem]

end Put

section Handled

/-- A reply that does not release its session. -/
def replied (session : Session) (message : Message) (info : InfoA11) : Session :=
  let session := regRep session message info
  let session :=
    if 0 < info.usLifetime ∧ session.RegA11.ucAirlink = ACTIVE_STOP then
      { session with uiStopFlag := .dormant }
    else session
  { session with RegA11 := session.RegA11.paired }

/-- The record behind a message that does not release its session. -/
def handled (session : Session) (message : Message) (info : InfoA11) : Session :=
  let session := touch session message
  if info.ucMsg = DEF_A11_REG_REQ then regReq session message info
  else if info.ucMsg = DEF_A11_REG_REP then replied session message info
  else if info.ucMsg = DEF_A11_REG_UP then regUp session message info
  else if info.ucMsg = DEF_A11_REG_ACK then regAck session message info
  else if info.ucMsg = DEF_A11_SESS_UP then sessUp session message info
  else if info.ucMsg = DEF_A11_SESS_ACK then sessAck session message info
  else session

def released (session : Session) (info : InfoA11) : Prop :=
  info.ucMsg = DEF_A11_REG_REP ∧ info.usLifetime = 0 ∧ session.RegA11.ucAirlink &&& ACTIVE_STOP ≠ 0

instance (session : Session) (info : InfoA11) : Decidable (released session info) :=
  inferInstanceAs (Decidable (_ ∧ _ ∧ _))

theorem paired_opened (record : StA11Info) : record.paired.ucFlag ≠ DEF_A11_PAIR := by
  rw [StA11Info.paired]
  split
  · decide
  · next other => exact other

variable (session : Session) (message : Message) (info : InfoA11)

theorem accepted_airlink :
    (replyAccepted session message info).RegA11.ucAirlink = session.RegA11.ucAirlink := by
  simp only [replyAccepted]
  split_ifs <;> rfl

theorem rejected_airlink : (replyRejected session info).RegA11.ucAirlink = session.RegA11.ucAirlink := by
  simp only [replyRejected]
  split_ifs <;> rfl

theorem reply_airlink : (regRep session message info).RegA11.ucAirlink = session.RegA11.ucAirlink := by
  simp only [regRep, StA11Info.response]
  split
  · exact accepted_airlink _ _ _
  · exact rejected_airlink _ _

/-- A session keeps its key and its subscriber. -/
structure Named (before after : Session) : Prop where
  key : after.key = before.key
  szMIN : after.szMIN = before.szMIN

theorem Named.trans {first second third : Session} (one : Named first second) (two : Named second third) :
    Named first third :=
  ⟨two.key.trans one.key, two.szMIN.trans one.szMIN⟩

theorem lifetime_named : Named session (requestLifetime session message info) := by
  simp only [requestLifetime]
  split_ifs <;> exact ⟨rfl, rfl⟩

theorem start_named : Named session (activeStart session message info) := by
  simp only [activeStart]
  split_ifs <;> exact ⟨rfl, rfl⟩

theorem stop_named : Named session (activeStop session message info) := by
  simp only [activeStop]
  split_ifs <;> exact ⟨rfl, rfl⟩

theorem option_named : Named session (requestOption session info) := by
  simp only [requestOption]
  split_ifs <;> exact ⟨rfl, rfl⟩

theorem req_named : Named session (regReq session message info) := by
  let counted := { session with ucRegiReqCount := session.ucRegiReqCount + 1 }
  have first : Named session counted := ⟨rfl, rfl⟩
  have airlinks := (first.trans (lifetime_named counted message info)).trans
    ((start_named _ message info).trans (stop_named _ message info))
  have fields : Named session (requestFields _ info) := airlinks.trans ⟨rfl, rfl⟩
  exact (fields.trans (option_named _ info)).trans ⟨rfl, rfl⟩

theorem accepted_named : Named session (replyAccepted session message info) := by
  simp only [replyAccepted]
  split_ifs <;> exact ⟨rfl, rfl⟩

theorem rejected_named : Named session (replyRejected session info) := by
  simp only [replyRejected]
  split_ifs <;> exact ⟨rfl, rfl⟩

theorem rep_named : Named session (regRep session message info) := by
  let counted := { session with RegA11 := { session.RegA11 with usLifetime := info.usLifetime } }
  have first : Named session counted := ⟨rfl, rfl⟩
  simp only [regRep]
  split
  · exact (first.trans (accepted_named counted message info)).trans ⟨rfl, rfl⟩
  · exact (first.trans (rejected_named counted info)).trans ⟨rfl, rfl⟩

theorem replied_named : Named session (replied session message info) := by
  simp only [replied]
  refine (rep_named session message info).trans ?_
  split_ifs <;> exact ⟨rfl, rfl⟩

theorem handled_named : Named session (handled session message info) := by
  have first : Named session (touch session message) := ⟨rfl, rfl⟩
  simp only [handled]
  split_ifs
  · exact first.trans (req_named _ message info)
  · exact first.trans (replied_named _ message info)
  · exact first.trans ⟨rfl, rfl⟩
  · exact first.trans ⟨rfl, rfl⟩
  · exact first.trans ⟨rfl, rfl⟩
  · exact first.trans ⟨rfl, rfl⟩
  · exact first

/-- No handler leaves a complete pair of a registration. -/
theorem handled_opened (opened : session.RegA11.ucFlag ≠ DEF_A11_PAIR) :
    (handled session message info).RegA11.ucFlag ≠ DEF_A11_PAIR := by
  simp only [handled]
  split_ifs
  · exact paired_opened _
  · exact paired_opened _
  all_goals exact opened

theorem clear_put {state : State} {slot : Nat} : clearPair (state.put slot session) slot =
    state.put slot { session with RegA11 := session.RegA11.paired } := by
  simp only [clearPair, put_own, put_put, StA11Info.paired]
  split <;> rfl

theorem switch_kept {state : State} {slot : Nat} {choice : Choice}
    (kept : ¬released (state.psess.tuple slot) info) :
    switchMsg state slot message info choice =
      state.put slot (handled (state.psess.tuple slot) message info) := by
  simp only [switchMsg, handled]
  by_cases reply : info.ucMsg = DEF_A11_REG_REP
  · have other : info.ucMsg ≠ DEF_A11_REG_REQ := by
      rw [reply]
      decide
    have airlink : (regRep (touch (state.psess.tuple slot) message) message info).RegA11.ucAirlink =
        (state.psess.tuple slot).RegA11.ucAirlink := reply_airlink _ _ _
    rw [if_neg other, if_pos reply, if_neg other, if_pos reply]
    simp only [replyEnd, replied, put_own, put_put, airlink]
    by_cases lasting : 0 < info.usLifetime
    · simp only [lasting, true_and, if_true]
      split <;> exact clear_put _
    · have zero : info.usLifetime = 0 := UInt16.not_lt.mp lasting |> UInt16.le_zero_iff.mp
      have open_airlink : ¬(state.psess.tuple slot).RegA11.ucAirlink &&& ACTIVE_STOP ≠ 0 :=
        fun stops => kept ⟨reply, zero, stops⟩
      rw [if_neg lasting, if_neg open_airlink, if_neg (fun both => lasting both.1)]
      exact clear_put _
  · split_ifs <;> rfl

end Handled

section Remove

/-- What a removal leaves: the slot is free, or has the record of another session. -/
structure Removal (state : State) (slot : Nat) (after : State) : Prop where
  wf : Wf Session.key after.psess
  record : ∀ name, after.record name =
    if name = (state.psess.tuple slot).key then none else state.record name
  callhash : after.callhash =
    if ourCall state (state.psess.tuple slot) then
      Function.update state.callhash (atoll (state.psess.tuple slot).szMIN) none
    else state.callhash
  slot : slot ∉ after.psess.used ∨ slot ∈ after.psess.used ∧
    ∃ name ≠ (state.psess.tuple slot).key, state.record name = some (after.psess.tuple slot)

theorem close_key (session : Session) : (closeBuf session).key = session.key := by
  rw [closeBuf]
  split <;> rfl

theorem forget_psess (state : State) (session : Session) : (forgetCall state session).psess = state.psess := by
  rw [forgetCall]
  split <;> rfl

theorem forget_callhash (state : State) (session : Session) : (forgetCall state session).callhash =
    if ourCall state session then Function.update state.callhash (atoll session.szMIN) none
    else state.callhash := by
  rw [forgetCall]
  split <;> rfl

variable {state : State} {slot : Nat} {choice : Choice}

theorem remove_psess (wf : Wf Session.key state.psess) (used : slot ∈ state.psess.used) :
    (RemoveA10 state slot choice).2.psess =
      (state.put slot (closeBuf (state.psess.tuple slot))).psess.delete slot choice.psess := by
  have closed := close_key (state.psess.tuple slot)
  have found := search_used (put_wf wf closed) used
  rw [put_own, closed] at found
  simp only [RemoveA10, Delete_PSESS, deleteKey, forget_psess, found]
  rfl

theorem remove_callhash : (RemoveA10 state slot choice).2.callhash =
    if ourCall state (state.psess.tuple slot) then
      Function.update state.callhash (atoll (state.psess.tuple slot).szMIN) none
    else state.callhash := by
  have forgotten := forget_callhash (state.put slot (closeBuf (state.psess.tuple slot))) (state.psess.tuple slot)
  refine Eq.trans ?_ forgotten
  simp only [RemoveA10]
  split <;> rfl

theorem remove_spec (choice : Choice) (wf : Wf Session.key state.psess) (used : slot ∈ state.psess.used) :
    Removal state slot (RemoveA10 state slot choice).2 := by
  have closed := close_key (state.psess.tuple slot)
  have wf' := put_wf wf closed
  have psess := @remove_psess state slot choice wf used
  refine ⟨?_, ?_, remove_callhash, ?_⟩
  · rw [psess]
    exact delete_wf wf' used choice.psess
  · intro name
    rw [State.record, psess, delete_record wf' used, put_own, closed]
    split
    · rfl
    · next other =>
        have kept := put_record wf used closed name
        rw [closed, if_neg other] at kept
        exact kept
  · rw [psess]
    rcases delete_slot wf' used choice.psess with moved | freed
    · obtain ⟨other, inside, apart, held, same⟩ := moved
      refine Or.inr ⟨held, (state.psess.tuple other).key, ?_, ?_⟩
      · exact fun named => apart (wf.keys other inside slot used named)
      · rw [same, State.put, set_apart apart]
        exact record_slot wf inside
    · exact Or.inl freed.1

end Remove

section Released

/-- Between two messages no registration is a complete pair. -/
structure Inv (state : State) : Prop where
  wf : Wf Session.key state.psess
  opened : ∀ key session, state.record key = some session → session.RegA11.ucFlag ≠ DEF_A11_PAIR

variable {state : State} {slot : Nat} {message : Message} {info : InfoA11} {choice : Choice}

theorem Inv.single (inv : Inv state) (used : slot ∈ state.psess.used) :
    (state.psess.tuple slot).RegA11.ucFlag ≠ DEF_A11_PAIR :=
  inv.opened _ _ (record_slot inv.wf used)

/-- A write to a session in use. -/
theorem Inv.put {session : Session} (inv : Inv state) (used : slot ∈ state.psess.used)
    (same : session.key = (state.psess.tuple slot).key) (opened : session.RegA11.ucFlag ≠ DEF_A11_PAIR) :
    Inv (state.put slot session) where
  wf := put_wf inv.wf same
  opened key held found := by
    rw [put_record inv.wf used same] at found
    split at found
    · rw [← Option.some.inj found]
      exact opened
    · exact inv.opened key held found

/-- The clearing behind a removal meets no complete pair, so that it changes no session. -/
theorem clear_free {mid : State} (inv : Inv state)
    (others : ∀ name ≠ (state.psess.tuple slot).key, mid.record name = state.record name)
    (key : (mid.psess.tuple slot).key = (state.psess.tuple slot).key) {after : State}
    (removal : Removal mid slot after) :
    Wf Session.key (clearPair after slot).psess ∧ (clearPair after slot).callhash = after.callhash ∧
      ∀ name, (clearPair after slot).record name = after.record name := by
  rw [clearPair]
  split
  · next pair =>
      rcases removal.slot with free | moved
      · exact ⟨set_wf_free removal.wf free, rfl, set_record_free removal.wf free⟩
      · obtain ⟨-, name, apart, held⟩ := moved
        rw [key] at apart
        rw [others name apart] at held
        exact absurd pair (inv.opened name _ held)
  · exact ⟨removal.wf, rfl, fun _ => rfl⟩

theorem our_named {session other : Session} (named : Named session other) :
    ourCall state other = ourCall state session := by
  rw [ourCall, ourCall, named.key, named.szMIN]

theorem regRep_named (session : Session) (message : Message) (info : InfoA11) :
    Named session (regRep (touch session message) message info) := by
  have first : Named session (touch session message) := ⟨rfl, rfl⟩
  exact first.trans (rep_named _ message info)

/-- The reply that releases its session removes it. -/
theorem switch_removes (message : Message) (choice : Choice) (release : released (state.psess.tuple slot) info) :
    switchMsg state slot message info choice =
      clearPair (RemoveA10
        (state.put slot (regRep (touch (state.psess.tuple slot) message) message info)) slot choice).2 slot := by
  obtain ⟨reply, zero, stops⟩ := release
  have airlink : (regRep (touch (state.psess.tuple slot) message) message info).RegA11.ucAirlink =
      (state.psess.tuple slot).RegA11.ucAirlink := reply_airlink _ _ _
  have other : info.ucMsg ≠ DEF_A11_REG_REQ := by
    rw [reply]
    decide
  have lasting : ¬0 < info.usLifetime := by
    rw [zero]
    decide
  simp only [switchMsg]
  rw [if_neg other, if_pos reply]
  simp only [replyEnd, put_own]
  rw [if_neg lasting, if_pos (airlink.symm ▸ stops)]

theorem switch_released (message : Message) (choice : Choice) (inv : Inv state) (used : slot ∈ state.psess.used)
    (release : released (state.psess.tuple slot) info) :
    Wf Session.key (switchMsg state slot message info choice).psess ∧
      (switchMsg state slot message info choice).callhash =
        (if ourCall state (state.psess.tuple slot) then
          Function.update state.callhash (atoll (state.psess.tuple slot).szMIN) none
        else state.callhash) ∧
      ∀ name, (switchMsg state slot message info choice).record name =
        if name = (state.psess.tuple slot).key then none else state.record name := by
  let session := regRep (touch (state.psess.tuple slot) message) message info
  have named : Named (state.psess.tuple slot) session := regRep_named _ message info
  have others := put_record inv.wf used named.key
  have removal := remove_spec choice (put_wf inv.wf named.key) used
  have whole := switch_removes message choice release
  have apart : ∀ name ≠ (state.psess.tuple slot).key,
      (state.put slot session).record name = state.record name := by
    intro name other
    rw [others, if_neg (named.key.symm ▸ other)]
  obtain ⟨wf, callhash, records⟩ := clear_free inv apart (by rw [put_own, named.key]) removal
  rw [whole]
  refine ⟨wf, callhash.trans ?_, fun name => (records name).trans ?_⟩
  · rw [removal.callhash, put_own, named.szMIN]
    exact congrArg (fun ours : Bool => if ours then _ else _) (our_named named)
  · rw [removal.record, put_own, named.key]
    split
    · rfl
    · next other => exact apart name other

end Released

section Registration

/-- A known session that registers again. -/
def registered (session : Session) (message : Message) (info : InfoA11) (choice : Choice) : Session :=
  if regiRetry session info then
    { session with RegA11 := { session.RegA11 with usA11Flag := session.RegA11.usA11Flag ||| 0x0008 } }
  else setupA10 (renewA10 session message) message info choice

/-- The session of a new registration. -/
def fresh (key : PsessKey) (create : Stamp) (message : Message) (info : InfoA11) (choice : Choice) :
    Session :=
  setupA10 (InitPSESS { Session.zero key with Create := create, uiCallType := .normal }) message info choice

variable (state : State) (key : PsessKey) (message : Message) (info : InfoA11) (choice : Choice)

def hashEntry : Stamp × (Int → Option CallData) :=
  callEntry state.callhash (atoll info.szMDN) key.uiServingPCF message.time choice.added

/-- What the registration part of a message does. -/
inductive Registration : Int → State → Prop where
  | idle (other : ¬setsUp info) : Registration 0 state
  | known (sets : setsUp info) (slot : Nat) (found : Search_PSESS state.psess key = some slot) (ret : Int)
      (fine : 0 ≤ ret) :
      Registration ret (state.put slot (registered (state.psess.tuple slot) message info choice))
  | refused (sets : setsUp info) (unknown : Search_PSESS state.psess key = none)
      (full : state.psess.free.length < 2) :
      Registration (-2) { state with callhash := (hashEntry state key message info choice).2 }
  | inserted (sets : setsUp info) (slot : Nat) (table : Table Session) (room : 2 ≤ state.psess.free.length)
      (into : Inserted Session.key state.psess
        (fresh key (hashEntry state key message info choice).1 message info choice) slot table) :
      Registration 0
        { state with
          callhash := (hashEntry state key message info choice).2
          psess := table }

variable {state key message info choice}

theorem renew_key (session : Session) : (renewA10 session message).key = session.key := by
  simp only [renewA10]
  split_ifs <;> rfl

theorem renew_flag (message : Message) {session : Session} (opened : session.RegA11.ucFlag ≠ DEF_A11_PAIR) :
    (renewA10 session message).RegA11.ucFlag ≠ DEF_A11_PAIR := by
  have cleared : StA11Info.zero.ucFlag ≠ DEF_A11_PAIR := by decide
  simp only [renewA10]
  split_ifs
  · exact cleared
  · exact cleared
  · exact opened
  · exact opened

theorem registered_key (session : Session) : (registered session message info choice).key = session.key := by
  rw [registered]
  split
  · rfl
  · exact renew_key session

theorem registered_flag {session : Session} (opened : session.RegA11.ucFlag ≠ DEF_A11_PAIR) :
    (registered session message info choice).RegA11.ucFlag ≠ DEF_A11_PAIR := by
  rw [registered]
  split
  · exact opened
  · exact renew_flag message opened

theorem fresh_key (create : Stamp) : (fresh key create message info choice).key = key := rfl

theorem fresh_flag (create : Stamp) :
    (fresh key create message info choice).RegA11.ucFlag ≠ DEF_A11_PAIR := by
  have cleared : StA11Info.zero.ucFlag ≠ DEF_A11_PAIR := by decide
  exact cleared

theorem registration_cases (wf : Wf Session.key state.psess) :
    Registration state key message info choice
      (if setsUp info then CreateA10 state key message info choice else (0, state)).1
      (if setsUp info then CreateA10 state key message info choice else (0, state)).2 := by
  split
  · next sets =>
      rw [CreateA10]
      cases search : Search_PSESS state.psess key with
      | some slot =>
          have known := @Registration.known state key message info choice sets slot search
          simp only [registered] at known
          dsimp only
          split
          · next retry =>
              rw [if_pos retry] at known
              exact known 1 (by decide)
          · next again =>
              rw [if_neg again] at known
              exact known 0 (Int.le_refl 0)
      | none =>
          let session := fresh key (hashEntry state key message info choice).1 message info choice
          have room := @insert_room PsessKey Session Session.key _ state.psess session search
          dsimp only
          split
          · next refused => exact Registration.refused sets search (room.mp refused)
          · next table done =>
              obtain ⟨slot, into⟩ := insert_some wf done
              refine Registration.inserted sets slot table ?_ into
              apply Nat.le_of_not_lt
              intro full
              exact Option.some_ne_none table (done.symm.trans (room.mpr full))
  · next other => exact Registration.idle other

theorem Registration.inv {ret : Int} {mid : State} (done : Registration state key message info choice ret mid)
    (inv : Inv state) : Inv mid := by
  cases done with
  | idle other => exact inv
  | known sets slot found fine =>
      have used := (search_some found).1
      exact inv.put used (registered_key _) (registered_flag (inv.single used))
  | refused sets unknown full => exact ⟨inv.wf, inv.opened⟩
  | inserted sets slot table room into =>
      refine ⟨into.wf inv.wf, fun name session found => ?_⟩
      have record := into.record inv.wf name
      rw [State.record, record] at found
      split at found
      · rw [← Option.some.inj found]
        exact fresh_flag _
      · exact inv.opened name session found

/-- Other sessions are as before. -/
theorem Registration.apart {ret : Int} {mid : State}
    (done : Registration state key message info choice ret mid) (inv : Inv state) {name : PsessKey}
    (other : name ≠ key) : mid.record name = state.record name := by
  cases done with
  | idle _ => rfl
  | known sets slot found fine =>
      obtain ⟨used, named⟩ := search_some found
      rw [put_record inv.wf used (registered_key _), registered_key, named, if_neg other]
  | refused sets unknown full => rfl
  | inserted sets slot table room into =>
      have record := into.record inv.wf name
      rw [fresh_key, if_neg other] at record
      exact record

/-- A registration that does not fail leaves a session of its key. -/
theorem Registration.present {ret : Int} {mid : State}
    (done : Registration state key message info choice ret mid) (inv : Inv state) (sets : setsUp info)
    (fine : 0 ≤ ret) : ∃ slot, Search_PSESS mid.psess key = some slot := by
  have wf := (done.inv inv).wf
  cases done with
  | idle other => exact absurd sets other
  | known sets slot found fine =>
      obtain ⟨used, named⟩ := search_some found
      have search := search_used wf used
      rw [put_own, registered_key, named] at search
      exact ⟨slot, search⟩
  | refused sets unknown full => exact absurd fine (by decide)
  | inserted sets slot table room into =>
      have used : slot ∈ table.used := by
        rw [into.used]
        exact List.mem_cons_self
      have search := search_used wf used
      rw [into.own, fresh_key] at search
      exact ⟨slot, search⟩

end Registration

section Message

/-- The key of the session that a key leads to. -/
def mainKey (state : State) (key : PsessKey) : PsessKey :=
  match Search_PSESS state.psess key, Search_GREENTRY state.greentry ⟨key.uiServingPCF, key.uiKey⟩ with
  | none, some entry => ⟨key.uiServingPCF, (state.greentry.tuple entry).uiMainGREKey⟩
  | _, _ => key

/-- The key of the session that a message addresses. -/
def addressed (state : State) (key : PsessKey) (info : InfoA11) : PsessKey :=
  if setsUp info then key else mainKey state key

variable {state : State} {key : PsessKey} {message : Message} {info : InfoA11} {choice : Choice}

theorem find_key {slot : Nat} (found : findPSESS state key = some slot) :
    slot ∈ state.psess.used ∧ (state.psess.tuple slot).key = mainKey state key := by
  rw [findPSESS] at found
  rw [mainKey]
  cases search : Search_PSESS state.psess key with
  | some place =>
      rw [search] at found
      obtain rfl := Option.some.inj found
      exact search_some search
  | none =>
      rw [search] at found
      obtain ⟨entry, known, main⟩ := Option.bind_eq_some_iff.mp found
      rw [known]
      exact search_some main

theorem unknown_record (unknown : Search_PSESS state.psess key = none) : state.record key = none :=
  record_none.mpr unknown

theorem find_present {slot : Nat} (present : Search_PSESS state.psess key = some slot) :
    findPSESS state key = some slot := by
  rw [findPSESS, present]

/-- The message is dropped behind its registration, or the switch gets the session that it addresses. -/
theorem proc_parts (key : PsessKey) (message : Message) (info : InfoA11) (choice : Choice)
    (inv : Inv state) : ∃ ret mid, Registration state key message info choice ret mid ∧
    ((procKey state key message info choice).2 = mid ∧ (ret < 0 ∨ findPSESS mid key = none) ∨
      ∃ slot, 0 ≤ ret ∧ findPSESS mid key = some slot ∧ slot ∈ mid.psess.used ∧
        (mid.psess.tuple slot).key = addressed state key info ∧
        procKey state key message info choice =
          (0, switchMsg
            { mid with greentry := info.dwKeyEntry.foldl (announce (mid.psess.tuple slot).key) mid.greentry }
            slot message info choice)) := by
  have done := @registration_cases state key message info choice inv.wf
  rw [procKey]
  dsimp only
  generalize (if setsUp info then CreateA10 state key message info choice else (0, state)) = created at done ⊢
  obtain ⟨ret, mid⟩ := created
  dsimp only at done ⊢
  refine ⟨ret, mid, done, ?_⟩
  split
  · next failed => exact Or.inl ⟨rfl, Or.inl failed⟩
  · next fine =>
      have fine := Int.not_lt.mp fine
      split
      · next missing => exact Or.inl ⟨rfl, Or.inr missing⟩
      · next slot found =>
          refine Or.inr ⟨slot, fine, found, (find_key found).1, ?_, rfl⟩
          rw [addressed]
          split
          · next sets =>
              obtain ⟨place, present⟩ := done.present inv sets fine
              rw [find_present present] at found
              obtain rfl := Option.some.inj found
              exact (search_some present).2
          · next other =>
              cases done with
              | idle _ => exact (find_key found).2
              | _ => exact absurd ‹setsUp info› other

theorem proc_cases (key : PsessKey) (message : Message) (info : InfoA11) (choice : Choice)
    (inv : Inv state) : ∃ ret mid, Registration state key message info choice ret mid ∧
    ((procKey state key message info choice).2 = mid ∧ (ret < 0 ∨ findPSESS mid key = none) ∨
      ∃ slot greentry, 0 ≤ ret ∧ findPSESS mid key = some slot ∧ slot ∈ mid.psess.used ∧
        (mid.psess.tuple slot).key = addressed state key info ∧
        (procKey state key message info choice).2 =
          switchMsg { mid with greentry := greentry } slot message info choice) := by
  obtain ⟨ret, mid, done, rest⟩ := proc_parts key message info choice inv
  refine ⟨ret, mid, done, rest.imp_right fun ⟨slot, fine, found, used, named, whole⟩ => ?_⟩
  exact ⟨slot, _, fine, found, used, named, congrArg Prod.snd whole⟩

theorem sets_not_released {session : Session} {info : InfoA11} (sets : setsUp info) :
    ¬released session info := by
  intro release
  have codes := sets.1.symm.trans release.1
  exact absurd codes (by decide)

end Message

end Upst.Arp
