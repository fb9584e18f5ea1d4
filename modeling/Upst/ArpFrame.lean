import Upst.ArpSweep
import Mathlib.Data.List.Induction

/-!
Which sessions a message changes: the one that it addresses and no other, also where the removal of that
one moves another record into its slot, to which the end of the handler writes. The write clears a
complete pair of a registration, and between two messages no session has one.
-/

namespace Upst.Arp

open Psess Slots Sweeping Tcp

set_option autoImplicit false

section Procedure

variable {state : State} {key : PsessKey} {message : Message} {info : InfoA11} {choice : Choice}

/-- What the switch over the message leaves of the records: a written one, or one less. -/
theorem switch_records {slot : Nat} (inv : Inv state) (used : slot ∈ state.psess.used) :
    Inv (switchMsg state slot message info choice) ∧
      ∀ name, (switchMsg state slot message info choice).record name =
        if name = (state.psess.tuple slot).key then
          if released (state.psess.tuple slot) info then none
          else some (handled (state.psess.tuple slot) message info)
        else state.record name := by
  by_cases release : released (state.psess.tuple slot) info
  · obtain ⟨wf, -, records⟩ := switch_released message choice inv used release
    rw [if_pos release]
    refine ⟨⟨wf, fun name session held => ?_⟩, records⟩
    rw [records] at held
    split at held
    · exact nomatch held
    · exact inv.opened name session held
  · have named := (handled_named (state.psess.tuple slot) message info).key
    have opened := handled_opened _ message info (inv.single used)
    rw [if_neg release, switch_kept message info release]
    refine ⟨inv.put used named opened, fun name => ?_⟩
    rw [put_record inv.wf used named, named]

theorem proc_records (inv : Inv state) : Inv (procKey state key message info choice).2 ∧
    ∀ name ≠ addressed state key info,
      (procKey state key message info choice).2.record name = state.record name := by
  obtain ⟨ret, mid, done, rest⟩ := proc_cases key message info choice inv
  have kept {name : PsessKey} (other : name ≠ addressed state key info) :
      mid.record name = state.record name := by
    by_cases sets : setsUp info
    · rw [addressed, if_pos sets] at other
      exact done.apart inv other
    · cases done with
      | idle _ => rfl
      | _ => exact absurd ‹setsUp info› sets
  have inv' := done.inv inv
  rcases rest with ⟨same, -⟩ | found
  · rw [same]
    exact ⟨inv', fun name other => kept other⟩
  · obtain ⟨slot, greentry, -, -, used, named, same⟩ := found
    obtain ⟨after, records⟩ := @switch_records { mid with greentry := greentry } message info choice slot
      ⟨inv'.wf, inv'.opened⟩ used
    rw [same]
    refine ⟨after, fun name other => ?_⟩
    rw [records, if_neg (named.symm ▸ other)]
    exact kept other

/-- A session behind the registration part of a message. -/
def prepared (session : Session) (message : Message) (info : InfoA11) (choice : Choice) : Session :=
  if setsUp info then registered session message info choice else session

theorem find_none (wf : Wf Session.key state.psess) (missing : findPSESS state key = none) :
    state.record (mainKey state key) = none := by
  cases held : state.record (mainKey state key) with
  | none => rfl
  | some session =>
      obtain ⟨place, used, -, named⟩ := (record_eq_some wf).mp held
      have search := search_used wf used
      rw [findPSESS] at missing
      rw [mainKey] at held
      cases own : Search_PSESS state.psess key with
      | some slot =>
          rw [own] at missing
          cases missing
      | none =>
          rw [own] at missing held
          cases entry : Search_GREENTRY state.greentry ⟨key.uiServingPCF, key.uiKey⟩ with
          | none =>
              rw [entry] at held
              rw [unknown_record own] at held
              cases held
          | some entry' =>
              rw [entry] at missing held
              dsimp only [Option.bind_some] at missing
              rw [unknown_record missing] at held
              cases held

/-- The record of the session that the message addresses, behind the registration. -/
theorem registration_own {ret : Int} {mid : State} (inv : Inv state)
    (done : Registration state key message info choice ret mid) :
    (∀ session, state.record (addressed state key info) = some session →
      mid.record (addressed state key info) = some (prepared session message info choice)) ∧
      (state.record (addressed state key info) = none → mid.record (addressed state key info) = none ∨
        setsUp info ∧ ∃ create,
          mid.record (addressed state key info) = some (fresh key create message info choice)) := by
  cases done with
  | idle other =>
      refine ⟨fun session held => ?_, Or.inl⟩
      rw [prepared, if_neg other]
      exact held
  | known sets slot found fine =>
      obtain ⟨used, named⟩ := search_some found
      have held := record_search found
      have own := (put_record inv.wf used (registered_key _) key :
        (state.put slot (registered (state.psess.tuple slot) message info choice)).record key = _)
      rw [registered_key, named, if_pos rfl] at own
      rw [addressed, if_pos sets, State.record, held]
      refine ⟨fun session same => ?_, fun absurd => by cases absurd⟩
      obtain rfl := Option.some.inj same
      rw [prepared, if_pos sets]
      exact own
  | refused sets unknown full =>
      rw [addressed, if_pos sets, unknown_record unknown]
      exact ⟨(fun _ absurd => by cases absurd), fun _ => Or.inl (unknown_record unknown)⟩
  | inserted sets slot table room into =>
      have unknown : Search_PSESS state.psess key = none := into.unknown
      have record := into.record inv.wf key
      rw [fresh_key, if_pos rfl] at record
      rw [addressed, if_pos sets, unknown_record unknown]
      exact ⟨(fun _ absurd => by cases absurd), fun _ => Or.inr ⟨sets, _, record⟩⟩

/-- A message that is dropped behind its registration addresses no session. -/
theorem dropped_none {ret : Int} {mid : State} (inv : Inv state)
    (done : Registration state key message info choice ret mid) (dropped : ret < 0 ∨ findPSESS mid key = none) :
    state.record (addressed state key info) = none ∧ mid.record (addressed state key info) = none := by
  cases done with
  | idle other =>
      have nothing := find_none inv.wf (dropped.resolve_left (by decide))
      rw [addressed, if_neg other]
      exact ⟨nothing, nothing⟩
  | known sets slot found ret fine =>
      obtain ⟨place, present⟩ := Registration.present (.known sets slot found ret fine) inv sets fine
      rw [find_present present] at dropped
      exact absurd dropped (fun either => either.elim (Int.not_lt.mpr fine) fun absurd => by cases absurd)
  | refused sets unknown full =>
      rw [addressed, if_pos sets]
      exact ⟨unknown_record unknown, unknown_record unknown⟩
  | inserted sets slot table room into =>
      obtain ⟨place, present⟩ :=
        Registration.present (.inserted sets slot table room into) inv sets (Int.le_refl 0)
      rw [find_present present] at dropped
      exact absurd dropped (fun either => either.elim (by decide) fun absurd => by cases absurd)

/-- What a message makes of the session that it addresses. -/
theorem proc_own (inv : Inv state) :
    (∀ session, state.record (addressed state key info) = some session →
      (procKey state key message info choice).2.record (addressed state key info) =
        if released (prepared session message info choice) info then none
        else some (handled (prepared session message info choice) message info)) ∧
      (state.record (addressed state key info) = none →
        (procKey state key message info choice).2.record (addressed state key info) = none ∨
          setsUp info ∧ ∃ create, (procKey state key message info choice).2.record (addressed state key info) =
            some (handled (fresh key create message info choice) message info)) := by
  obtain ⟨ret, mid, done, rest⟩ := proc_cases key message info choice inv
  have inv' := done.inv inv
  obtain ⟨there, absent⟩ := registration_own inv done
  rcases rest with ⟨same, dropped⟩ | found
  · have missing := dropped_none inv done dropped
    rw [same, missing.1, missing.2]
    exact ⟨(fun _ absurd => by cases absurd), fun _ => Or.inl rfl⟩
  · obtain ⟨slot, greentry, -, -, used, named, switched⟩ := found
    obtain ⟨-, records⟩ := @switch_records { mid with greentry := greentry } message info choice slot
      ⟨inv'.wf, inv'.opened⟩ used
    have held : mid.record (addressed state key info) = some (mid.psess.tuple slot) := by
      rw [← named]
      exact record_slot inv'.wf used
    have own := records (addressed state key info)
    rw [if_pos named.symm] at own
    rw [switched, own]
    refine ⟨fun session before => ?_, fun before => ?_⟩
    · have same := there session before
      rw [held] at same
      rw [Option.some.inj same]
    · rcases absent before with none | ⟨sets, create, made⟩
      · cases held.symm.trans none
      · rw [held] at made
        rw [Option.some.inj made]
        have stays : ¬released (fresh key create message info choice) info := by
          intro release
          exact absurd (sets.1.symm.trans release.1) (by decide)
        rw [if_neg stays]
        exact Or.inr ⟨sets, create, rfl⟩

/-- The key of the session that a message is for. -/
def Message.session (state : State) (message : Message) : Option PsessKey :=
  message.info.bind fun info =>
    if info.bA11 then
      (servingPCF message).map fun uiServingPCF => addressed state ⟨uiServingPCF, info.dwKey⟩ info
    else none

theorem message_records (inv : Inv state) : Inv (ProcA11 state message choice).2 ∧
    ∀ name, message.session state ≠ some name →
      (ProcA11 state message choice).2.record name = state.record name := by
  rw [ProcA11, Message.session]
  cases message.info with
  | none => exact ⟨inv, fun _ _ => rfl⟩
  | some info =>
      dsimp only
      split
      · next known =>
          cases servingPCF message with
          | none => exact ⟨inv, fun _ _ => rfl⟩
          | some uiServingPCF =>
              obtain ⟨after, records⟩ := @proc_records state
                ⟨uiServingPCF, info.dwKey⟩ message info choice inv
              refine ⟨after, fun name other => records name ?_⟩
              intro same
              apply other
              rw [Option.bind_some, if_pos known, Option.map_some, same]
      · exact ⟨inv, fun _ _ => rfl⟩

end Procedure

section Runs

variable {state : State}

theorem outcome_opened {turn : Call × Visit} {session : Session} (held : outcome turn = some session) :
    session.RegA11 = turn.2.session.RegA11 := by
  rw [outcome] at held
  split at held
  · rw [Visit.advanced] at held
    split at held
    · cases held
    · rw [← Option.some.inj held]
      rfl
    · split at held
      · rw [← Option.some.inj held]
        rfl
      · cases held
  · rw [← Option.some.inj held]

/-- A call of the timer leaves records of before, apart from their flags. -/
theorem timer_inv (call : Call) (inv : Inv state) (begun : state.first.rank < lastKey.rank) :
    Inv (RP_CheckTimer state call).1 ∧ (RP_CheckTimer state call).1.first.rank < lastKey.rank := by
  obtain ⟨high, part, -⟩ := @call_part call state inv.wf begun
  refine ⟨⟨part.wf, fun name session held => ?_⟩, ?_⟩
  · by_cases visited : ∃ turn ∈ (RP_CheckTimer state call).2.map (Prod.mk call), turns.key turn = name
    · obtain ⟨turn, member, rfl⟩ := visited
      have done := part.swept.done turn member
      rw [held] at done
      have same := outcome_opened done.symm
      rw [same]
      exact inv.opened _ _ (part.swept.held turn member)
    · have kept := part.swept.kept name fun turn member same => visited ⟨turn, member, same⟩
      rw [kept] at held
      exact inv.opened name session held
  · rcases part.ends with ⟨first, -⟩ | ⟨there, upper⟩
    · rw [first]
      decide
    · rw [there]
      exact upper

theorem recall_inv (key : PsessKey) (inv : Inv state) :
    Inv (recallPSESS state key) ∧ (recallPSESS state key).first = state.first := by
  rw [recallPSESS]
  cases found : Search_PSESS state.psess key with
  | none => exact ⟨inv, rfl⟩
  | some slot =>
      have used := (search_some found).1
      dsimp only
      split
      · exact ⟨inv.put used rfl (inv.single used), rfl⟩
      · exact ⟨inv, rfl⟩

theorem switch_first {slot : Nat} {message : Message} {info : InfoA11} {choice : Choice} :
    (switchMsg state slot message info choice).first = state.first := by
  have cleared (state : State) : (clearPair state slot).first = state.first := by
    rw [clearPair]
    split <;> rfl
  have reply (state : State) : (replyEnd state slot info choice).first = state.first := by
    simp only [replyEnd]
    rw [cleared]
    split_ifs
    · rfl
    · rfl
    · exact remove_first
    · rfl
  simp only [switchMsg]
  split_ifs
  · rfl
  · exact reply _
  all_goals rfl

theorem message_first {message : Message} {choice : Choice} (inv : Inv state) :
    (ProcA11 state message choice).2.first = state.first := by
  rw [ProcA11]
  split
  · rfl
  · next info _ =>
      split
      · split
        · rfl
        · next uiServingPCF _ =>
            obtain ⟨ret, mid, done, rest⟩ := proc_cases ⟨uiServingPCF, info.dwKey⟩ message info choice inv
            have same : mid.first = state.first := by
              cases done <;> rfl
            rcases rest with ⟨dropped, -⟩ | ⟨slot, greentry, -, -, -, -, switched⟩
            · rw [dropped, same]
            · rw [switched, switch_first]
              exact same
      · rfl

/-- What every reachable state satisfies. -/
structure Live (state : State) : Prop extends Inv state where
  begun : state.first.rank < lastKey.rank

theorem started_live (started : Started state) : Live state where
  wf := started.wf
  opened key session held := (started.borders key session held).2
  begun := by
    rw [started.first]
    decide

theorem step_live (event : Event) (live : Live state) : Live (step state event) := by
  cases event with
  | message message choice =>
      refine ⟨(message_records live.toInv).1, ?_⟩
      have first := @message_first state message choice live.toInv
      rw [step, first]
      exact live.begun
  | checkTimer call =>
      obtain ⟨inv, begun⟩ := timer_inv call live.toInv live.begun
      exact ⟨inv, begun⟩
  | recallPSESS key =>
      obtain ⟨inv, first⟩ := recall_inv key live.toInv
      refine ⟨inv, ?_⟩
      rw [step, first]
      exact live.begun

theorem run_snoc (start : State) (front : List Event) (event : Event) :
    run start (front ++ [event]) = step (run start front) event := by
  rw [run, run, List.foldl_append, List.foldl_cons, List.foldl_nil]

/-- A run with what is kept beside it. -/
def beside {α : Type} (next : State → α → Event → α) (start : State) (first : α) (events : List Event) :
    State × α :=
  events.foldl (fun pair event => (step pair.1 event, next pair.1 pair.2 event)) (start, first)

theorem beside_snoc {α : Type} (next : State → α → Event → α) (start : State) (first : α) (front : List Event)
    (event : Event) : beside next start first (front ++ [event]) =
      (step (beside next start first front).1 event,
        next (beside next start first front).1 (beside next start first front).2 event) := by
  rw [beside, List.foldl_append, List.foldl_cons, List.foldl_nil]
  rfl

theorem beside_run {α : Type} (next : State → α → Event → α) (start : State) (first : α) (events : List Event) :
    (beside next start first events).1 = run start events := by
  induction events using List.reverseRecOn with
  | nil => rfl
  | append_singleton events event ih => rw [beside_snoc, ih, run_snoc]

/-- Each event, behind those in front of it. -/
def EachStep (events : List Event) (condition : List Event → Event → Prop) : Prop :=
  ∀ front event, front ++ [event] <+: events → condition front event

instance (events : List Event) (condition : List Event → Event → Prop)
    [∀ front event, Decidable (condition front event)] : Decidable (EachStep events condition) :=
  decidable_of_iff (∀ count : Fin events.length, condition (events.take count) (events.get count))
    (by
      constructor
      · rintro all front event ⟨rest, rfl⟩
        have short : front.length < (front ++ [event] ++ rest).length := by
          simp only [List.length_append, List.length_singleton]
          omega
        have here := all ⟨front.length, short⟩
        simpa only [List.append_assoc, List.take_left, List.get_eq_getElem, List.singleton_append,
          List.getElem_append_right (Nat.le_refl _), Nat.sub_self, List.getElem_cons_zero] using here
      · intro each count
        apply each
        rw [List.get_eq_getElem, List.take_append_getElem]
        exact List.take_prefix _ _)

theorem run_live (events : List Event) (live : Live state) : Live (run state events) := by
  induction events generalizing state with
  | nil => exact live
  | cons event events ih => exact ih (step_live event live)

/-- The state behind the start, with the slots from 2 on free. -/
def startState (free : List Nat) : State where
  psess :=
    { tuple := fun slot => Session.zero (if slot = 0 then firstKey else lastKey)
      used := [1, 0]
      free := free }
  greentry := { tuple := fun _ => ⟨⟨0, 0⟩, 0⟩, used := [], free := [] }
  callhash := fun _ => none
  first := firstKey
  checkTime := 0

theorem start_started {free : List Nat} (nodup : ([1, 0] ++ free).Nodup) (room : free ≠ []) :
    Started (startState free) := by
  have keys : ∀ slot ∈ [1, 0], ∀ other ∈ [1, 0], (if slot = 0 then firstKey else lastKey) =
      (if other = 0 then firstKey else lastKey) → slot = other := by decide +kernel
  have opened : StA11Info.zero.ucFlag ≠ DEF_A11_PAIR := by decide
  have wf : Wf Session.key (startState free).psess := ⟨nodup, keys, room⟩
  refine ⟨wf, fun key session held => ?_, fun _ => rfl, rfl, rfl⟩
  obtain ⟨slot, used, rfl, rfl⟩ := (record_eq_some wf).mp held
  rcases List.mem_cons.mp used with rfl | first
  · exact ⟨Or.inr rfl, opened⟩
  · obtain rfl := List.mem_singleton.mp first
    exact ⟨Or.inl rfl, opened⟩

/-- A message between the PCF 1 and the PDSN 9 at a time in seconds. -/
def a11Message (bRtxType : Rtx) (ucMsg : UInt8) (usLifetime : UInt16) (ucAirlinkType : UInt8) (dwKey : UInt32)
    (szMDN : List UInt8) (seconds : Nat) : Message where
  bRtxType := bRtxType
  dwSrcIP := if bRtxType = .client then 1 else 9
  dwDestIP := if bRtxType = .client then 9 else 1
  time := ⟨seconds, 0⟩
  info :=
    some
      { bA11 := true
        ucMsg := ucMsg
        ucCode := DEF_A11_REG_ACCT
        usLifetime := usLifetime
        dwKey := dwKey
        dwServiceOption := 33
        szMDN := szMDN
        dwForwardMux := 0
        dwReverseMux := 0
        ucHomeAgentAddr := 0
        dwUpdateReason := 0
        ucAirlinkType := ucAirlinkType
        ucApplicationType := 0
        szSublink := []
        AlwaysOn := 0
        dwKeyEntry := [] }

def simpleChoice (psess : Option Nat) : Choice where
  psess := psess
  greentry := fun _ => none
  added := true
  trace := []

/-- A message changes no session but the one that it addresses. -/
theorem message_frame {start : State} (started : Started start) (events : List Event) (message : Message)
    (choice : Choice) (name : PsessKey) (other : message.session (run start events) ≠ some name) :
    (ProcA11 (run start events) message choice).2.record name = (run start events).record name :=
  (message_records (run_live events (started_live started)).toInv).2 name other

/-- Two sessions, the first of which has stopped. -/
def stoppedEvents : List Event :=
  [Event.message (a11Message .client DEF_A11_REG_REQ 1 ACTIVE_START 1 [49] 10) (simpleChoice none),
    Event.message (a11Message .client DEF_A11_REG_REQ 1 ACTIVE_START 2 [50] 11) (simpleChoice none),
    Event.message (a11Message .client DEF_A11_REG_REQ 1 ACTIVE_STOP 1 [49] 12) (simpleChoice none)]

/-- The reply that releases the first session, while the second one moves into its slot. -/
theorem moved_session_kept :
    (ProcA11 (run (startState [2, 3, 4]) stoppedEvents)
      (a11Message .server DEF_A11_REG_REP 0 0 1 [] 13) (simpleChoice (some 3))).2.record ⟨1, 2⟩ =
        (run (startState [2, 3, 4]) stoppedEvents).record ⟨1, 2⟩ :=
  message_frame (start_started (by decide) (by decide)) stoppedEvents _ _ _ (by decide +kernel)

end Runs

end Upst.Arp
