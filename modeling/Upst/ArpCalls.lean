import Upst.ArpFrame
import Mathlib.Data.List.Induction

/-!
The call hash of `A_RP`: an entry names a PCF with a session of its subscriber. A removal keeps this. A
registration does not where it has changed the hash and the session then finds no room, and where it
writes another number over that of a session whose entry stays.
-/

namespace Upst.Arp

open Psess Slots Sweeping Tcp

set_option autoImplicit false

section Backed

/-- The session of the key is one of the subscriber at the PCF. -/
def Names (state : State) (llIMSI : Int) (uiPCFIP : UInt32) (key : PsessKey) : Prop :=
  ∃ session, state.record key = some session ∧ atoll session.szMIN = llIMSI ∧ key.uiServingPCF = uiPCFIP

/-- Every entry of the hash has a session of its subscriber at its PCF. -/
def Backed (state : State) : Prop :=
  ∀ llIMSI data, state.callhash llIMSI = some data → ∃ key, Names state llIMSI data.uiPCFIP key

variable {state : State} {slot : Nat} {session : Session}

theorem names_put (wf : Wf Session.key state.psess) (used : slot ∈ state.psess.used)
    (same : session.key = (state.psess.tuple slot).key) {llIMSI : Int} {uiPCFIP : UInt32} {key : PsessKey}
    (other : key ≠ (state.psess.tuple slot).key) :
    Names (state.put slot session) llIMSI uiPCFIP key ↔ Names state llIMSI uiPCFIP key := by
  rw [Names, Names, put_record wf used same, same, if_neg other]

theorem names_slot (wf : Wf Session.key state.psess) (used : slot ∈ state.psess.used) {llIMSI : Int}
    {uiPCFIP : UInt32} : Names state llIMSI uiPCFIP (state.psess.tuple slot).key ↔
      atoll (state.psess.tuple slot).szMIN = llIMSI ∧
        (state.psess.tuple slot).key.uiServingPCF = uiPCFIP := by
  rw [Names, State.record, record_slot wf used]
  constructor
  · intro named
    obtain ⟨session, found, holds⟩ := named
    obtain rfl := Option.some.inj found
    exact holds
  · intro holds
    exact ⟨_, rfl, holds⟩

theorem names_own (wf : Wf Session.key state.psess) (used : slot ∈ state.psess.used)
    (same : session.key = (state.psess.tuple slot).key) {llIMSI : Int} {uiPCFIP : UInt32} :
    Names (state.put slot session) llIMSI uiPCFIP (state.psess.tuple slot).key ↔
      atoll session.szMIN = llIMSI ∧ (state.psess.tuple slot).key.uiServingPCF = uiPCFIP := by
  have whole := @names_slot (state.put slot session) slot (put_wf wf same) used llIMSI uiPCFIP
  rw [put_own, same] at whole
  exact whole

theorem our_iff {session : Session} : ourCall state session = true ↔
    ∃ data, state.callhash (atoll session.szMIN) = some data ∧
      data.uiPCFIP = session.key.uiServingPCF := by
  rw [ourCall, decide_eq_true_iff, Option.map_eq_some_iff]

/-- A session that keeps its subscriber. -/
theorem backed_named (wf : Wf Session.key state.psess) (used : slot ∈ state.psess.used)
    (named : Named (state.psess.tuple slot) session) :
    Backed (state.put slot session) ↔ Backed state := by
  have names (llIMSI : Int) (uiPCFIP : UInt32) (key : PsessKey) :
      Names (state.put slot session) llIMSI uiPCFIP key ↔ Names state llIMSI uiPCFIP key := by
    by_cases own : key = (state.psess.tuple slot).key
    · subst own
      rw [names_own wf used named.key, names_slot wf used, named.szMIN]
    · exact names_put wf used named.key own
  constructor
  · intro backed llIMSI data entry
    obtain ⟨key, holds⟩ := backed llIMSI data entry
    exact ⟨key, (names _ _ _).mp holds⟩
  · intro backed llIMSI data entry
    obtain ⟨key, holds⟩ := backed llIMSI data entry
    exact ⟨key, (names _ _ _).mpr holds⟩

/-- A session that gets another number leaves its entry behind, if no other session is there for it. -/
theorem backed_renumbered (wf : Wf Session.key state.psess) (used : slot ∈ state.psess.used)
    (same : session.key = (state.psess.tuple slot).key) (backed : Backed state) :
    Backed (state.put slot session) ↔ atoll session.szMIN = atoll (state.psess.tuple slot).szMIN ∨
      ourCall state (state.psess.tuple slot) = false ∨
        ∃ other ≠ (state.psess.tuple slot).key, Names state (atoll (state.psess.tuple slot).szMIN)
          (state.psess.tuple slot).key.uiServingPCF other := by
  constructor
  · intro after
    by_cases ours : ourCall state (state.psess.tuple slot) = true
    · obtain ⟨data, entry, pcf⟩ := our_iff.mp ours
      obtain ⟨key, holds⟩ := after _ data entry
      rw [pcf] at holds
      by_cases own : key = (state.psess.tuple slot).key
      · subst own
        exact Or.inl ((names_own wf used same).mp holds).1
      · exact Or.inr (Or.inr ⟨key, own, (names_put wf used same own).mp holds⟩)
    · exact Or.inr (Or.inl (Bool.eq_false_of_not_eq_true ours))
  · intro keeps llIMSI data entry
    obtain ⟨key, holds⟩ := backed llIMSI data entry
    by_cases own : key = (state.psess.tuple slot).key
    · subst own
      obtain ⟨number, pcf⟩ := (names_slot wf used).mp holds
      rcases keeps with renumbered | foreign | ⟨other, apart, there⟩
      · exact ⟨_, (names_own wf used same).mpr ⟨renumbered.trans number, pcf⟩⟩
      · have ours : ourCall state (state.psess.tuple slot) = true := by
          refine our_iff.mpr ⟨data, ?_, pcf.symm⟩
          rw [number]
          exact entry
        exact absurd ours (Bool.not_eq_true _ ▸ foreign)
      · rw [number, pcf] at there
        exact ⟨other, (names_put wf used same apart).mpr there⟩
    · exact ⟨key, (names_put wf used same own).mpr holds⟩

/-- A removal takes the entry along that the session stands for. -/
theorem removal_backed {after : State} (wf : Wf Session.key state.psess) (used : slot ∈ state.psess.used)
    (record : ∀ name, after.record name =
      if name = (state.psess.tuple slot).key then none else state.record name)
    (callhash : after.callhash =
      if ourCall state (state.psess.tuple slot) then
        Function.update state.callhash (atoll (state.psess.tuple slot).szMIN) none
      else state.callhash)
    (backed : Backed state) : Backed after := by
  intro llIMSI data entry
  have stays : state.callhash llIMSI = some data ∧
      ¬(atoll (state.psess.tuple slot).szMIN = llIMSI ∧
        (state.psess.tuple slot).key.uiServingPCF = data.uiPCFIP) := by
    rw [callhash] at entry
    split at entry
    · by_cases own : llIMSI = atoll (state.psess.tuple slot).szMIN
      · rw [own, Function.update_self] at entry
        exact nomatch entry
      · rw [Function.update_of_ne own] at entry
        exact ⟨entry, fun both => own both.1.symm⟩
    · next foreign =>
        refine ⟨entry, fun both => foreign ?_⟩
        refine our_iff.mpr ⟨data, ?_, both.2.symm⟩
        rw [both.1]
        exact entry
  obtain ⟨key, holds⟩ := backed llIMSI data stays.1
  have apart : key ≠ (state.psess.tuple slot).key := by
    rintro rfl
    exact stays.2 ((names_slot wf used).mp holds)
  refine ⟨key, ?_⟩
  rw [Names, record, if_neg apart]
  exact holds

end Backed

section Timer

variable {state : State} {slot : Nat} {choice : Choice} {call : Call}

theorem remove_backed (choice : Choice) (wf : Wf Session.key state.psess) (used : slot ∈ state.psess.used)
    (backed : Backed state) : Backed (RemoveA10 state slot choice).2 := by
  have removal := remove_spec choice wf used
  exact removal_backed wf used removal.record removal.callhash backed

theorem time_out_backed (wf : Wf Session.key state.psess) (used : slot ∈ state.psess.used)
    (backed : Backed state) : Backed (timeOut state slot choice).2 := by
  have named : Named (state.psess.tuple slot) (callNormal (state.psess.tuple slot)) := ⟨rfl, rfl⟩
  have normal := (backed_named wf used named).mpr backed
  have removed := remove_backed choice (put_wf wf named.key) used normal
  simp only [timeOut]
  split
  · exact normal
  · split
    · exact removed
    · exact removed
    · refine (backed_named wf used ?_).mpr backed
      exact ⟨rfl, rfl⟩

theorem turn_backed (wf : Wf Session.key state.psess) (used : slot ∈ state.psess.used)
    (backed : Backed state) : Backed (turn call choice state slot).2 := by
  simp only [turn]
  split
  · exact @time_out_backed { state with first := (state.psess.tuple slot).key } slot choice wf used backed
  · exact backed

theorem loop_backed (call : Call) (count : Nat) (state : State) (wf : Wf Session.key state.psess)
    (backed : Backed state) : Backed (checkLoop call count state).1 := by
  induction count generalizing state with
  | zero => exact backed
  | succ count ih =>
      cases found : Select_PSESS state.psess state.first lastKey with
      | none =>
          rw [checkLoop, found]
          exact backed
      | some slot =>
          have used := (select_some found).1
          have here := @turn_backed state slot (call.choices count) call wf used backed
          rw [loop_step found]
          split
          · exact here
          · exact ih _ (turn_spec wf used).1 here

theorem recall_backed (key : PsessKey) (wf : Wf Session.key state.psess) (backed : Backed state) :
    Backed (recallPSESS state key) := by
  rw [recallPSESS]
  cases found : Search_PSESS state.psess key with
  | none => exact backed
  | some slot =>
      dsimp only
      split
      · refine (backed_named wf (search_some found).1 ?_).mpr backed
        exact ⟨rfl, rfl⟩
      · exact backed

end Timer

section Register

/-- A new session stands for the entry of the hash: it finds room and gets the number of the entry, or the
hash got none, or another session is there for it. A known one keeps its subscriber, or has no entry, or
leaves another session for it. -/
def Consistent (state : State) (key : PsessKey) (info : InfoA11) (choice : Choice) : Prop :=
  match Search_PSESS state.psess key with
  | none =>
      2 ≤ state.psess.free.length ∧ atoll (minText info.szMDN choice.trace) = atoll info.szMDN ∨
        state.callhash (atoll info.szMDN) = none ∧ choice.added = false ∨
          ∃ other, Names state (atoll info.szMDN) key.uiServingPCF other
  | some slot =>
      regiRetry (state.psess.tuple slot) info ∨
        atoll (minText info.szMDN choice.trace) = atoll (state.psess.tuple slot).szMIN ∨
          ourCall state (state.psess.tuple slot) = false ∨
            ∃ other ≠ key, Names state (atoll (state.psess.tuple slot).szMIN) key.uiServingPCF other

variable {state : State} {key : PsessKey} {message : Message} {info : InfoA11} {choice : Choice}

theorem registered_text {session : Session} (again : ¬regiRetry session info) :
    (registered session message info choice).szMIN = minText info.szMDN choice.trace := by
  rw [registered, if_neg again]
  rfl

/-- The entries of the hash that a new session finds or adds. -/
theorem entry_cases {llIMSI : Int} {data : CallData}
    (entry : (hashEntry state key message info choice).2 llIMSI = some data) :
    (llIMSI ≠ atoll info.szMDN ∧ state.callhash llIMSI = some data) ∨
      llIMSI = atoll info.szMDN ∧ data.uiPCFIP = key.uiServingPCF := by
  rw [hashEntry, callEntry] at entry
  by_cases own : llIMSI = atoll info.szMDN
  · subst own
    refine Or.inr ⟨rfl, ?_⟩
    split at entry
    · next missing =>
        dsimp only at entry
        split at entry
        · rw [Function.update_self] at entry
          rw [← Option.some.inj entry]
        · rw [missing] at entry
          exact nomatch entry
    · dsimp only at entry
      rw [Function.update_self] at entry
      rw [← Option.some.inj entry]
  · refine Or.inl ⟨own, ?_⟩
    split at entry
    · dsimp only at entry
      split at entry
      · rw [Function.update_of_ne own] at entry
        exact entry
      · exact entry
    · dsimp only at entry
      rw [Function.update_of_ne own] at entry
      exact entry

/-- The subscriber of a new session has an entry at its PCF, unless the hash has no room for it. -/
theorem entry_own (key : PsessKey) (message : Message)
    (held : ¬(state.callhash (atoll info.szMDN) = none ∧ choice.added = false)) :
    ∃ data, (hashEntry state key message info choice).2 (atoll info.szMDN) = some data ∧
      data.uiPCFIP = key.uiServingPCF := by
  rw [hashEntry, callEntry]
  split
  · next missing =>
      have added : choice.added = true := Bool.eq_true_of_not_eq_false fun full => held ⟨missing, full⟩
      rw [if_pos added]
      exact ⟨_, Function.update_self _ _ _, rfl⟩
  · exact ⟨_, Function.update_self _ _ _, rfl⟩

theorem entry_missing (missing : state.callhash (atoll info.szMDN) = none) (full : choice.added = false) :
    (hashEntry state key message info choice).2 = state.callhash := by
  rw [hashEntry, callEntry, missing]
  simp only [full]
  rfl

/-- The hash behind a new registration is right if the subscriber has no entry or a session at the PCF. -/
theorem entry_backed {mid : State} (callhash : mid.callhash = (hashEntry state key message info choice).2)
    (kept : ∀ llIMSI uiPCFIP name, Names state llIMSI uiPCFIP name → Names mid llIMSI uiPCFIP name)
    (backed : Backed state) : Backed mid ↔
      state.callhash (atoll info.szMDN) = none ∧ choice.added = false ∨
        ∃ name, Names mid (atoll info.szMDN) key.uiServingPCF name := by
  constructor
  · intro after
    by_cases missing : state.callhash (atoll info.szMDN) = none ∧ choice.added = false
    · exact Or.inl missing
    · obtain ⟨data, entry, pcf⟩ := entry_own key message missing
      rw [← callhash] at entry
      rw [← pcf]
      exact Or.inr (after _ data entry)
  · intro holds llIMSI data entry
    rw [callhash] at entry
    rcases holds with ⟨missing, full⟩ | named
    · rw [entry_missing missing full] at entry
      obtain ⟨name, there⟩ := backed llIMSI data entry
      exact ⟨name, kept _ _ _ there⟩
    · rcases entry_cases entry with ⟨-, before⟩ | ⟨rfl, pcf⟩
      · obtain ⟨name, there⟩ := backed llIMSI data before
        exact ⟨name, kept _ _ _ there⟩
      · rw [pcf]
        exact named

/-- The sessions of a subscriber behind an insertion. -/
theorem names_inserted {mid : State} (missing : state.record key = none)
    (records : ∀ name, mid.record name =
      if name = key then some (fresh key (hashEntry state key message info choice).1 message info choice)
      else state.record name) (llIMSI : Int) (uiPCFIP : UInt32) (name : PsessKey) :
    Names mid llIMSI uiPCFIP name ↔ Names state llIMSI uiPCFIP name ∨
      name = key ∧ atoll (minText info.szMDN choice.trace) = llIMSI ∧ key.uiServingPCF = uiPCFIP := by
  rw [Names, Names, records]
  by_cases own : name = key
  · subst own
    rw [if_pos rfl, missing]
    constructor
    · intro named
      obtain ⟨session, held, holds⟩ := named
      obtain rfl := Option.some.inj held
      exact Or.inr ⟨rfl, holds⟩
    · rintro (⟨session, held, -⟩ | ⟨-, holds⟩)
      · exact nomatch held
      · exact ⟨_, rfl, holds⟩
  · rw [if_neg own]
    exact ⟨Or.inl, fun named => named.resolve_right fun both => own both.1⟩

theorem registration_backed {ret : Int} {mid : State} (inv : Inv state) (backed : Backed state)
    (done : Registration state key message info choice ret mid) :
    Backed mid ↔ (setsUp info → Consistent state key info choice) := by
  cases done with
  | idle other => exact iff_of_true backed fun sets => absurd sets other
  | known sets slot found ret fine =>
      obtain ⟨used, named⟩ := search_some found
      have same := @registered_key message info choice (state.psess.tuple slot)
      rw [Consistent, found, imp_iff_right sets]
      dsimp only
      by_cases retry : regiRetry (state.psess.tuple slot) info
      · refine iff_of_true ((backed_named inv.wf used ?_).mpr backed) (Or.inl retry)
        rw [registered, if_pos retry]
        exact ⟨rfl, rfl⟩
      · rw [backed_renumbered inv.wf used same backed, registered_text retry, named, or_iff_right retry]
  | refused sets unknown full =>
      have noRoom : ¬2 ≤ state.psess.free.length := Nat.not_le.mpr full
      have whole := @entry_backed state key message info choice
        { state with callhash := (hashEntry state key message info choice).2 } rfl (fun _ _ _ named => named) backed
      rw [Consistent, unknown, imp_iff_right sets]
      exact whole.trans (or_iff_right fun both => noRoom both.1).symm
  | inserted sets slot table room into =>
      have unknown : Search_PSESS state.psess key = none := into.unknown
      have missing := unknown_record unknown
      let mid : State :=
        { state with
          callhash := (hashEntry state key message info choice).2
          psess := table }
      have records (name : PsessKey) : mid.record name =
          if name = key then some (fresh key (hashEntry state key message info choice).1 message info choice)
          else state.record name := into.record inv.wf name
      have names (llIMSI : Int) (uiPCFIP : UInt32) (name : PsessKey) :=
        @names_inserted state key message info choice mid missing records llIMSI uiPCFIP name
      have whole := @entry_backed state key message info choice mid rfl
        (fun _ _ _ named => (names _ _ _).mpr (Or.inl named)) backed
      rw [Consistent, unknown, imp_iff_right sets]
      refine whole.trans ?_
      constructor
      · rintro (added | ⟨name, named⟩)
        · exact Or.inr (Or.inl added)
        · rcases (names _ _ _).mp named with there | ⟨-, number, -⟩
          · exact Or.inr (Or.inr ⟨name, there⟩)
          · exact Or.inl ⟨room, number⟩
      · rintro (⟨-, number⟩ | added | ⟨name, there⟩)
        · exact Or.inr ⟨key, (names _ _ _).mpr (Or.inr ⟨rfl, number, rfl⟩)⟩
        · exact Or.inl added
        · exact Or.inr ⟨name, (names _ _ _).mpr (Or.inl there)⟩

end Register

section Runs

variable {state : State} {message : Message} {choice : Choice}

/-- The condition of a step: that a registration is consistent with the hash. -/
def Keeps (state : State) : Event → Prop
  | .message message choice =>
      ∀ info uiServingPCF, message.info = some info → info.bA11 = true →
        servingPCF message = some uiServingPCF → setsUp info →
          Consistent state ⟨uiServingPCF, info.dwKey⟩ info choice
  | .checkTimer _ => True
  | .recallPSESS _ => True

theorem proc_backed {key : PsessKey} {info : InfoA11} (inv : Inv state) (backed : Backed state) :
    Backed (procKey state key message info choice).2 ↔ (setsUp info → Consistent state key info choice) := by
  obtain ⟨ret, mid, done, rest⟩ := proc_cases key message info choice inv
  have whole := registration_backed inv backed done
  have inv' := done.inv inv
  rcases rest with ⟨same, -⟩ | found
  · rw [same]
    exact whole
  · obtain ⟨slot, greentry, -, -, used, -, same⟩ := found
    let mid' := { mid with greentry := greentry }
    rw [same]
    by_cases release : released (mid'.psess.tuple slot) info
    · have other : ¬setsUp info := fun sets => sets_not_released sets release
      obtain ⟨-, callhash, records⟩ := @switch_released mid' slot info message choice
        ⟨inv'.wf, inv'.opened⟩ used release
      have before : Backed mid' := whole.mpr fun sets => absurd sets other
      exact iff_of_true (removal_backed inv'.wf used records callhash before) fun sets => absurd sets other
    · rw [switch_kept message info release]
      exact (@backed_named mid' _ _ inv'.wf used (handled_named _ message info)).trans whole

/-- A step keeps the hash backed under its condition and not else. -/
theorem step_backed_iff (event : Event) (live : Live state) (backed : Backed state) :
    Backed (step state event) ↔ Keeps state event := by
  cases event with
  | message message choice =>
      rw [step, ProcA11]
      cases known : message.info with
      | none => exact iff_of_true backed fun info _ same => by cases known.symm.trans same
      | some info =>
          dsimp only
          split
          · next bA11 =>
              cases pcf : servingPCF message with
              | none => exact iff_of_true backed fun _ _ _ _ same => by cases pcf.symm.trans same
              | some uiServingPCF =>
                  refine (proc_backed live.toInv backed).trans ?_
                  constructor
                  · intro consistent other place same _ serving sets
                    obtain rfl := Option.some.inj (known.symm.trans same)
                    obtain rfl := Option.some.inj (pcf.symm.trans serving)
                    exact consistent sets
                  · intro keeps sets
                    exact keeps info uiServingPCF known bA11 pcf sets
          · next foreign =>
              refine iff_of_true backed fun other _ same bA11 => ?_
              obtain rfl := Option.some.inj (known.symm.trans same)
              exact absurd bA11 foreign
  | checkTimer call => exact iff_of_true (loop_backed call 50 state live.wf backed) trivial
  | recallPSESS key => exact iff_of_true (recall_backed key live.wf backed) trivial

/-- The hash holds the calls that are going on. -/
structure HashSound (state : State) : Prop where
  backed : Backed state
  /-- No entry outlives the last session of its subscriber. -/
  last : ∀ llIMSI, (∀ key session, state.record key = some session → atoll session.szMIN ≠ llIMSI) →
    state.callhash llIMSI = none
  /-- Without a session of the subscriber a new call gets its own create time. -/
  create : ∀ key message info choice,
    (∀ name session, state.record name = some session → atoll session.szMIN ≠ atoll info.szMDN) →
      (hashEntry state key message info choice).1 = message.time

theorem hash_sound_iff_backed : HashSound state ↔ Backed state := by
  refine ⟨HashSound.backed, fun backed => ?_⟩
  have last (llIMSI : Int)
      (gone : ∀ key session, state.record key = some session → atoll session.szMIN ≠ llIMSI) :
      state.callhash llIMSI = none := by
    cases entry : state.callhash llIMSI with
    | none => rfl
    | some data =>
        obtain ⟨key, session, held, number, -⟩ := backed llIMSI data entry
        exact absurd number (gone key session held)
  refine ⟨backed, last, fun key message info choice gone => ?_⟩
  rw [hashEntry, callEntry, last _ gone]

/-- The hash is sound in every state of a run if and only if each of its steps meets its condition. -/
theorem hash_sound_run_iff {start : State} (started : Started start) (events : List Event) :
    (∀ front, front <+: events → HashSound (run start front)) ↔
      ∀ front event, front ++ [event] <+: events → Keeps (run start front) event := by
  have live (front : List Event) : Live (run start front) := run_live front (started_live started)
  constructor
  · intro sound front event inside
    have before := (sound front ((List.prefix_append front [event]).trans inside)).backed
    have after := (sound _ inside).backed
    rw [run_snoc] at after
    exact (step_backed_iff event (live front) before).mp after
  · intro keeps front
    induction front using List.reverseRecOn with
    | nil =>
        intro _
        refine hash_sound_iff_backed.mpr fun llIMSI data entry => ?_
        exact nomatch (started.callhash llIMSI).symm.trans entry
    | append_singleton front event ih =>
        intro inside
        have before := (ih ((List.prefix_append front [event]).trans inside)).backed
        rw [run_snoc]
        exact hash_sound_iff_backed.mpr
          ((step_backed_iff event (live front) before).mpr (keeps front event inside))

/-- A registration of the session of the key 1 under a number of one digit. -/
def registerEvent (digit : UInt8) (seconds : Nat) : Event :=
  Event.message (a11Message .client DEF_A11_REG_REQ 1 ACTIVE_START 1 [digit] seconds) (simpleChoice none)

/-- A condition at every step of a run is one at its first step and at every later one. -/
theorem keeps_cons {start : State} {event : Event} {events : List Event} (first : Keeps start event)
    (rest : ∀ front next, front ++ [next] <+: events → Keeps (run (step start event) front) next) :
    ∀ front next, front ++ [next] <+: event :: events → Keeps (run start front) next := by
  intro front next inside
  cases front with
  | nil =>
      obtain rfl := (List.cons_prefix_cons.mp inside).1
      exact first
  | cons other front =>
      obtain ⟨rfl, behind⟩ := List.cons_prefix_cons.mp inside
      exact rest front next behind

theorem keeps_known (key : PsessKey) {info : InfoA11} (known : message.info = some info)
    (serving : servingPCF message = some key.uiServingPCF) (named : info.dwKey = key.uiKey)
    (consistent : setsUp info → Consistent state key info choice) : Keeps state (.message message choice) := by
  intro other uiServingPCF same _ pcf sets
  obtain rfl := Option.some.inj (known.symm.trans same)
  obtain rfl := Option.some.inj (serving.symm.trans pcf)
  rw [named]
  exact consistent sets

/-- A new session of a number that is kept whole, with room for it. -/
theorem consistent_new {key : PsessKey} {info : InfoA11} (unknown : Search_PSESS state.psess key = none)
    (room : 2 ≤ state.psess.free.length ∧ atoll (minText info.szMDN choice.trace) = atoll info.szMDN) :
    Consistent state key info choice := by
  rw [Consistent, unknown]
  exact Or.inl room

/-- The keys 1 and 2 are registered under the number 1, the key 1 goes to the number 2, the subscriber 1 comes
to the PCF 2 under the key 3, and the key 2 is released, its slot taken by the key 3. -/
def handOverEvents : List Event :=
  [registerEvent 49 10,
    Event.message (a11Message .client DEF_A11_REG_REQ 1 ACTIVE_START 2 [49] 11) (simpleChoice none),
    registerEvent 50 12,
    Event.message { a11Message .client DEF_A11_REG_REQ 1 ACTIVE_START 3 [49] 13 with dwSrcIP := 2 }
      (simpleChoice none),
    Event.message (a11Message .client DEF_A11_REG_REQ 1 ACTIVE_STOP 2 [49] 14) (simpleChoice none),
    Event.message (a11Message .server DEF_A11_REG_REP 0 0 2 [] 15) (simpleChoice (some 4))]

theorem hand_over_sound : HashSound (run (startState [2, 3, 4, 5]) handOverEvents) ∧
    (run (startState [2, 3, 4, 5]) handOverEvents).record ⟨1, 2⟩ = none ∧
    ((run (startState [2, 3, 4, 5]) handOverEvents).record ⟨1, 1⟩).map Session.szMIN = some [50] ∧
    (run (startState [2, 3, 4, 5]) handOverEvents).callhash 1 = some ⟨2, ⟨10, 0⟩⟩ := by
  have started : Started (startState [2, 3, 4, 5]) := start_started (by decide) (by decide)
  refine ⟨(hash_sound_run_iff started handOverEvents).mpr ?_ _ (List.prefix_refl _), by decide +kernel,
    by decide +kernel, by decide +kernel⟩
  apply keeps_cons
  · exact keeps_known ⟨1, 1⟩ rfl rfl rfl fun _ => consistent_new (by decide +kernel) (by decide +kernel)
  apply keeps_cons
  · exact keeps_known ⟨1, 2⟩ rfl rfl rfl fun _ => consistent_new (by decide +kernel) (by decide +kernel)
  apply keeps_cons
  · -- The key 2 still has the number that the key 1 gives up.
    refine keeps_known ⟨1, 1⟩ rfl rfl rfl fun _ => ?_
    let state := run (startState [2, 3, 4, 5]) (handOverEvents.take 2)
    have known : Search_PSESS state.psess ⟨1, 1⟩ = some 2 := by decide +kernel
    have number : atoll (state.psess.tuple 2).szMIN = 1 := by decide +kernel
    have held : (state.record ⟨1, 2⟩).map (fun session => atoll session.szMIN) = some 1 := by decide +kernel
    obtain ⟨session, found, same⟩ := Option.map_eq_some_iff.mp held
    show Consistent state ⟨1, 1⟩ _ _
    rw [Consistent, known]
    dsimp only
    rw [number]
    exact Or.inr (Or.inr (Or.inr ⟨⟨1, 2⟩, by decide, session, found, same, rfl⟩))
  apply keeps_cons
  · exact keeps_known ⟨2, 3⟩ rfl rfl rfl fun _ => consistent_new (by decide +kernel) (by decide +kernel)
  apply keeps_cons
  · exact keeps_known ⟨1, 2⟩ rfl rfl rfl fun sets => absurd sets (by decide)
  apply keeps_cons
  · exact keeps_known ⟨1, 2⟩ rfl rfl rfl fun sets => absurd sets (by decide)
  intro front next inside
  exact absurd (List.prefix_nil.mp inside) (List.append_ne_nil_of_right_ne_nil front (List.cons_ne_nil next []))

/-- An entry without a session: behind a registration under another number, and behind one that finds no
room for its session. -/
theorem call_outlives_session :
    Started (startState [2, 3, 4]) ∧
      ¬HashSound (run (startState [2, 3, 4]) [registerEvent 49 10, registerEvent 50 20]) ∧
      Started (startState [2]) ∧ ¬HashSound (run (startState [2]) [registerEvent 49 10]) := by
  have outlived {start : State} (started : Started start) (events : List Event)
      (entry : (run start events).callhash 1 ≠ none)
      (others : ∀ slot ∈ (run start events).psess.used, atoll ((run start events).psess.tuple slot).szMIN ≠ 1) :
      ¬HashSound (run start events) := by
    intro sound
    refine entry (sound.last 1 fun key session held => ?_)
    obtain ⟨slot, used, rfl, -⟩ := (record_eq_some (run_live events (started_live started)).wf).mp held
    exact others slot used
  have wide : Started (startState [2, 3, 4]) := start_started (by decide) (by decide)
  have narrow : Started (startState [2]) := start_started (by decide) (by decide)
  exact ⟨wide, outlived wide _ (by decide +kernel) (by decide +kernel), narrow,
    outlived narrow _ (by decide +kernel) (by decide +kernel)⟩

end Runs

end Upst.Arp
