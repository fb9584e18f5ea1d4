import Upst.TimernRun

/-!
When timers run by the clock of the wall. `timerN_invoke` leaves the wheel one second ahead of the
second it is called in, and that second is the one `timerN_add` and `timerN_update` compare with.
-/

namespace Upst.Timern

open Word Hashg Deadlines Refine Interleave

set_option autoImplicit false

section Scripts

/-- A deadline that is not ahead of the wheel is not ahead of the second `t` either. -/
def Script.Prompt (t now : Int) : Script → Prop
  | .done => True
  | .add _ timeout _ callback rest =>
      (timeout ≤ now → timeout ≤ t ∧ callback.Prompt t now) ∧ rest.Prompt t now
  | .del _ rest => rest.Prompt t now
  | .update _ timeout callback rest =>
      (timeout ≤ now → timeout ≤ t ∧ callback.Prompt t now) ∧ rest.Prompt t now

/-- What the call reports is prompt, and the wheel does not turn. -/
def AnswersPrompt (t : Int) (info info' : TimernInfo) (events : List TimerEvent) : Prop :=
  (∀ event ∈ events, event.Prompt t) ∧ info'.uiCurrentTime = info.uiCurrentTime

variable {t now timeout : Int} {info info' : TimernInfo} {events : List TimerEvent}
  {invoke : TimernInfo → Option (TimernInfo × List TimerEvent)}

/-- The callback is prompt in the second of the wheel. -/
def InvokesPrompt (t now : Int) (invoke : TimernInfo → Option (TimernInfo × List TimerEvent)) : Prop :=
  ∀ info info' events, info.uiCurrentTime = now → invoke info = some (info', events) →
    AnswersPrompt t info info' events

theorem add_prompt {data : TimernData} {malloc : List Nat → Option Nat} {ret : Option TimernKey}
    (own : timeout ≤ info.uiCurrentTime → timeout ≤ t ∧ InvokesPrompt t info.uiCurrentTime invoke)
    (ran : timernAdd info data timeout malloc invoke = some (ret, info', events)) :
    AnswersPrompt t info info' events := by
  unfold timernAdd at ran
  split at ran
  · next passed =>
      obtain ⟨⟨info₁, events₁⟩, callback, ran⟩ := Option.bind_eq_some_iff.mp ran
      cases ran
      obtain ⟨due, prompt⟩ := own passed
      obtain ⟨events', time⟩ := prompt info info' events₁ rfl callback
      refine ⟨?_, time⟩
      intro event member
      rcases List.mem_cons.mp member with rfl | later
      · exact due
      · exact events' event later
  · dsimp only at ran
    obtain ⟨latest, -, ran⟩ := Option.bind_eq_some_iff.mp ran
    split at ran
    · obtain ⟨⟨place, hash⟩, -, ran⟩ := Option.bind_eq_some_iff.mp ran
      cases place with
      | none =>
          cases ran
          exact ⟨by simp [Event.Prompt], rfl⟩
      | some p =>
          cases ran
          exact ⟨by simp [Event.Prompt], rfl⟩
    · cases ran
      exact ⟨by simp [Event.Prompt], rfl⟩

theorem del_prompt {timerNid : TimernKey} (ran : timernDel info timerNid = some (info', events)) :
    AnswersPrompt t info info' events := by
  obtain ⟨found, -, ran⟩ := Option.bind_eq_some_iff.mp ran
  cases found with
  | none =>
      cases ran
      exact ⟨by simp, rfl⟩
  | some p =>
      obtain ⟨hash, -, ran⟩ := Option.bind_eq_some_iff.mp ran
      cases ran
      exact ⟨by simp [Event.Prompt], rfl⟩

theorem update_prompt {timerNid : TimernKey} {ret : Option TimernKey}
    (own : timeout ≤ info.uiCurrentTime → timeout ≤ t ∧ InvokesPrompt t info.uiCurrentTime invoke)
    (ran : timernUpdate info timerNid timeout invoke = some (ret, info', events)) :
    AnswersPrompt t info info' events := by
  obtain ⟨found, -, ran⟩ := Option.bind_eq_some_iff.mp ran
  cases found with
  | none =>
      cases ran
      exact ⟨by simp, rfl⟩
  | some p =>
      obtain ⟨hash, -, ran⟩ := Option.bind_eq_some_iff.mp ran
      dsimp only at ran
      split at ran
      · next passed =>
          obtain ⟨⟨info₁, events₁⟩, node, ran⟩ := Option.bind_eq_some_iff.mp ran
          cases ran
          obtain ⟨due, prompt⟩ := own passed
          obtain ⟨hash', -, node⟩ := Option.bind_eq_some_iff.mp node
          obtain ⟨⟨info₂, events₂⟩, callback, node⟩ := Option.bind_eq_some_iff.mp node
          obtain ⟨hash'', -, node⟩ := Option.bind_eq_some_iff.mp node
          cases node
          obtain ⟨events', time⟩ := prompt _ _ _ (by rfl) callback
          refine ⟨?_, time⟩
          intro event member
          rcases List.mem_cons.mp member with rfl | later
          · exact due
          · exact events' event later
      · obtain ⟨latest, -, ran⟩ := Option.bind_eq_some_iff.mp ran
        split at ran
        · obtain ⟨hash', -, ran⟩ := Option.bind_eq_some_iff.mp ran
          obtain ⟨hash'', -, ran⟩ := Option.bind_eq_some_iff.mp ran
          cases ran
          exact ⟨by simp [Event.Prompt], rfl⟩
        · cases ran
          exact ⟨by simp, rfl⟩

/-- One call after the other. -/
theorem prompt_then {info₁ info₂ : TimernInfo} {events₁ events₂ : List TimerEvent}
    (first : AnswersPrompt t info info₁ events₁) (second : AnswersPrompt t info₁ info₂ events₂) :
    AnswersPrompt t info info₂ (events₁ ++ events₂) := by
  refine ⟨?_, second.2.trans first.2⟩
  intro event member
  rcases List.mem_append.mp member with before | later
  · exact first.1 event before
  · exact second.1 event later

theorem script_prompt (script : Script) : script.Prompt t now →
    InvokesPrompt t now (runScript script) := by
  induction script with
  | done =>
      intro _ info info' events _ ran
      cases ran
      exact ⟨by simp, rfl⟩
  | add data timeout malloc callback rest callbackPrompt restPrompt =>
      intro prompt info info' events time ran
      obtain ⟨own, others⟩ := prompt
      obtain ⟨⟨ret, info₁, events₁⟩, call, ran⟩ := Option.bind_eq_some_iff.mp ran
      obtain ⟨⟨info₂, events₂⟩, later, ran⟩ := Option.bind_eq_some_iff.mp ran
      cases ran
      have first : AnswersPrompt t info info₁ events₁ := by
        apply add_prompt _ call
        rw [time]
        exact fun passed => ⟨(own passed).1, callbackPrompt (own passed).2⟩
      exact prompt_then first (restPrompt others _ _ _ (first.2.trans time) later)
  | del timerNid rest restPrompt =>
      intro prompt info info' events time ran
      obtain ⟨⟨info₁, events₁⟩, call, ran⟩ := Option.bind_eq_some_iff.mp ran
      obtain ⟨⟨info₂, events₂⟩, later, ran⟩ := Option.bind_eq_some_iff.mp ran
      cases ran
      have first : AnswersPrompt t info info₁ events₁ := del_prompt call
      exact prompt_then first (restPrompt prompt _ _ _ (first.2.trans time) later)
  | update timerNid timeout callback rest callbackPrompt restPrompt =>
      intro prompt info info' events time ran
      obtain ⟨own, others⟩ := prompt
      obtain ⟨⟨ret, info₁, events₁⟩, call, ran⟩ := Option.bind_eq_some_iff.mp ran
      obtain ⟨⟨info₂, events₂⟩, later, ran⟩ := Option.bind_eq_some_iff.mp ran
      cases ran
      have first : AnswersPrompt t info info₁ events₁ := by
        apply update_prompt _ call
        rw [time]
        exact fun passed => ⟨(own passed).1, callbackPrompt (own passed).2⟩
      exact prompt_then first (restPrompt others _ _ _ (first.2.trans time) later)

end Scripts

section Walls

/-- What the program does at a second of the wall clock: calls of its own, or `timerN_invoke`. -/
inductive Turn where
  | calls (t : Int) (script : Script)
  | invoke (t : Int) (callbacks : Int → Nat → Script)

def Turn.second : Turn → Int
  | .calls t _ => t
  | .invoke t _ => t

def Turn.call : Turn → Call
  | .calls _ script => .script script
  | .invoke t callbacks => .invoke t callbacks

/-- What each turn reports is due by its second. -/
def NeverEarly (agenda : Agenda Nat TimernData) : List Turn → List (List TimerEvent) → Prop
  | turn :: turns, events :: answers =>
      AllDue turn.second agenda events ∧ NeverEarly (agenda.afterAll events) turns answers
  | _, _ => True

/-- A deadline that is not ahead of the wheel has passed, and no timer is updated to a deadline
beyond the window; the clock of `int` is more than a day away from its end. -/
def Turn.Ok (now : Int) : Turn → Prop
  | .calls t script => script.Orderly now ∧ script.Prompt t now
  | .invoke t callbacks =>
      0 ≤ t ∧ t + 1 + N_DAY < 2 ^ 31 ∧ ∀ time turn, (callbacks time turn).Orderly time

/-- Every turn is as asked where the program takes it. -/
def TurnsOk : TimernInfo → List Turn → Prop :=
  Meets (fun info turn => (info.step turn.call).map Prod.snd) fun info turn =>
    turn.Ok info.uiCurrentTime

variable {info : TimernInfo} {agenda : Agenda Nat TimernData} {live : List Nat}

theorem turn_due (keeps : Keeps info agenda live) {turn : Turn} (ok : turn.Ok info.uiCurrentTime) :
    ∃ events info' live', info.step turn.call = some (events, info') ∧
      AllDue turn.second agenda events ∧ Keeps info' (agenda.afterAll events) live' := by
  cases turn with
  | calls t script =>
      obtain ⟨orderly, prompt⟩ := ok
      obtain ⟨info', events, live', ran, timely, kept, -⟩ := script_reaches script keeps orderly
      have due := (script_prompt script prompt info info' events rfl ran).1
      refine ⟨events, info', live', ?_, prompt_due due, kept⟩
      rw [Turn.call, TimernInfo.step, ran]
      rfl
  | invoke t callbacks =>
      obtain ⟨early, late, orderly⟩ := ok
      obtain ⟨info', events, live', ran, timely, due, kept, -⟩ :=
        invoke_reaches keeps orderly early late
      refine ⟨events, info', live', ?_, due, kept⟩
      rw [Turn.call, TimernInfo.step, ran]
      rfl

theorem turns_due {turns : List Turn} : ∀ {info : TimernInfo} {agenda : Agenda Nat TimernData}
    {live : List Nat}, Keeps info agenda live → TurnsOk info turns →
      ∃ answers final, replay TimernInfo.step info (turns.map Turn.call) = some (answers, final) ∧
        NeverEarly agenda turns answers := by
  induction turns with
  | nil => exact fun _ _ => ⟨[], _, rfl, trivial⟩
  | cons turn rest ih =>
      intro info agenda live keeps ok
      obtain ⟨events, info₁, live₁, ran, due, keeps₁⟩ := turn_due keeps ok.1
      have others : TurnsOk info₁ rest := ok.2 info₁ (congrArg (Option.map Prod.snd) ran)
      obtain ⟨answers, final, later, early⟩ := ih keeps₁ others
      refine ⟨events :: answers, final, ?_, due, early⟩
      rw [List.map_cons, replay, ran]
      simp only [Option.bind_eq_bind, Option.bind_some, later]

/-- In a run whose turns are as asked, no timer runs before the second of its deadline. -/
theorem timers_never_early {clock : Int} (early : 0 ≤ clock) (late : clock + N_DAY < 2 ^ 31)
    (heap : Nat → HashgNode TimernKey TimernData) {turns : List Turn}
    (ok : TurnsOk (timernInit clock heap) turns) :
    ∃ answers final, replay TimernInfo.step (timernInit clock heap) (turns.map Turn.call) =
        some (answers, final) ∧ NeverEarly (start clock) turns answers :=
  turns_due (init_keeps early late heap) ok

/-- A timer is added ahead of the wheel, and one beyond the window, which is refused. -/
theorem timers_never_early_pass :
    ∃ answers final, replay TimernInfo.step (timernInit 100 blankHeap)
        ([.calls 100 (.add ⟨7, []⟩ 102 nextBlock .done (.add ⟨8, []⟩ 200000 nextBlock .done .done)),
          .invoke 102 fun _ _ => .done].map Turn.call) = some (answers, final) ∧
      NeverEarly (start 100)
        [.calls 100 (.add ⟨7, []⟩ 102 nextBlock .done (.add ⟨8, []⟩ 200000 nextBlock .done .done)),
          .invoke 102 fun _ _ => .done] answers := by
  apply timers_never_early
  · decide
  · decide
  · refine ⟨⟨⟨next_block_fresh, fun _ => trivial, next_block_fresh, fun _ => trivial, trivial⟩, ?_⟩, ?_⟩
    · exact ⟨fun passed => absurd passed (by decide), fun passed => absurd passed (by decide), trivial⟩
    · intro info _
      exact ⟨⟨by decide, by decide, fun _ _ => trivial⟩, fun _ _ => trivial⟩

/-- After a pass at the second 100 the wheel is at 101, and a timer for 101 runs at once. -/
theorem early_by_a_second :
    (replay TimernInfo.step (timernInit 100 blankHeap)
        ([.invoke 100 fun _ _ => .done, .calls 100 (.add ⟨7, []⟩ 101 nextBlock .done .done)].map
          Turn.call)).map Prod.fst = some [[.second], [.ranAtOnce 101 ⟨7, []⟩]] ∧
      ¬NeverEarly (start 100)
        [.invoke 100 fun _ _ => .done, .calls 100 (.add ⟨7, []⟩ 101 nextBlock .done .done)]
        [[.second], [.ranAtOnce 101 ⟨7, []⟩]] := by
  refine ⟨by decide +kernel, ?_⟩
  rintro ⟨-, ⟨due, -⟩, -⟩
  have passed : (101 : Int) ≤ 100 := due
  exact absurd passed (by decide)

end Walls

end Upst.Timern
