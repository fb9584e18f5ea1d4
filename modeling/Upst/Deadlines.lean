import Mathlib.Logic.Function.Basic
import Mathlib.Data.List.Count

/-!
What a timer service owes its users: a timer that was accepted runs once, in the second of
its latest deadline, unless it was deleted before. The service is seen through the events
it reports; an agenda follows them and says which may happen next.
-/

namespace Upst.Deadlines

set_option autoImplicit false

variable {Timer Data : Type}

inductive Event (Timer Data : Type) where
  | refused (data : Data)
  | ranAtOnce (deadline : Int) (data : Data)
  | accepted (timer : Timer) (deadline : Int) (data : Data)
  | moved (timer : Timer) (deadline : Int)
  | deleted (timer : Timer)
  | ran (timer : Timer) (data : Data)
  | ranLate (timer : Timer) (deadline : Int) (data : Data)
  | second
  deriving DecidableEq, Repr

/-- The data of the callback that the event runs. -/
def Event.invoked : Event Timer Data → Option Data
  | .ranAtOnce _ data => some data
  | .ran _ data => some data
  | .ranLate _ _ data => some data
  | _ => none

/-- The timers that wait, each with its latest deadline. -/
structure Agenda (Timer Data : Type) where
  now : Int
  pending : Timer → Option (Int × Data)

def start (now : Int) : Agenda Timer Data where
  now := now
  pending := fun _ => none

/-- A timer runs at its deadline and not before, or at once where the deadline it is given has
passed; a second ends when no timer is left that is due. -/
def Agenda.Allows (agenda : Agenda Timer Data) : Event Timer Data → Prop
  | .refused _ => True
  | .ranAtOnce deadline _ => deadline ≤ agenda.now
  | .accepted timer deadline _ => agenda.pending timer = none ∧ agenda.now < deadline
  | .moved timer deadline => agenda.pending timer ≠ none ∧ agenda.now < deadline
  | .deleted timer => agenda.pending timer ≠ none
  | .ran timer data => agenda.pending timer = some (agenda.now, data)
  | .ranLate timer deadline data =>
      (agenda.pending timer).map Prod.snd = some data ∧ deadline ≤ agenda.now
  | .second => ∀ timer deadline data, agenda.pending timer = some (deadline, data) →
      agenda.now < deadline

variable [DecidableEq Timer]

def Agenda.drop (agenda : Agenda Timer Data) (timer : Timer) : Agenda Timer Data :=
  { agenda with pending := Function.update agenda.pending timer none }

def Agenda.after (agenda : Agenda Timer Data) : Event Timer Data → Agenda Timer Data
  | .refused _ => agenda
  | .ranAtOnce _ _ => agenda
  | .accepted timer deadline data =>
      { agenda with pending := Function.update agenda.pending timer (some (deadline, data)) }
  | .moved timer deadline =>
      { agenda with
        pending := Function.update agenda.pending timer
          ((agenda.pending timer).map fun entry => (deadline, entry.2)) }
  | .deleted timer => agenda.drop timer
  | .ran timer _ => agenda.drop timer
  | .ranLate timer _ _ => agenda.drop timer
  | .second => { agenda with now := agenda.now + 1 }

def Agenda.afterAll (agenda : Agenda Timer Data) (events : List (Event Timer Data)) :
    Agenda Timer Data :=
  events.foldl Agenda.after agenda

/-- Every event is allowed where it happens. -/
def Timely (agenda : Agenda Timer Data) : List (Event Timer Data) → Prop
  | [] => True
  | event :: rest => agenda.Allows event ∧ Timely (agenda.after event) rest

theorem timely_append {agenda : Agenda Timer Data} {first second : List (Event Timer Data)}
    (before : Timely agenda first) (later : Timely (agenda.afterAll first) second) :
    Timely agenda (first ++ second) := by
  induction first generalizing agenda with
  | nil => exact later
  | cons event rest ih => exact ⟨before.1, ih before.2 later⟩

theorem after_all_append (agenda : Agenda Timer Data) (first second : List (Event Timer Data)) :
    agenda.afterAll (first ++ second) = (agenda.afterAll first).afterAll second :=
  List.foldl_append

section Count

/-- The event begins the wait of a timer. -/
def Event.begins (timer : Timer) : Event Timer Data → Bool
  | .accepted other _ _ => other = timer
  | _ => false

/-- The event ends the wait of a timer, and runs it unless it deletes it. -/
def Event.ends (timer : Timer) : Event Timer Data → Bool
  | .deleted other => other = timer
  | .ran other _ => other = timer
  | .ranLate other _ _ => other = timer
  | _ => false

def Agenda.waits (agenda : Agenda Timer Data) (timer : Timer) : Nat :=
  if agenda.pending timer = none then 0 else 1

theorem drop_waits (agenda : Agenda Timer Data) (other timer : Timer) :
    (agenda.drop other).waits timer = if other = timer then 0 else agenda.waits timer := by
  by_cases same : other = timer
  · simp [Agenda.waits, Agenda.drop, same]
  · simp [Agenda.waits, Agenda.drop, same, Ne.symm same]

theorem event_count {agenda : Agenda Timer Data} {event : Event Timer Data}
    (allowed : agenda.Allows event) (timer : Timer) :
    agenda.waits timer + (if event.begins timer then 1 else 0) =
      (if event.ends timer then 1 else 0) + (agenda.after event).waits timer := by
  -- an event that ends the wait of a timer finds it waiting
  have ending (other : Timer) (waiting : agenda.pending other ≠ none) :
      agenda.waits timer = (if other = timer then 1 else 0) + (agenda.drop other).waits timer := by
    rw [drop_waits]
    by_cases same : other = timer
    · subst same
      simp [Agenda.waits, waiting]
    · simp [same]
  cases event with
  | refused data => simp [Event.begins, Event.ends, Agenda.after]
  | ranAtOnce deadline data => simp [Event.begins, Event.ends, Agenda.after]
  | accepted other deadline data =>
      by_cases same : other = timer
      · subst same
        simp [Event.begins, Event.ends, Agenda.after, Agenda.waits, allowed.1]
      · simp [Event.begins, Event.ends, Agenda.after, Agenda.waits, same, Ne.symm same]
  | moved other deadline =>
      by_cases same : other = timer
      · subst same
        simp [Event.begins, Event.ends, Agenda.after, Agenda.waits]
      · simp [Event.begins, Event.ends, Agenda.after, Agenda.waits, Ne.symm same]
  | deleted other => simpa [Event.begins, Event.ends, Agenda.after] using ending other allowed
  | ran other data =>
      have waiting : agenda.pending other ≠ none := by
        rw [show agenda.pending other = some (agenda.now, data) from allowed]
        exact Option.some_ne_none _
      simpa [Event.begins, Event.ends, Agenda.after] using ending other waiting
  | ranLate other deadline data =>
      have waiting : agenda.pending other ≠ none := by
        intro nothing
        have known := allowed.1
        rw [nothing] at known
        cases known
      simpa [Event.begins, Event.ends, Agenda.after] using ending other waiting
  | second => exact Nat.add_comm (agenda.waits timer) 0

/-- As often as a timer was accepted it was run or deleted, but for one that still waits. -/
theorem timely_count {agenda : Agenda Timer Data} {events : List (Event Timer Data)}
    (timely : Timely agenda events) (timer : Timer) :
    agenda.waits timer + events.countP (Event.begins timer) =
      events.countP (Event.ends timer) + (agenda.afterAll events).waits timer := by
  induction events generalizing agenda with
  | nil => simp [Agenda.afterAll]
  | cons event rest ih =>
      have here := event_count timely.1 timer
      have later := ih timely.2
      rw [List.countP_cons, List.countP_cons]
      have whole : agenda.afterAll (event :: rest) = (agenda.after event).afterAll rest := rfl
      rw [whole]
      omega

end Count

section Due

/-- A timer that runs has its deadline no later than the second `t`. -/
def Agenda.Due (agenda : Agenda Timer Data) (t : Int) : Event Timer Data → Prop
  | .ranAtOnce deadline _ => deadline ≤ t
  | .ran timer data => ∃ deadline, agenda.pending timer = some (deadline, data) ∧ deadline ≤ t
  | .ranLate _ deadline _ => deadline ≤ t
  | _ => True

def AllDue (t : Int) (agenda : Agenda Timer Data) : List (Event Timer Data) → Prop
  | [] => True
  | event :: rest => agenda.Due t event ∧ AllDue t (agenda.after event) rest

theorem all_due_append {t : Int} {agenda : Agenda Timer Data}
    {first second : List (Event Timer Data)} (before : AllDue t agenda first)
    (later : AllDue t (agenda.afterAll first) second) : AllDue t agenda (first ++ second) := by
  induction first generalizing agenda with
  | nil => exact later
  | cons event rest ih => exact ⟨before.1, ih before.2 later⟩

theorem after_now (agenda : Agenda Timer Data) (event : Event Timer Data) :
    agenda.now ≤ (agenda.after event).now := by
  cases event with
  | second => exact Int.le_add_of_nonneg_right (by decide)
  | refused | ranAtOnce | accepted | moved | deleted | ran | ranLate => exact Int.le_refl _

theorem after_all_now (events : List (Event Timer Data)) :
    ∀ agenda : Agenda Timer Data, agenda.now ≤ (agenda.afterAll events).now := by
  induction events with
  | nil => exact fun agenda => Int.le_refl _
  | cons event rest ih =>
      intro agenda
      exact Int.le_trans (after_now agenda event) (ih _)

/-- Until the agenda has passed the second, what happens in time is due by it. -/
theorem timely_due {t : Int} {events : List (Event Timer Data)} :
    ∀ {agenda : Agenda Timer Data}, Timely agenda events → (agenda.afterAll events).now ≤ t →
      AllDue t agenda events := by
  induction events with
  | nil => exact fun _ _ => trivial
  | cons event rest ih =>
      intro agenda timely reached
      have passed : agenda.now ≤ t := Int.le_trans (after_all_now (event :: rest) agenda) reached
      refine ⟨?_, ih timely.2 reached⟩
      have allowed := timely.1
      cases event with
      | ranAtOnce deadline data => exact Int.le_trans allowed passed
      | ran timer data => exact ⟨agenda.now, allowed, passed⟩
      | ranLate timer deadline data => exact Int.le_trans allowed.2 passed
      | refused | accepted | moved | deleted | second => trivial

/-- Only timers whose deadline has passed run, and they run in the call that says so. -/
def Event.Prompt (t : Int) : Event Timer Data → Prop
  | .ranAtOnce deadline _ => deadline ≤ t
  | .ran _ _ => False
  | .ranLate _ deadline _ => deadline ≤ t
  | _ => True

theorem prompt_due {t : Int} {events : List (Event Timer Data)} :
    ∀ {agenda : Agenda Timer Data}, (∀ event ∈ events, event.Prompt t) → AllDue t agenda events := by
  induction events with
  | nil => exact fun _ => trivial
  | cons event rest ih =>
      intro agenda prompt
      refine ⟨?_, ih fun other member => prompt other (List.mem_cons_of_mem _ member)⟩
      have own := prompt event List.mem_cons_self
      cases event with
      | ran timer data => exact own.elim
      | refused | ranAtOnce | accepted | moved | deleted | ranLate | second => exact own

end Due

end Upst.Deadlines
