import Mathlib.Logic.Function.Basic
import Mathlib.Data.Option.Basic

/-!
Runs of a system whose steps may be refused, and the users of binary semaphores. The
states, the steps, the users and the semaphores are parameters.
-/

namespace Upst.Interleave

set_option autoImplicit false

section Runs

variable {State Step : Type}

/-- The condition holds before every step that the run takes. -/
def Meets (next : State → Step → Option State) (cond : State → Step → Prop) :
    State → List Step → Prop
  | _, [] => True
  | state, step :: rest =>
      cond state step ∧ ∀ after, next state step = some after → Meets next cond after rest

theorem run_cons {next : State → Step → Option State} {state final : State} {step : Step}
    {rest : List Step} (run : (step :: rest).foldlM next state = some final) :
    ∃ after, next state step = some after ∧ rest.foldlM next after = some final := by
  rw [List.foldlM_cons] at run
  exact Option.bind_eq_some_iff.mp run

/-- What every step under the condition keeps, a run under the condition keeps. -/
theorem run_invariant {next : State → Step → Option State} {cond : State → Step → Prop}
    {inv : State → Prop}
    (keeps : ∀ state step after, cond state step → next state step = some after →
      inv state → inv after)
    {steps : List Step} {state final : State} (start : inv state)
    (meets : Meets next cond state steps) (run : steps.foldlM next state = some final) :
    inv final := by
  induction steps generalizing state with
  | nil =>
      cases run
      exact start
  | cons step rest ih =>
      obtain ⟨after, stepped, later⟩ := run_cons run
      exact ih (keeps state step after meets.1 stepped start) (meets.2 after stepped) later

/-- Where a step under the condition can be taken from a state with the invariant, and keeps it, a
run under the condition is complete. -/
theorem run_reaches {next : State → Step → Option State} {cond : State → Step → Prop}
    {inv : State → Prop}
    (keeps : ∀ state step, cond state step → inv state →
      ∃ after, next state step = some after ∧ inv after) {steps : List Step} :
    ∀ {state : State}, Meets next cond state steps → inv state →
      ∃ final, steps.foldlM next state = some final ∧ inv final := by
  induction steps with
  | nil => exact fun _ start => ⟨_, rfl, start⟩
  | cons step rest ih =>
      intro state meets start
      obtain ⟨after, stepped, kept⟩ := keeps state step meets.1 start
      rw [List.foldlM_cons, stepped]
      exact ih (meets.2 after stepped) kept

theorem meets_always (next : State → Step → Option State) (steps : List Step) :
    ∀ state, Meets next (fun _ _ => True) state steps := by
  induction steps with
  | nil => exact fun _ => trivial
  | cons step rest ih => exact fun _ => ⟨trivial, fun after _ => ih after⟩

/-- A run whose every step is taken from a state with the invariant, and keeps it, is complete. -/
theorem run_total {next : State → Step → Option State} {inv : State → Prop}
    (keeps : ∀ state step, inv state → ∃ after, next state step = some after ∧ inv after)
    (steps : List Step) {state : State} (start : inv state) :
    ∃ final, steps.foldlM next state = some final ∧ inv final :=
  run_reaches (fun state step _ => keeps state step) (meets_always next steps state) start

theorem meets_cons {next : State → Step → Option State} {cond : State → Step → Prop}
    {state after : State} {step : Step} {rest : List Step} (met : cond state step)
    (stepped : next state step = some after) (later : Meets next cond after rest) :
    Meets next cond state (step :: rest) := by
  refine ⟨met, ?_⟩
  intro other stepped'
  obtain rfl := Option.some.inj (stepped.symm.trans stepped')
  exact later

/-- The condition holds where a run of the steps before has come to. -/
theorem meets_at {next : State → Step → Option State} {cond : State → Step → Prop} {front back : List Step}
    {step : Step} {state middle : State} (meets : Meets next cond state (front ++ step :: back))
    (run : front.foldlM next state = some middle) : cond middle step := by
  induction front generalizing state with
  | nil =>
      obtain rfl := Option.some.inj run
      exact meets.1
  | cons first rest ih =>
      obtain ⟨after, stepped, later⟩ := run_cons run
      exact ih (meets.2 after stepped) later

theorem run_append {next : State → Step → Option State} {first second : List Step}
    {state middle final : State} (run : first.foldlM next state = some middle)
    (run' : second.foldlM next middle = some final) :
    (first ++ second).foldlM next state = some final := by
  rw [List.foldlM_append, run]
  exact run'

/-- The same step, taken again and again by nobody else in between. -/
def Turns (next : State → Step → Option State) (step : Step) (state final : State) : Prop :=
  ∃ turns, (List.replicate turns step).foldlM next state = some final

variable {next : State → Step → Option State} {step : Step} {state middle final : State}

theorem turns_none : Turns next step state state := ⟨0, rfl⟩

theorem turns_trans (first : Turns next step state middle) (second : Turns next step middle final) :
    Turns next step state final := by
  obtain ⟨turns, run⟩ := first
  obtain ⟨later, run'⟩ := second
  exact ⟨turns + later, by rw [← List.replicate_append_replicate]; exact run_append run run'⟩

theorem turns_cons (stepped : next state step = some middle) (rest : Turns next step middle final) :
    Turns next step state final := by
  obtain ⟨turns, run⟩ := rest
  exact ⟨turns + 1, by rw [List.replicate_succ, List.foldlM_cons, stepped]; exact run⟩

end Runs

section Semaphores

variable {User Sem : Type}

/-- A user that holds a semaphore has taken it, and is the only one that holds it. -/
structure Guarded (up : Sem → Bool) (holds : User → Option Sem) : Prop where
  taken : ∀ user sem, holds user = some sem → up sem = false
  single : ∀ user other sem, holds user = some sem → holds other = some sem → user = other

theorem guarded_nobody (up : Sem → Bool) : Guarded up fun _ : User => none :=
  ⟨by simp, by simp⟩

variable [DecidableEq User] [DecidableEq Sem]

theorem Guarded.acquire {up : Sem → Bool} {holds : User → Option Sem} (guarded : Guarded up holds)
    {sem : Sem} (free : up sem = true) (user : User) :
    Guarded (Function.update up sem false) (Function.update holds user (some sem)) := by
  have others : ∀ other, other ≠ user → ∀ held, holds other = some held → held ≠ sem := by
    rintro other - held holding rfl
    rw [guarded.taken other held holding] at free
    cases free
  constructor
  · intro other held holding
    by_cases own : other = user
    · subst own
      obtain rfl : sem = held := by simpa using holding
      simp
    · rw [Function.update_of_ne own] at holding
      rw [Function.update_of_ne (others other own held holding)]
      exact guarded.taken other held holding
  · intro first second held holding holding'
    by_cases own : first = user
    · by_cases own' : second = user
      · rw [own, own']
      · subst own
        obtain rfl : sem = held := by simpa using holding
        rw [Function.update_of_ne own'] at holding'
        exact absurd rfl (others second own' sem holding')
    · rw [Function.update_of_ne own] at holding
      by_cases own' : second = user
      · subst own'
        obtain rfl : sem = held := by simpa using holding'
        exact absurd rfl (others first own sem holding)
      · rw [Function.update_of_ne own'] at holding'
        exact guarded.single first second held holding holding'

theorem Guarded.release {up : Sem → Bool} {holds : User → Option Sem} (guarded : Guarded up holds)
    {sem : Sem} {user : User} (held : holds user = some sem) :
    Guarded (Function.update up sem true) (Function.update holds user none) := by
  have kept : ∀ other other_sem, Function.update holds user none other = some other_sem →
      other ≠ user ∧ holds other = some other_sem := by
    intro other other_sem holding
    by_cases own : other = user
    · subst own
      simp at holding
    · rw [Function.update_of_ne own] at holding
      exact ⟨own, holding⟩
  constructor
  · intro other other_sem holding
    obtain ⟨own, holding⟩ := kept other other_sem holding
    have distinct : other_sem ≠ sem := by
      rintro rfl
      exact own (guarded.single other user other_sem holding held)
    rw [Function.update_of_ne distinct]
    exact guarded.taken other other_sem holding
  · intro first second other_sem holding holding'
    exact guarded.single first second other_sem (kept first other_sem holding).2
      (kept second other_sem holding').2

end Semaphores

end Upst.Interleave
