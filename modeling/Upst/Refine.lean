import Mathlib.Data.Option.Basic

/-!
Sequences of calls to a component and to its specification. A component that answers every
single call as the specification does, and stays related to it, answers every sequence of
calls so. The calls may be under a condition that the specification's state decides.
-/

namespace Upst.Refine

set_option autoImplicit false

variable {State Spec Call Answer : Type}

/-- The answers of a sequence of calls, and the state after it. -/
def replay (next : State → Call → Option (Answer × State)) :
    State → List Call → Option (List Answer × State)
  | state, [] => some ([], state)
  | state, call :: rest => do
      let (answer, state) ← next state call
      let (answers, state) ← replay next state rest
      some (answer :: answers, state)

def specReplay (next : Spec → Call → Answer × Spec) : Spec → List Call → List Answer × Spec
  | spec, [] => ([], spec)
  | spec, call :: rest =>
      let (answer, spec) := next spec call
      let (answers, spec) := specReplay next spec rest
      (answer :: answers, spec)

/-- Every call of the sequence meets the condition where the specification takes it. -/
def Along (next : Spec → Call → Answer × Spec) (cond : Spec → Call → Prop) : Spec → List Call → Prop
  | _, [] => True
  | spec, call :: rest => cond spec call ∧ Along next cond (next spec call).2 rest

instance decidableAlong (next : Spec → Call → Answer × Spec) (cond : Spec → Call → Prop)
    [∀ spec call, Decidable (cond spec call)] :
    ∀ spec calls, Decidable (Along next cond spec calls)
  | _, [] => isTrue trivial
  | spec, call :: rest =>
      have := decidableAlong next cond (next spec call).2 rest
      inferInstanceAs (Decidable (cond spec call ∧ Along next cond (next spec call).2 rest))

theorem along_all {next : Spec → Call → Answer × Spec} {cond : Call → Prop} {calls : List Call}
    (all : ∀ call ∈ calls, cond call) (spec : Spec) :
    Along next (fun _ call => cond call) spec calls := by
  induction calls generalizing spec with
  | nil => trivial
  | cons call rest ih =>
      exact ⟨all call List.mem_cons_self, ih (fun other member => all other (.tail _ member)) _⟩

theorem along_and {next : Spec → Call → Answer × Spec} {cond cond' : Spec → Call → Prop}
    {spec : Spec} {calls : List Call} (along : Along next cond spec calls)
    (along' : Along next cond' spec calls) :
    Along next (fun spec call => cond spec call ∧ cond' spec call) spec calls := by
  induction calls generalizing spec with
  | nil => trivial
  | cons call rest ih => exact ⟨⟨along.1, along'.1⟩, ih along.2 along'.2⟩

/-- One call keeps the relation, with the answer of the specification. -/
def Simulates (next : State → Call → Option (Answer × State)) (specNext : Spec → Call → Answer × Spec)
    (cond : Spec → Call → Prop) (rel : State → Spec → Prop) : Prop :=
  ∀ state spec call, rel state spec → cond spec call → ∃ after,
    next state call = some ((specNext spec call).1, after) ∧ rel after (specNext spec call).2

theorem Simulates.replay {next : State → Call → Option (Answer × State)}
    {specNext : Spec → Call → Answer × Spec} {cond : Spec → Call → Prop} {rel : State → Spec → Prop}
    (simulates : Simulates next specNext cond rel) {calls : List Call} {state : State} {spec : Spec}
    (related : rel state spec) (along : Along specNext cond spec calls) :
    ∃ final, Refine.replay next state calls = some ((specReplay specNext spec calls).1, final) ∧
      rel final (specReplay specNext spec calls).2 := by
  induction calls generalizing state spec with
  | nil => exact ⟨state, rfl, related⟩
  | cons call rest ih =>
      obtain ⟨after, stepped, kept⟩ := simulates state spec call related along.1
      obtain ⟨final, ran, finally_related⟩ := ih kept along.2
      refine ⟨final, ?_, finally_related⟩
      rw [Refine.replay, stepped]
      simp only [Option.bind_eq_bind, Option.bind_some, ran, specReplay]

end Upst.Refine
