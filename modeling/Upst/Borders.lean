import Mathlib.Data.List.Infix

/-!
Automata that look for a pattern letter by letter. Where every turn leads to the longest beginning of
the pattern that the text read so far ends with, the last state is reached first at the end of the
first occurrence.
-/

namespace Upst.Borders

set_option autoImplicit false

variable {α : Type}

section Longest

variable {pattern text : List α} {letter : α} {size : Nat}

/-- The text ends with so many letters of the pattern. -/
def Border (pattern text : List α) (size : Nat) : Prop :=
  size ≤ pattern.length ∧ pattern.take size <:+ text

def Longest (pattern text : List α) (size : Nat) : Prop :=
  Border pattern text size ∧ ∀ other ≤ pattern.length, Border pattern text other → other ≤ size

instance [DecidableEq α] (pattern text : List α) (size : Nat) : Decidable (Border pattern text size) :=
  inferInstanceAs (Decidable (_ ∧ _))

instance [DecidableEq α] (pattern text : List α) (size : Nat) : Decidable (Longest pattern text size) :=
  inferInstanceAs (Decidable (_ ∧ _))

theorem border_snoc (inside : size < pattern.length) :
    Border pattern (text ++ [letter]) (size + 1) ↔
      Border pattern text size ∧ pattern[size]? = some letter := by
  have last : pattern[size]? = some pattern[size] := List.getElem?_eq_getElem inside
  have parts : pattern.take (size + 1) = pattern.take size ++ [pattern[size]] := by
    rw [List.take_add_one, last]
    rfl
  constructor
  · rintro ⟨-, front, same⟩
    rw [parts, ← List.append_assoc] at same
    obtain ⟨front_same, letter_same⟩ := List.append_inj' same rfl
    refine ⟨⟨Nat.le_of_lt inside, front, front_same⟩, ?_⟩
    rw [last, (List.cons.inj letter_same).1]
  · rintro ⟨⟨-, front, same⟩, found⟩
    rw [last, Option.some.injEq] at found
    refine ⟨inside, front, ?_⟩
    rw [parts, ← List.append_assoc, same, found]

/-- What lies in front of the longest border does not matter for the next one. -/
theorem longest_snoc {next : Nat} (longest : Longest pattern text size)
    (step : Longest pattern (pattern.take size ++ [letter]) next) :
    Longest pattern (text ++ [letter]) next := by
  refine ⟨⟨step.1.1, step.1.2.trans ?_⟩, ?_⟩
  · obtain ⟨front, same⟩ := longest.1.2
    refine ⟨front, ?_⟩
    rw [← List.append_assoc, same]
  · intro other bound border
    cases other with
    | zero => exact Nat.zero_le _
    | succ shorter =>
        obtain ⟨before, found⟩ := (border_snoc bound).mp border
        have less : shorter ≤ size := longest.2 shorter before.1 before
        have width : (pattern.take shorter).length ≤ (pattern.take size).length := by
          rw [List.length_take, List.length_take]
          omega
        have inner : Border pattern (pattern.take size) shorter :=
          ⟨before.1, List.suffix_of_suffix_length_le before.2 longest.1.2 width⟩
        exact step.2 (shorter + 1) bound ((border_snoc bound).mpr ⟨inner, found⟩)

theorem longest_full (longest : Longest pattern text size) :
    pattern <:+ text ↔ pattern.length ≤ size := by
  constructor
  · intro ends
    refine longest.2 pattern.length (Nat.le_refl _) ⟨Nat.le_refl _, ?_⟩
    rwa [List.take_length]
  · intro full
    have ends := longest.1.2
    rwa [List.take_of_length_le full] at ends

theorem longest_nil (pattern : List α) : Longest pattern [] 0 := by
  refine ⟨⟨Nat.zero_le _, List.nil_suffix⟩, ?_⟩
  intro other bound border
  have none := List.length_eq_zero_iff.mpr (List.suffix_nil.mp border.2)
  rw [List.length_take, Nat.min_eq_left bound] at none
  exact Nat.le_of_eq none

end Longest

section Automaton

variable {State : Type} {pattern : List α} {level : State → Nat} {next : α → State → State}

/-- Every turn of a state that is not the last one leads to the longest border. -/
def Tracks (pattern : List α) (level : State → Nat) (next : α → State → State) : Prop :=
  ∀ state, level state < pattern.length → ∀ letter,
    Longest pattern (pattern.take (level state) ++ [letter]) (level (next letter state))

/-- The letters up to the one that leads to the last state. -/
def reach (goal : Nat) (level : State → Nat) (next : α → State → State) : State → List α → Option Nat
  | _, [] => none
  | state, letter :: rest =>
      if goal ≤ level (next letter state) then some 1
      else (reach goal level next (next letter state) rest).map (· + 1)

/-- The first occurrence ends with the letter in front of `place`; `read` came before the text. -/
def EndsFirst (pattern read text : List α) (place : Nat) : Prop :=
  (place ≤ text.length ∧ pattern <:+ read ++ text.take place) ∧
    ∀ before < place, ¬pattern <:+ read ++ text.take before

theorem ends_first_unique {read text : List α} {place other : Nat}
    (first : EndsFirst pattern read text place) (first' : EndsFirst pattern read text other) :
    place = other := by
  rcases Nat.lt_trichotomy place other with before | same | behind
  · exact absurd first.1.2 (first'.2 place before)
  · exact same
  · exact absurd first'.1.2 (first.2 other behind)

theorem ends_first_cons {read rest : List α} {letter : α} (going : ¬pattern <:+ read) (place : Nat) :
    EndsFirst pattern read (letter :: rest) (place + 1) ↔
      EndsFirst pattern (read ++ [letter]) rest place := by
  have here (count : Nat) : read ++ (letter :: rest).take (count + 1) =
      read ++ [letter] ++ rest.take count := by
    rw [List.take_succ_cons, List.append_assoc, List.singleton_append]
  constructor
  · rintro ⟨⟨inside, ends⟩, least⟩
    rw [here] at ends
    refine ⟨⟨Nat.le_of_succ_le_succ inside, ends⟩, fun before less early => ?_⟩
    rw [← here] at early
    exact least (before + 1) (Nat.succ_lt_succ less) early
  · rintro ⟨⟨inside, ends⟩, least⟩
    rw [← here] at ends
    refine ⟨⟨Nat.succ_le_succ inside, ends⟩, ?_⟩
    rintro (_ | before) less early
    · rw [List.take_zero, List.append_nil] at early
      exact going early
    · rw [here] at early
      exact least before (Nat.lt_of_succ_lt_succ less) early

theorem ends_first_here {read text : List α} (ends : pattern <:+ read) :
    EndsFirst pattern read text 0 := by
  refine ⟨⟨Nat.zero_le _, ?_⟩, fun before less => absurd less (Nat.not_lt_zero before)⟩
  rwa [List.take_zero, List.append_nil]

theorem reach_append {goal : Nat} (front back : List α) (state : State) :
    reach goal level next state (front ++ back) =
      (reach goal level next state front).or
        ((reach goal level next (front.foldl (fun state letter => next letter state) state) back).map
          (front.length + ·)) := by
  induction front generalizing state with
  | nil =>
      rw [List.nil_append, reach, Option.none_or, List.foldl_nil, List.length_nil]
      cases reach goal level next state back with
      | none => rfl
      | some count => exact congrArg some (Nat.zero_add count).symm
  | cons letter front ih =>
      rw [List.cons_append, reach, reach]
      split
      · rfl
      · rw [ih, List.foldl_cons, List.length_cons]
        cases reach goal level next (next letter state) front with
        | some count => rfl
        | none =>
            rw [Option.none_or, Option.map_none, Option.none_or, Option.map_map]
            congr 1
            funext count
            exact Nat.add_right_comm front.length count 1

theorem reach_going {goal : Nat} {state : State} (going : level state < goal) {text : List α}
    (none : reach goal level next state text = none) :
    level (text.foldl (fun state letter => next letter state) state) < goal := by
  induction text generalizing state with
  | nil => exact going
  | cons letter rest ih =>
      rw [reach] at none
      split at none
      · cases none
      · next more => exact ih (Nat.lt_of_not_le more) (Option.map_eq_none_iff.mp none)

theorem reach_least (tracks : Tracks pattern level next) {state : State} {read : List α}
    (longest : Longest pattern read (level state)) (going : level state < pattern.length)
    (text : List α) (place : Nat) :
    reach pattern.length level next state text = some place ↔ EndsFirst pattern read text place := by
  have before : ¬pattern <:+ read := fun ends =>
    Nat.not_lt.mpr ((longest_full longest).mp ends) going
  induction text generalizing state read place with
  | nil =>
      rw [reach]
      refine iff_of_false (fun none => nomatch none) ?_
      rintro ⟨⟨-, ends⟩, -⟩
      rw [List.take_nil, List.append_nil] at ends
      exact before ends
  | cons letter rest ih =>
      have step := longest_snoc longest (tracks state going letter)
      rw [reach]
      split
      · next full =>
          have first := (ends_first_cons before 0).mpr
            (@ends_first_here _ _ _ rest ((longest_full step).mpr full))
          rw [Option.some.injEq]
          exact ⟨fun same => same ▸ first, fun other => ends_first_unique first other⟩
      · next more =>
          have behind : ¬pattern <:+ read ++ [letter] := fun ends =>
            more ((longest_full step).mp ends)
          have later := fun count => ih step (Nat.lt_of_not_le more) count behind
          rw [Option.map_eq_some_iff]
          constructor
          · rintro ⟨count, found, rfl⟩
            exact (ends_first_cons before count).mpr ((later count).mp found)
          · intro first
            cases place with
            | zero =>
                have ends := first.1.2
                rw [List.take_zero, List.append_nil] at ends
                exact absurd ends before
            | succ count => exact ⟨count, (later count).mpr ((ends_first_cons before count).mp first), rfl⟩

theorem reach_first (tracks : Tracks pattern level next) (nonempty : pattern ≠ []) {state : State}
    (start : level state = 0) (text : List α) (place : Nat) :
    reach pattern.length level next state text = some place ↔ EndsFirst pattern [] text place := by
  have positive := List.length_pos_iff.mpr nonempty
  exact reach_least tracks (start ▸ longest_nil pattern) (start ▸ positive) text place

end Automaton

end Upst.Borders
