import Mathlib.Data.List.Basic

/-!
A search that keeps one index into the pattern and goes back to its start on a letter that does not
match, without looking at that letter again. It finds an occurrence just when the letters in front
of it fall into failed attempts.
-/

namespace Upst.Matching

set_option autoImplicit false

variable {α : Type}

section Occurrences

variable {pattern text : List α}

def OccursAt (pattern text : List α) (place : Nat) : Prop :=
  place ≤ text.length ∧ pattern <+: text.drop place

def FirstAt (pattern text : List α) (place : Nat) : Prop :=
  OccursAt pattern text place ∧ ∀ before < place, ¬OccursAt pattern text before

/-- Each attempt is a proper prefix of the pattern and a letter that does not continue it. -/
inductive Attempts (pattern : List α) : List α → Prop where
  | none : Attempts pattern []
  | missed (matched : Nat) (letter : α) (rest : List α) : matched < pattern.length →
      pattern[matched]? ≠ some letter → Attempts pattern rest →
      Attempts pattern (pattern.take matched ++ letter :: rest)

theorem occurs_iff {place : Nat} : OccursAt pattern text place ↔
    ∃ front back, text = front ++ (pattern ++ back) ∧ front.length = place := by
  constructor
  · rintro ⟨inside, back, parts⟩
    refine ⟨text.take place, back, ?_, List.length_take_of_le inside⟩
    rw [parts, List.take_append_drop]
  · rintro ⟨front, back, rfl, rfl⟩
    refine ⟨by rw [List.length_append]; omega, back, ?_⟩
    rw [List.drop_left]

/-- Where the pattern occurs at all, it has a first occurrence. -/
theorem first_exists {place : Nat} (occurs : OccursAt pattern text place) :
    ∃ first, FirstAt pattern text first := by
  induction place using Nat.strongRecOn with
  | ind place earlier =>
      by_cases before : ∃ other < place, OccursAt pattern text other
      · obtain ⟨other, less, occurs⟩ := before
        exact earlier other less occurs
      · exact ⟨place, occurs, fun other less here => before ⟨other, less, here⟩⟩

end Occurrences

section Letters

variable {pattern : List α} {state : Nat}

theorem take_next {letter : α} (next : pattern[state]? = some letter) :
    pattern.take (state + 1) = pattern.take state ++ [letter] := by
  rw [List.take_add_one, next]
  rfl

/-- The letter behind a part of the pattern. -/
theorem letter_behind (short : state < pattern.length) (letter : α) (rest : List α) :
    (pattern.take state ++ letter :: rest)[state]? = some letter := by
  have size : (pattern.take state).length = state := List.length_take_of_le (Nat.le_of_lt short)
  rw [List.getElem?_append_right (Nat.le_of_eq size), size, Nat.sub_self]
  rfl

theorem letter_inside {matched : Nat} (inside : matched < state) (short : state ≤ pattern.length)
    (rest : List α) : (pattern.take state ++ rest)[matched]? = pattern[matched]? := by
  have size : (pattern.take state).length = state := List.length_take_of_le short
  rw [List.getElem?_append_left (by omega), List.getElem?_take_of_lt inside]

end Letters

variable [DecidableEq α]

def advance (pattern : List α) (state : Nat) (letter : α) : Nat :=
  if pattern[state]? = some letter then state + 1 else 0

/-- The letters up to the end of the first match. -/
def scan (pattern : List α) (state : Nat) : List α → Option Nat
  | [] => if pattern.length ≤ state then some 0 else none
  | letter :: text =>
      if pattern.length ≤ state then some 0
      else (scan pattern (advance pattern state letter) text).map (· + 1)

section Scan

variable {pattern : List α} {state : Nat}

theorem scan_done (done : pattern.length ≤ state) (text : List α) : scan pattern state text = some 0 := by
  cases text with
  | nil => rw [scan, if_pos done]
  | cons letter text => rw [scan, if_pos done]

theorem advance_le (short : state < pattern.length) (letter : α) :
    advance pattern state letter ≤ pattern.length := by
  rw [advance]
  split
  · exact short
  · exact Nat.zero_le _

theorem scan_found {text : List α} {count : Nat} (short : state ≤ pattern.length)
    (found : scan pattern state text = some count) :
    ∃ front back, Attempts pattern front ∧ pattern.take state ++ text = front ++ (pattern ++ back) ∧
      front.length + pattern.length = state + count := by
  induction text generalizing state count with
  | nil =>
      rw [scan] at found
      split at found
      · next done =>
          cases found
          rw [List.take_of_length_le done, Nat.le_antisymm short done]
          exact ⟨[], [], .none, rfl, by rw [List.length_nil]; omega⟩
      · cases found
  | cons letter text ih =>
      by_cases done : pattern.length ≤ state
      · rw [scan_done done] at found
        cases found
        rw [List.take_of_length_le done]
        exact ⟨[], letter :: text, .none, rfl, by rw [List.length_nil]; omega⟩
      · rw [scan, if_neg done, Option.map_eq_some_iff] at found
        obtain ⟨less, found, rfl⟩ := found
        obtain ⟨front, back, attempts, parts, sizes⟩ := ih (advance_le (Nat.lt_of_not_le done) letter) found
        rw [advance] at parts sizes
        split at parts
        · next next =>
            rw [if_pos next] at sizes
            rw [take_next next, List.append_assoc, List.singleton_append] at parts
            exact ⟨front, back, attempts, parts, by omega⟩
        · next missed =>
            rw [if_neg missed] at sizes
            rw [List.take_zero, List.nil_append] at parts
            refine ⟨pattern.take state ++ letter :: front, back,
              .missed state letter front (Nat.lt_of_not_le done) missed attempts, ?_, ?_⟩
            · rw [parts, List.append_assoc, List.cons_append]
            · rw [List.length_append, List.length_take, List.length_cons]
              omega

/-- The attempts in front of an occurrence are those that the search makes. -/
theorem found_scan {text front back : List α} (short : state ≤ pattern.length)
    (attempts : Attempts pattern front)
    (parts : pattern.take state ++ text = front ++ (pattern ++ back)) :
    ∃ count, scan pattern state text = some count ∧
      front.length + pattern.length = state + count := by
  induction text generalizing state front with
  | nil =>
      have sizes := congrArg List.length parts
      rw [List.length_append, List.length_append, List.length_append, List.length_take,
        List.length_nil] at sizes
      exact ⟨0, scan_done (by omega) [], by omega⟩
  | cons letter text ih =>
      by_cases done : pattern.length ≤ state
      · refine ⟨0, scan_done done _, ?_⟩
        cases attempts with
        | none => rw [List.length_nil]; omega
        | missed matched other rest less differs _ =>
            have here := congrArg (fun letters => letters[matched]?) parts
            rw [letter_inside (by omega) short, List.append_assoc, List.cons_append,
              letter_behind less] at here
            exact absurd here differs
      · have less := Nat.lt_of_not_le done
        by_cases next : pattern[state]? = some letter
        · have parts' : pattern.take (state + 1) ++ text = front ++ (pattern ++ back) := by
            rw [take_next next, List.append_assoc]
            exact parts
          obtain ⟨count, found, sizes⟩ := ih less attempts parts'
          refine ⟨count + 1, ?_, by omega⟩
          rw [scan, if_neg done, advance, if_pos next, found]
          rfl
        · cases attempts with
          | none =>
              have here := congrArg (fun letters => letters[state]?) parts
              rw [letter_behind less, List.nil_append, List.getElem?_append_left less] at here
              exact absurd here.symm next
          | missed matched other rest short' differs attempts =>
              rw [List.append_assoc, List.cons_append] at parts
              have same : matched = state := by
                rcases Nat.lt_trichotomy matched state with before | same | behind
                · have here := congrArg (fun letters => letters[matched]?) parts
                  rw [letter_inside before short, letter_behind short'] at here
                  exact absurd here differs
                · exact same
                · have here := congrArg (fun letters => letters[state]?) parts
                  rw [letter_behind less, letter_inside behind (Nat.le_of_lt short')] at here
                  exact absurd here.symm next
              subst same
              have tail := List.cons.inj (List.append_cancel_left parts)
              obtain ⟨count, found, sizes⟩ := ih (Nat.zero_le _) attempts tail.2
              refine ⟨count + 1, ?_, ?_⟩
              · rw [scan, if_neg done, advance, if_neg next, found]
                rfl
              · rw [List.length_append, List.length_take, List.length_cons]
                omega

end Scan

section First

variable {pattern text : List α}

theorem scan_none (nowhere : ∀ place, ¬OccursAt pattern text place) : scan pattern 0 text = none := by
  cases found : scan pattern 0 text with
  | none => rfl
  | some count =>
      obtain ⟨front, back, -, parts, -⟩ := scan_found (Nat.zero_le _) found
      exact absurd (occurs_iff.mpr ⟨front, back, parts, rfl⟩) (nowhere front.length)

/-- An occurrence is found just when the search comes to its start with nothing matched. -/
theorem scan_first_iff {place : Nat} (first : FirstAt pattern text place) :
    scan pattern 0 text = some (place + pattern.length) ↔ Attempts pattern (text.take place) := by
  obtain ⟨front, back, parts, size⟩ := occurs_iff.mp first.1
  have taken : text.take place = front := by rw [parts, ← size, List.take_left]
  rw [taken]
  constructor
  · intro found
    obtain ⟨front', back', attempts, parts', size'⟩ := scan_found (Nat.zero_le _) found
    have same : front' = front := by
      have both : front' ++ (pattern ++ back') = front ++ (pattern ++ back) := parts'.symm.trans parts
      exact (List.append_inj both (by omega)).1
    exact same ▸ attempts
  · intro attempts
    obtain ⟨count, found, sizes⟩ := @found_scan α _ pattern 0 text front back (Nat.zero_le _) attempts parts
    rw [found]
    congr 1
    omega

end First

section Stop

variable {pattern : List α}

/-- The search that looks for its end only when there is another letter. -/
def stop (pattern : List α) : Nat → List α → Option Nat
  | _, [] => none
  | state, letter :: rest =>
      if pattern.length ≤ state then some 0
      else (stop pattern (advance pattern state letter) rest).map (· + 1)

def stateAfter (pattern : List α) (state : Nat) (text : List α) : Nat :=
  text.foldl (advance pattern) state

theorem stop_iff (state : Nat) (text : List α) (count : Nat) :
    stop pattern state text = some count ↔ scan pattern state text = some count ∧ count < text.length := by
  induction text generalizing state count with
  | nil => exact iff_of_false (fun none => nomatch none) (fun found => absurd found.2 (Nat.not_lt_zero count))
  | cons letter rest ih =>
      rw [stop, scan]
      split
      · rw [Option.some.injEq]
        exact ⟨fun same => ⟨same, same ▸ Nat.succ_pos _⟩, fun found => found.1⟩
      · rw [Option.map_eq_some_iff, Option.map_eq_some_iff]
        constructor
        · rintro ⟨less, found, rfl⟩
          obtain ⟨found, inside⟩ := (ih _ less).mp found
          exact ⟨⟨less, found, rfl⟩, Nat.succ_lt_succ inside⟩
        · rintro ⟨⟨less, found, rfl⟩, inside⟩
          exact ⟨less, (ih _ less).mpr ⟨found, Nat.lt_of_succ_lt_succ inside⟩, rfl⟩

theorem stop_append (state : Nat) (front back : List α) :
    stop pattern state (front ++ back) = (stop pattern state front).or
      ((stop pattern (stateAfter pattern state front) back).map (front.length + ·)) := by
  induction front generalizing state with
  | nil =>
      rw [List.nil_append, stop, Option.none_or, stateAfter, List.foldl_nil, List.length_nil]
      cases stop pattern state back with
      | none => rfl
      | some count => exact congrArg some (Nat.zero_add count).symm
  | cons letter front ih =>
      rw [List.cons_append, stop, stop]
      split
      · rfl
      · have later : stateAfter pattern state (letter :: front) =
            stateAfter pattern (advance pattern state letter) front := rfl
        rw [ih, later, List.length_cons]
        cases stop pattern (advance pattern state letter) front with
        | some count => rfl
        | none =>
            rw [Option.none_or, Option.map_none, Option.none_or, Option.map_map]
            congr 1
            funext count
            exact Nat.add_right_comm front.length count 1

end Stop

end Upst.Matching
