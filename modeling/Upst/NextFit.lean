import Mathlib.Logic.Function.Basic
import Mathlib.Data.Nat.Basic
import Mathlib.Data.List.Range

/-!
Next-fit search in an arena of equally large cells. The search starts from a cursor, takes
the first free cell, and goes from the last cell back to the first one when the cursor
meets the end of the arena.
-/

namespace Upst.NextFit

set_option autoImplicit false

/-- `count` cells, each `stride` long, from `start` on. -/
structure Arena where
  start : Nat
  stride : Nat
  count : Nat

namespace Arena

def cell (arena : Arena) (index : Nat) : Nat := arena.start + arena.stride * index

def advance (arena : Arena) (cursor : Nat) : Nat :=
  if cursor + arena.stride = arena.cell arena.count then arena.start else cursor + arena.stride

/-- At most `tries` cells are looked at. The result is the free cell and the next cursor. -/
def search (arena : Arena) (isFree : Nat → Bool) : Nat → Nat → Option Nat × Nat
  | 0, cursor => (none, cursor)
  | tries + 1, cursor =>
      if isFree cursor then (some cursor, arena.advance cursor)
      else arena.search isFree tries (arena.advance cursor)

variable {arena : Arena}

theorem cell_succ (arena : Arena) (index : Nat) :
    arena.cell (index + 1) = arena.cell index + arena.stride := by
  simp [cell, Nat.mul_add, Nat.add_assoc]

/-- Cells do not overlap. -/
theorem cell_lt (arena : Arena) {first second : Nat} (before : first < second) :
    arena.cell first + arena.stride ≤ arena.cell second := by
  have steps : arena.stride * (first + 1) ≤ arena.stride * second := Nat.mul_le_mul_left _ before
  simp only [cell, Nat.mul_add, Nat.mul_one] at steps ⊢
  omega

theorem cell_injective (positive : 0 < arena.stride) {first second : Nat}
    (same : arena.cell first = arena.cell second) : first = second := by
  rcases Nat.lt_trichotomy first second with before | equal | after
  · have := arena.cell_lt before
    omega
  · exact equal
  · have := arena.cell_lt after
    omega

theorem advance_cell (positive : 0 < arena.stride) {index : Nat} (bound : index < arena.count) :
    arena.advance (arena.cell index) = arena.cell ((index + 1) % arena.count) := by
  rw [advance, ← cell_succ]
  rcases Nat.lt_or_ge (index + 1) arena.count with inside | outside
  · have before := arena.cell_lt inside
    rw [if_neg (by omega), Nat.mod_eq_of_lt inside]
  · have last : index + 1 = arena.count := by omega
    rw [if_pos (by rw [last]), last, Nat.mod_self]
    simp [cell]

/-- The cursor stays on the cells, and what is found is a free one of them. -/
theorem search_stops (positive : 0 < arena.stride) (isFree : Nat → Bool) (tries : Nat) {index : Nat}
    (bound : index < arena.count) :
    (∃ rest < arena.count, (arena.search isFree tries (arena.cell index)).2 = arena.cell rest) ∧
      ∀ place, (arena.search isFree tries (arena.cell index)).1 = some place →
        isFree place = true ∧ ∃ found < arena.count, place = arena.cell found := by
  induction tries generalizing index with
  | zero => exact ⟨⟨index, bound, rfl⟩, by simp [search]⟩
  | succ tries ih =>
      have inside : (index + 1) % arena.count < arena.count := Nat.mod_lt _ (by omega)
      simp only [search, advance_cell positive bound]
      split
      · next found =>
          refine ⟨⟨_, inside, rfl⟩, ?_⟩
          intro place stopped
          obtain rfl := Option.some.inj stopped
          exact ⟨found, index, bound, rfl⟩
      · exact ih inside

/-- A search that finds nothing has looked at the next `tries` cells. -/
theorem search_none_passed (positive : 0 < arena.stride) (isFree : Nat → Bool) (tries : Nat)
    {index : Nat} (bound : index < arena.count)
    (nothing : (arena.search isFree tries (arena.cell index)).1 = none) :
    ∀ step < tries, isFree (arena.cell ((index + step) % arena.count)) = false := by
  induction tries generalizing index with
  | zero => exact fun step impossible => absurd impossible (Nat.not_lt_zero step)
  | succ tries ih =>
      simp only [search, advance_cell positive bound] at nothing
      split at nothing
      · cases nothing
      · next used =>
          have later := ih (Nat.mod_lt _ (by omega)) nothing
          intro step inside
          cases step with
          | zero =>
              rw [Nat.add_zero, Nat.mod_eq_of_lt bound]
              simpa using used
          | succ step =>
              have passed := later step (Nat.lt_of_succ_lt_succ inside)
              rwa [Nat.mod_add_mod, Nat.add_assoc, Nat.add_comm 1] at passed

/-- With a try for every cell, the search finds nothing exactly when none is free. -/
theorem search_none_iff (positive : 0 < arena.stride) (isFree : Nat → Bool) {tries index : Nat}
    (bound : index < arena.count) (enough : arena.count ≤ tries) :
    (arena.search isFree tries (arena.cell index)).1 = none ↔
      ∀ place < arena.count, isFree (arena.cell place) = false := by
  constructor
  · intro nothing place inside
    have passed := search_none_passed positive isFree tries bound nothing
      ((place + arena.count - index) % arena.count)
      (Nat.lt_of_lt_of_le (Nat.mod_lt _ (by omega)) enough)
    have back : (index + (place + arena.count - index) % arena.count) % arena.count = place := by
      rw [Nat.add_mod_mod]
      have whole : index + (place + arena.count - index) = place + arena.count := by omega
      rw [whole, Nat.add_mod_right, Nat.mod_eq_of_lt inside]
    rwa [back] at passed
  · intro full
    by_contra found
    obtain ⟨place, stopped⟩ := Option.ne_none_iff_exists'.mp found
    obtain ⟨isFree, cell, inside, rfl⟩ := (search_stops positive isFree tries bound).2 place stopped
    rw [full cell inside] at isFree
    cases isFree

section Fill

variable {Value : Type}

/-- One value written to every cell. -/
def fill (arena : Arena) (value : Value) (store : Nat → Value) : Nat → Value :=
  (List.range arena.count).foldl (fun store index => Function.update store (arena.cell index) value)
    store

theorem fill_cell (positive : 0 < arena.stride) (value : Value) (store : Nat → Value) {index : Nat}
    (bound : index < arena.count) : arena.fill value store (arena.cell index) = value := by
  unfold fill
  generalize arena.count = count at bound
  induction count with
  | zero => omega
  | succ count ih =>
      rw [List.range_succ, List.foldl_append, List.foldl_cons, List.foldl_nil]
      by_cases last : index = count
      · rw [last, Function.update_self]
      · rw [Function.update_of_ne fun same => last (cell_injective positive same)]
        exact ih (by omega)

end Fill

end Arena

end Upst.NextFit
