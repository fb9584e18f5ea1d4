import Mathlib.Data.Finset.Card
import Mathlib.Logic.Function.Iterate
import Mathlib.Logic.Relation
import Mathlib.Order.Interval.Finset.Nat

/-!
Loops that walk over records whose places depend on what the records say. A turn of the loop has a
result, has none, or leaves the result to a state that is nearer to the end. The loop is described
through the places of its states: `fits` says which places have a result for their turn, and `next`
where a turn goes on.
-/

namespace Upst.Walking

open Relation

set_option autoImplicit false

variable {State Place Result : Type}

/-- What the turn at a state comes to. -/
inductive Turn (run : State → Option Result) (place : State → Place) (fits : Place → Prop)
    (next : Place → Place → Prop) (measure : State → Nat) (state : State) : Prop where
  | fails : ¬fits (place state) → run state = none → Turn run place fits next measure state
  | ends : fits (place state) → (∀ other, ¬next (place state) other) →
      (run state).isSome = true → Turn run place fits next measure state
  | goes (state' : State) : fits (place state) →
      (∀ other, next (place state) other ↔ other = place state') → measure state' < measure state →
      run state = run state' → Turn run place fits next measure state

variable {run : State → Option Result} {place : State → Place} {fits : Place → Prop}
  {next : Place → Place → Prop} {measure : State → Nat}

theorem fits_of_isSome (turn : ∀ state, Turn run place fits next measure state) {start last : Place}
    (path : ReflTransGen next start last) :
    ∀ state, place state = start → (run state).isSome = true → fits last := by
  induction path using ReflTransGen.head_induction_on with
  | refl =>
      intro state here result
      subst here
      cases turn state with
      | fails _ failed =>
          rw [failed] at result
          cases result
      | ends inside _ _ => exact inside
      | goes _ inside _ _ _ => exact inside
  | head step _ ih =>
      intro state here result
      subst here
      cases turn state with
      | fails _ failed =>
          rw [failed] at result
          cases result
      | ends _ stops _ => exact absurd step (stops _)
      | goes state' _ only _ same =>
          apply ih state' ((only _).mp step).symm
          rw [← same]
          exact result

theorem isSome_of_fits (turn : ∀ state, Turn run place fits next measure state) (turns : Nat) :
    ∀ state, measure state < turns → (∀ other, ReflTransGen next (place state) other → fits other) →
      (run state).isSome = true := by
  induction turns with
  | zero => exact fun state bound => absurd bound (Nat.not_lt_zero _)
  | succ turns ih =>
      intro state bound inside
      cases turn state with
      | fails outside _ => exact absurd (inside _ .refl) outside
      | ends _ _ result => exact result
      | goes state' _ only less same =>
          rw [same]
          apply ih state' (by omega)
          exact fun other path => inside other (.head ((only _).mpr rfl) path)

/-- The loop has a result just when all places that it comes to fit. -/
theorem run_isSome_iff (turn : ∀ state, Turn run place fits next measure state) (state : State) :
    (run state).isSome = true ↔ ∀ other, ReflTransGen next (place state) other → fits other :=
  ⟨fun result _ path => fits_of_isSome turn path state rfl result,
    fun inside => isSome_of_fits turn _ state (Nat.lt_succ_self _) inside⟩

section Orbits

variable {next : Place → Place} {stops : Place → Prop} {start : Place} {turns : Nat}

/-- No place is met twice on a way that stops. -/
theorem orbit_distinct (ends : stops (next^[turns] start))
    (goes : ∀ turn, turn < turns → ¬stops (next^[turn] start)) :
    Set.InjOn (fun turn => next^[turn] start) (Set.Iio turns) := by
  have earlier (first second : Nat) (less : first < second) (bound : second < turns)
      (same : next^[first] start = next^[second] start) : False := by
    apply goes (turns - second + first) (by omega)
    have split : turns = turns - second + second := (Nat.sub_add_cancel bound.le).symm
    rw [Function.iterate_add_apply, same, ← Function.iterate_add_apply, ← split]
    exact ends
  intro first firstBound second secondBound same
  rcases Nat.lt_trichotomy first second with less | equal | more
  · exact (earlier first second less secondBound same).elim
  · exact equal
  · exact (earlier second first more firstBound same.symm).elim

/-- A way through the numbers of a range stops before it has made more turns than there are numbers. -/
theorem orbit_short {next : Nat → Nat} {stops : Nat → Prop} {start low bound : Nat}
    (ends : stops (next^[turns] start)) (goes : ∀ turn, turn < turns → ¬stops (next^[turn] start))
    (inside : ∀ turn, turn < turns → low ≤ next^[turn] start ∧ next^[turn] start < bound) :
    turns ≤ bound - low := by
  have distinct := orbit_distinct ends goes
  have range : ∀ turn ∈ Finset.range turns, next^[turn] start ∈ Finset.Ico low bound :=
    fun turn member => Finset.mem_Ico.mpr (inside turn (Finset.mem_range.mp member))
  have card := Finset.card_le_card_of_injOn (fun turn => next^[turn] start) range
    (by rw [Finset.coe_range]; exact distinct)
  rw [Finset.card_range, Nat.card_Ico] at card
  exact card

end Orbits

section Fuel

/-- A loop that is given a number of turns. It is left at the states that end it, and each turn before
has a condition of its own. -/
structure Loop (runs : Nat → State → Prop) (ends fits : State → Prop) (next : State → State) : Prop where
  out : ∀ state, ¬runs 0 state
  left : ∀ fuel state, ends state → runs (fuel + 1) state
  turn : ∀ fuel state, ¬ends state → (runs (fuel + 1) state ↔ fits state ∧ runs fuel (next state))

variable {runs : Nat → State → Prop} {ends good : State → Prop} {step : State → State}

theorem loop_iff (loop : Loop runs ends good step) (fuel : Nat) (state : State) :
    runs fuel state ↔ ∃ turns, turns < fuel ∧ ends (step^[turns] state) ∧
      ∀ turn, turn < turns → ¬ends (step^[turn] state) ∧ good (step^[turn] state) := by
  induction fuel generalizing state with
  | zero => exact iff_of_false (loop.out state) fun found => Nat.not_lt_zero _ found.choose_spec.1
  | succ fuel ih =>
      by_cases stops : ends state
      · refine iff_of_true (loop.left fuel state stops) ⟨0, Nat.succ_pos fuel, stops, ?_⟩
        exact fun turn less => absurd less (Nat.not_lt_zero turn)
      · rw [loop.turn fuel state stops, ih]
        constructor
        · intro both
          obtain ⟨here, turns, less, ended, before⟩ := both
          refine ⟨turns + 1, Nat.succ_lt_succ less, ended, fun turn small => ?_⟩
          cases turn with
          | zero => exact ⟨stops, here⟩
          | succ turn => exact before turn (Nat.lt_of_succ_lt_succ small)
        · intro found
          obtain ⟨turns, less, ended, before⟩ := found
          cases turns with
          | zero => exact absurd ended stops
          | succ turns =>
              refine ⟨(before 0 (Nat.succ_pos turns)).2, turns, Nat.lt_of_succ_lt_succ less, ended, ?_⟩
              exact fun turn small => before (turn + 1) (Nat.succ_lt_succ small)

theorem loop_mono (loop : Loop runs ends good step) {fuel more : Nat} (le : fuel ≤ more) {state : State}
    (ran : runs fuel state) : runs more state := by
  obtain ⟨turns, less, rest⟩ := (loop_iff loop fuel state).mp ran
  exact (loop_iff loop more state).mpr ⟨turns, Nat.lt_of_lt_of_le less le, rest⟩

/-- With enough turns something runs just when `holds`, and it still does with more of them. -/
structure Settled (runs : Nat → Prop) (holds : Prop) : Prop where
  iff : (∃ fuel, runs fuel) ↔ holds
  mono : ∀ fuel more, fuel ≤ more → runs fuel → runs more

theorem settled_const {holds holds' : Prop} (same : holds ↔ holds') : Settled (fun _ => holds) holds' where
  iff := ⟨fun ran => same.mp ran.choose_spec, fun given => ⟨0, same.mpr given⟩⟩
  mono _ _ _ := id

theorem settled_and {runs : Nat → Prop} {first holds : Prop} (settled : Settled runs holds) :
    Settled (fun fuel => first ∧ runs fuel) (first ∧ holds) where
  iff := by rw [exists_and_left, settled.iff]
  mono fuel more le both := ⟨both.1, settled.mono fuel more le both.2⟩

/-- Enough turns for one of several things are enough for all of them. -/
theorem settled_all {runs : Nat → Nat → Prop} {holds : Nat → Prop}
    (settled : ∀ item, Settled (runs item) (holds item)) (count : Nat)
    (given : ∀ item, item < count → holds item) : ∃ fuel, ∀ item, item < count → runs item fuel := by
  induction count with
  | zero => exact ⟨0, fun item less => absurd less (Nat.not_lt_zero item)⟩
  | succ count ih =>
      obtain ⟨fuel, before⟩ := ih fun item less => given item (Nat.lt_succ_of_lt less)
      obtain ⟨more, last⟩ := (settled count).iff.mpr (given count (Nat.lt_succ_self count))
      refine ⟨max fuel more, fun item less => ?_⟩
      by_cases here : item = count
      · subst here
        exact (settled item).mono more _ (Nat.le_max_right _ _) last
      · exact (settled item).mono fuel _ (Nat.le_max_left _ _) (before item (by omega))

/-- A loop comes to an end just when its way does and each turn before is good. -/
theorem loop_settled (loop : Loop runs ends good step) (state : State) :
    Settled (fun fuel => runs fuel state) (∃ turns, ends (step^[turns] state) ∧
      ∀ turn, turn < turns → good (step^[turn] state)) where
  mono _ _ le ran := loop_mono loop le ran
  iff := by
    constructor
    · intro ran
      obtain ⟨fuel, ran⟩ := ran
      obtain ⟨turns, -, ended, before⟩ := (loop_iff loop fuel state).mp ran
      exact ⟨turns, ended, fun turn less => (before turn less).2⟩
    · intro found
      classical
      have reached : ∃ turns, ends (step^[turns] state) := found.imp fun _ both => both.1
      obtain ⟨turns, ended, before⟩ := found
      refine ⟨Nat.find reached + 1, (loop_iff loop _ state).mpr ?_⟩
      refine ⟨Nat.find reached, Nat.lt_succ_self _, Nat.find_spec reached, fun turn less => ?_⟩
      exact ⟨Nat.find_min reached less,
        before turn (Nat.lt_of_lt_of_le less (Nat.find_min' reached ended))⟩

end Fuel

end Upst.Walking
