import Mathlib.Data.List.Nodup

/-!
A sweep over the records of a map in the order of their keys: it remembers the rank of the key of its
last turn and goes on behind it, and a turn changes the record that it visits or removes it.
-/

namespace Upst.Sweeping

set_option autoImplicit false

variable {κ δ ε : Type}

/-- The visits of a sweep: the key and the record of each, and what becomes of the record. -/
structure Visits (κ δ ε : Type) where
  rank : κ → Nat
  key : ε → κ
  data : ε → δ
  outcome : ε → Option δ

/-- Every record with a rank behind `low` and up to `high` has one visit and is what that makes of it;
the others are as before. -/
structure Swept (visits : Visits κ δ ε) (before after : κ → Option δ) (log : List ε) (low high : Nat) :
    Prop where
  inside : ∀ visit ∈ log, low < visits.rank (visits.key visit) ∧ visits.rank (visits.key visit) ≤ high
  once : (log.map visits.key).Nodup
  held : ∀ visit ∈ log, before (visits.key visit) = some (visits.data visit)
  all : ∀ key data, before key = some data → low < visits.rank key → visits.rank key ≤ high →
    ∃ visit ∈ log, visits.key visit = key
  done : ∀ visit ∈ log, after (visits.key visit) = visits.outcome visit
  kept : ∀ key, (∀ visit ∈ log, visits.key visit ≠ key) → after key = before key

variable {visits : Visits κ δ ε} {before mid after : κ → Option δ} {low middle high : Nat}

/-- Without a record in between nothing is visited. -/
theorem Swept.none (empty : ∀ key data, before key = some data → low < visits.rank key →
    high < visits.rank key) : Swept visits before before [] low high where
  inside := nofun
  once := List.nodup_nil
  held := nofun
  all key data found behind upTo := absurd upTo (Nat.not_le.mpr (empty key data found behind))
  done := nofun
  kept _ _ := rfl

/-- The visit of the next record. -/
theorem Swept.single {visit : ε} (held : before (visits.key visit) = some (visits.data visit))
    (behind : low < visits.rank (visits.key visit))
    (next : ∀ key data, before key = some data → low < visits.rank key →
      visits.rank key ≤ visits.rank (visits.key visit) → key = visits.key visit)
    (done : after (visits.key visit) = visits.outcome visit)
    (kept : ∀ key ≠ visits.key visit, after key = before key) :
    Swept visits before after [visit] low (visits.rank (visits.key visit)) where
  inside := List.forall_mem_singleton.mpr ⟨behind, Nat.le_refl _⟩
  once := List.nodup_singleton _
  held := List.forall_mem_singleton.mpr held
  all key data found above upTo := ⟨visit, List.mem_singleton_self visit, (next key data found above upTo).symm⟩
  done := List.forall_mem_singleton.mpr done
  kept key other := kept key (other visit (List.mem_singleton_self visit)).symm

/-- The part behind a rank visits other records than the part before. -/
theorem Swept.append {first second : List ε} (front : Swept visits before mid first low middle)
    (back : Swept visits mid after second middle high) (ordered : low ≤ middle) (upTo : middle ≤ high) :
    Swept visits before after (first ++ second) low high := by
  have apart : ∀ one ∈ first, ∀ other ∈ second, visits.key one ≠ visits.key other := by
    intro one inFirst other inSecond same
    have upper := (front.inside one inFirst).2
    have lower := (back.inside other inSecond).1
    rw [same] at upper
    exact Nat.lt_irrefl _ (Nat.lt_of_lt_of_le lower upper)
  have untouched : ∀ visit ∈ second, mid (visits.key visit) = before (visits.key visit) :=
    fun visit inSecond => front.kept _ fun one inFirst => apart one inFirst visit inSecond
  refine ⟨?_, ?_, ?_, ?_, ?_, ?_⟩
  · intro visit member
    rcases List.mem_append.mp member with inFirst | inSecond
    · obtain ⟨behind, below⟩ := front.inside visit inFirst
      exact ⟨behind, Nat.le_trans below upTo⟩
    · obtain ⟨behind, below⟩ := back.inside visit inSecond
      exact ⟨Nat.lt_of_le_of_lt ordered behind, below⟩
  · rw [List.map_append, List.nodup_append]
    refine ⟨front.once, back.once, ?_⟩
    intro one inFirst other inSecond
    obtain ⟨visit, visited, rfl⟩ := List.mem_map.mp inFirst
    obtain ⟨later, visitedLater, rfl⟩ := List.mem_map.mp inSecond
    exact apart visit visited later visitedLater
  · intro visit member
    rcases List.mem_append.mp member with inFirst | inSecond
    · exact front.held visit inFirst
    · exact (untouched visit inSecond).symm.trans (back.held visit inSecond)
  · intro key data found behind below
    rcases Nat.lt_or_ge middle (visits.rank key) with above | under
    · have there : mid key = some data := by
        rw [front.kept key, found]
        intro visit inFirst same
        have upper := (front.inside visit inFirst).2
        rw [same] at upper
        exact Nat.lt_irrefl _ (Nat.lt_of_lt_of_le above upper)
      obtain ⟨visit, inSecond, same⟩ := back.all key data there above below
      exact ⟨visit, List.mem_append_right first inSecond, same⟩
    · obtain ⟨visit, inFirst, same⟩ := front.all key data found behind under
      exact ⟨visit, List.mem_append_left second inFirst, same⟩
  · intro visit member
    rcases List.mem_append.mp member with inFirst | inSecond
    · rw [back.kept _ fun other inSecond => (apart visit inFirst other inSecond).symm]
      exact front.done visit inFirst
    · exact back.done visit inSecond
  · intro key other
    rw [back.kept key fun visit inSecond => other visit (List.mem_append_right first inSecond)]
    exact front.kept key fun visit inFirst => other visit (List.mem_append_left second inFirst)

end Upst.Sweeping
