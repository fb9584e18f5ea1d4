import Mathlib.Data.Finset.Interval
import Mathlib.Order.Interval.Finset.Nat

/-!
Half-open ranges of natural numbers: how many numbers of a range have a property, and which
numbers a list of items with a start and a stop covers.
-/

namespace Upst.Spans

set_option autoImplicit false

section Count

variable (p : Nat → Prop) [DecidablePred p]

def countIn (lo hi : Nat) : Nat := ((Finset.Ico lo hi).filter p).card

variable {p}

theorem count_in_split {lo mid hi : Nat} (left : lo ≤ mid) (right : mid ≤ hi) :
    countIn p lo hi = countIn p lo mid + countIn p mid hi := by
  have apart : Disjoint ((Finset.Ico lo mid).filter p) ((Finset.Ico mid hi).filter p) :=
    Finset.disjoint_filter_filter (Finset.Ico_disjoint_Ico_consecutive lo mid hi)
  rw [countIn, countIn, countIn, ← Finset.card_union_of_disjoint apart, ← Finset.filter_union,
    Finset.Ico_union_Ico_eq_Ico left right]

theorem count_in_all {lo hi : Nat} (all : ∀ x, lo ≤ x → x < hi → p x) : countIn p lo hi = hi - lo := by
  rw [countIn, Finset.filter_true_of_mem, Nat.card_Ico]
  intro x member
  obtain ⟨low, high⟩ := Finset.mem_Ico.mp member
  exact all x low high

theorem count_in_none {lo hi : Nat} (none : ∀ x, lo ≤ x → x < hi → ¬ p x) : countIn p lo hi = 0 := by
  rw [countIn, Finset.filter_false_of_mem, Finset.card_empty]
  intro x member
  obtain ⟨low, high⟩ := Finset.mem_Ico.mp member
  exact none x low high

theorem count_in_congr {q : Nat → Prop} [DecidablePred q] {lo hi : Nat}
    (same : ∀ x, lo ≤ x → x < hi → (p x ↔ q x)) : countIn p lo hi = countIn q lo hi := by
  apply congrArg Finset.card
  apply Finset.filter_congr
  intro x member
  obtain ⟨low, high⟩ := Finset.mem_Ico.mp member
  exact same x low high

theorem count_in_le (lo hi : Nat) : countIn p lo hi ≤ hi - lo := by
  have bound := Finset.card_filter_le (Finset.Ico lo hi) p
  rw [Nat.card_Ico] at bound
  exact bound

end Count

section Cover

variable {α : Type} (start stop : α → Nat)

def Covers (items : List α) (x : Nat) : Prop := ∃ item ∈ items, start item ≤ x ∧ x < stop item

instance (items : List α) (x : Nat) : Decidable (Covers start stop items x) :=
  inferInstanceAs (Decidable (∃ item ∈ items, start item ≤ x ∧ x < stop item))

/-- The items stand in the order of their ranges, which are disjoint. -/
def Ordered (items : List α) : Prop := items.Pairwise fun left right => stop left ≤ start right

instance (items : List α) : Decidable (Ordered start stop items) :=
  inferInstanceAs (Decidable (items.Pairwise fun left right => stop left ≤ start right))

variable {start stop}

@[simp] theorem covers_nil (x : Nat) : ¬ Covers start stop ([] : List α) x := by
  simp [Covers]

@[simp] theorem covers_cons (item : α) (items : List α) (x : Nat) :
    Covers start stop (item :: items) x ↔
      (start item ≤ x ∧ x < stop item) ∨ Covers start stop items x := by
  simp [Covers]

@[simp] theorem covers_append (left right : List α) (x : Nat) :
    Covers start stop (left ++ right) x ↔
      Covers start stop left x ∨ Covers start stop right x := by
  simp [Covers, or_and_right, exists_or]

@[simp] theorem covers_reverse (items : List α) (x : Nat) :
    Covers start stop items.reverse x ↔ Covers start stop items x := by
  simp [Covers]

theorem Ordered.insert {left right : List α} {item : α} (ordered : Ordered start stop (left ++ right))
    (below : ∀ other ∈ left, stop other ≤ start item)
    (above : ∀ other ∈ right, stop item ≤ start other) :
    Ordered start stop (left ++ item :: right) := by
  obtain ⟨first, second, apart⟩ := List.pairwise_append.mp ordered
  apply List.pairwise_append.mpr
  refine ⟨first, List.pairwise_cons.mpr ⟨above, second⟩, ?_⟩
  intro other inLeft next inRight
  rcases List.mem_cons.mp inRight with rfl | later
  · exact below other inLeft
  · exact apart other inLeft next later

theorem Ordered.remove {left right : List α} {item : α}
    (ordered : Ordered start stop (left ++ item :: right)) : Ordered start stop (left ++ right) :=
  List.Pairwise.sublist (List.Sublist.append_left (List.sublist_cons_self item right) left) ordered

theorem not_covers_of_below {items : List α} {limit x : Nat} (below : ∀ item ∈ items, stop item ≤ limit)
    (outside : limit ≤ x) : ¬ Covers start stop items x := by
  intro ⟨item, member, _, inside⟩
  have bound := below item member
  omega

end Cover

end Upst.Spans
