import Mathlib.Data.List.GetD
import Mathlib.Data.List.Infix
import Mathlib.Data.UInt

/-!
The search for one string in another in the URL tools. The outer loop goes on with the pointer of the
inner one, and its bound moves on with every turn: what ends the search is not how far it is from the
start, but how much of the pattern a place has matched.
-/

namespace Upst.UrlFind

set_option autoImplicit false

section Source

/-- The bytes before the NUL. -/
structure CStr where
  bytes : List UInt8
  terminated : (0 : UInt8) ∉ bytes

def CStr.byteAt (str : CStr) (place : Nat) : UInt8 := str.bytes.getD place 0

variable (fold : UInt8 → UInt8)

/-- The inner `for`, with what is left of `s2`: where `sc1` ends, and `equal`. -/
def compareLoop (str : CStr) : List UInt8 → Nat → Bool → Nat × Bool
  | [], sc1, equal => (sc1, equal)
  | byte :: rest, sc1, _ =>
      if fold (str.byteAt sc1) = fold byte then compareLoop str rest (sc1 + 1) true else (sc1, false)

/-- The outer `for`; the places of `sc1` and `s1` are counted from the start of the string. There is no
result when the turns run out. -/
def searchLoop (str s2 : CStr) (n : Nat) : Nat → Nat → Nat → Bool → Option (Option Nat)
  | 0, _, _, _ => none
  | turns + 1, sc1, s1, equal =>
      if str.byteAt sc1 ≠ 0 ∧ sc1 < s1 + n then
        match compareLoop fold str s2.bytes s1 equal with
        | (sc1, equal) => if equal then some (some s1) else searchLoop str s2 n turns sc1 (s1 + 1) equal
      else some none

def search (s1 s2 : CStr) (n : Nat) : Option (Option Nat) :=
  searchLoop fold s1 s2 n (s1.bytes.length + 2) 0 0 false

def strnpbrk (s1 s2 : CStr) (n : Nat) : Option (Option Nat) := search id s1 s2 n

def tolower (byte : UInt8) : UInt8 := if 65 ≤ byte ∧ byte ≤ 90 then byte + 32 else byte

def strnpcasebrk (s1 s2 : CStr) (n : Nat) : Option (Option Nat) := search tolower s1 s2 n

end Source

section Spec

variable (fold : UInt8 → UInt8)

def CStr.folded (str : CStr) : List UInt8 := str.bytes.map fold

def Occurs (s1 s2 : CStr) (place : Nat) : Prop :=
  place ≤ s1.bytes.length ∧ s2.folded fold <+: (s1.folded fold).drop place

def OccursFirst (s1 s2 : CStr) (place : Nat) : Prop :=
  Occurs fold s1 s2 place ∧ ∀ earlier < place, ¬ Occurs fold s1 s2 earlier

/-- The result is the first place below `n`, and there is none when there is no such place. -/
def Finds (s1 s2 : CStr) (n : Nat) (result : Option Nat) : Prop :=
  ∀ place, result = some place ↔ place < n ∧ OccursFirst fold s1 s2 place

def commonLength : List UInt8 → List UInt8 → Nat
  | byte :: rest, other :: others => if byte = other then commonLength rest others + 1 else 0
  | _, _ => 0

/-- How many bytes of `s2` a place of `s1` matches. -/
def matched (s1 s2 : CStr) (place : Nat) : Nat :=
  commonLength ((s1.folded fold).drop place) (s2.folded fold)

/-- The first occurrence is out of the range just when an earlier place matches more than `n` bytes. -/
def Reaches (s1 s2 : CStr) (n : Nat) : Prop :=
  n = 0 ∨ s2.bytes ≠ [] ∧ ∀ place, OccursFirst fold s1 s2 place →
    (n ≤ place ↔ ∃ earlier < place, n < matched fold s1 s2 earlier)

end Spec

section Common

variable {text pattern : List UInt8}

theorem common_le (text pattern : List UInt8) :
    commonLength text pattern ≤ text.length ∧ commonLength text pattern ≤ pattern.length := by
  induction text generalizing pattern with
  | nil => exact ⟨Nat.zero_le _, Nat.zero_le _⟩
  | cons byte rest ih =>
      cases pattern with
      | nil => exact ⟨Nat.zero_le _, Nat.zero_le _⟩
      | cons other others =>
          rw [commonLength]
          split
          · exact ⟨Nat.succ_le_succ (ih others).1, Nat.succ_le_succ (ih others).2⟩
          · exact ⟨Nat.zero_le _, Nat.zero_le _⟩

theorem common_full : commonLength text pattern = pattern.length ↔ pattern <+: text := by
  induction text generalizing pattern with
  | nil =>
      cases pattern with
      | nil => exact iff_of_true rfl (List.prefix_refl [])
      | cons other others => exact iff_of_false nofun (fun front => nomatch List.prefix_nil.mp front)
  | cons byte rest ih =>
      cases pattern with
      | nil => exact iff_of_true rfl List.nil_prefix
      | cons other others =>
          rw [commonLength, List.cons_prefix_cons, List.length_cons]
          split
          · next same =>
              rw [Nat.add_right_cancel_iff, ih]
              exact ⟨fun front => ⟨same.symm, front⟩, fun both => both.2⟩
          · next different =>
              exact iff_of_false (Nat.succ_ne_zero _).symm fun both => different both.1.symm

end Common

section Compare

variable {fold : UInt8 → UInt8} {str s2 : CStr}

theorem byteAt_inside {place : Nat} : str.byteAt place ≠ 0 ↔ place < str.bytes.length := by
  rw [CStr.byteAt]
  constructor
  · intro nonzero
    by_contra outside
    exact nonzero (List.getD_eq_default _ _ (Nat.le_of_not_lt outside))
  · intro inside zero
    apply str.terminated
    rw [List.getD_eq_getElem _ _ inside] at zero
    exact zero ▸ List.getElem_mem inside

theorem folded_drop {place : Nat} (inside : place < str.bytes.length) :
    (str.folded fold).drop place = fold (str.byteAt place) :: (str.folded fold).drop (place + 1) := by
  have size : place < (str.folded fold).length := by
    rwa [CStr.folded, List.length_map]
  rw [List.drop_eq_getElem_cons size, CStr.byteAt, List.getD_eq_getElem _ _ inside]
  congr 1
  exact List.getElem_map fold

/-- Only the NUL is taken for the NUL. -/
def Faithful (fold : UInt8 → UInt8) : Prop := ∀ byte, fold 0 = fold byte → byte = 0

theorem compare_spec (faithful : Faithful fold) (str : CStr) {rest : List UInt8} (clean : (0 : UInt8) ∉ rest)
    (sc1 : Nat) (equal : Bool) :
    (compareLoop fold str rest sc1 equal).1 =
        sc1 + commonLength ((str.folded fold).drop sc1) (rest.map fold) ∧
      ((compareLoop fold str rest sc1 equal).2 = true ↔
        commonLength ((str.folded fold).drop sc1) (rest.map fold) = rest.length ∧
          (equal = true ∨ rest ≠ [])) := by
  induction rest generalizing sc1 equal with
  | nil =>
      have none : commonLength ((str.folded fold).drop sc1) [] = 0 :=
        Nat.le_zero.mp (common_le _ _).2
      rw [compareLoop, List.map_nil, none]
      exact ⟨rfl, fun same => ⟨rfl, Or.inl same⟩, fun both => both.2.resolve_right fun some => some rfl⟩
  | cons byte rest ih =>
      obtain ⟨nonzero, later⟩ := not_or.mp (List.mem_cons.not.mp clean)
      rw [compareLoop, List.map_cons, List.length_cons]
      by_cases inside : sc1 < str.bytes.length
      · rw [folded_drop inside, commonLength]
        split
        · obtain ⟨ends, equals⟩ := ih later (sc1 + 1) true
          rw [ends, equals, Nat.add_right_cancel_iff]
          refine ⟨by omega, ?_⟩
          exact ⟨fun both => ⟨both.1, Or.inr (List.cons_ne_nil _ _)⟩, fun both => ⟨both.1, Or.inl rfl⟩⟩
        · exact ⟨rfl, nofun, fun both => absurd both.1 (Nat.succ_ne_zero _).symm⟩
      · have zero : str.byteAt sc1 = 0 := by
          by_contra some
          exact inside (byteAt_inside.mp some)
        have empty : (str.folded fold).drop sc1 = [] := by
          apply List.drop_eq_nil_of_le
          rw [CStr.folded, List.length_map]
          exact Nat.le_of_not_lt inside
        rw [zero, if_neg fun same => nonzero (faithful byte same).symm, empty]
        exact ⟨rfl, nofun, fun both => absurd both.1 (Nat.succ_ne_zero _).symm⟩

end Compare

section Search

variable {fold : UInt8 → UInt8} (faithful : Faithful fold) {s1 s2 : CStr} {n : Nat}

theorem occurs_matched {place : Nat} (inside : place ≤ s1.bytes.length) :
    Occurs fold s1 s2 place ↔ matched fold s1 s2 place = s2.bytes.length := by
  have size : (s2.folded fold).length = s2.bytes.length := List.length_map fold
  rw [matched, ← size, common_full, Occurs]
  exact and_iff_right inside

/-- A place that matches up to the end of the string is the last that an occurrence could be at. -/
theorem occurs_bound {place : Nat} (occurs : Occurs fold s1 s2 place) :
    place + s2.bytes.length ≤ s1.bytes.length := by
  have size := occurs.2.length_le
  rw [List.length_drop, CStr.folded, CStr.folded, List.length_map, List.length_map] at size
  have inside := occurs.1
  omega

theorem matched_le (place : Nat) : matched fold s1 s2 place ≤ s1.bytes.length - place := by
  have size := (common_le ((s1.folded fold).drop place) (s2.folded fold)).1
  rwa [List.length_drop, CStr.folded, List.length_map] at size

include faithful

/-- A turn that is entered at a place: the place is found, or the search goes on behind it. -/
theorem turn_eq (nonempty : s2.bytes ≠ []) {turns sc1 place : Nat}
    (enters : s1.byteAt sc1 ≠ 0 ∧ sc1 < place + n) :
    searchLoop fold s1 s2 n (turns + 1) sc1 place false =
      if matched fold s1 s2 place = s2.bytes.length then some (some place)
      else searchLoop fold s1 s2 n turns (place + matched fold s1 s2 place) (place + 1) false := by
  obtain ⟨ends, equals⟩ := compare_spec faithful s1 s2.terminated place false
  have full : (compareLoop fold s1 s2.bytes place false).2 = true ↔
      matched fold s1 s2 place = s2.bytes.length := by
    rw [equals]
    exact and_iff_left (Or.inr nonempty)
  rw [searchLoop, if_pos enters]
  cases compared : compareLoop fold s1 s2.bytes place false with
  | mk sc1 equal =>
      rw [compared] at ends full
      dsimp only at ends full ⊢
      cases equal with
      | true => rw [if_pos rfl, if_pos (full.mp rfl)]
      | false =>
          rw [if_neg Bool.false_ne_true, if_neg fun all => Bool.false_ne_true (full.mpr all), ends]
          rfl

/-- From a place on, the first occurrence is found unless an earlier place matches more than `n` bytes. -/
theorem search_from (nonempty : s2.bytes ≠ []) {turns sc1 place : Nat} (inside : place ≤ s1.bytes.length)
    (enough : s1.bytes.length < turns + place) (enters : s1.byteAt sc1 ≠ 0 ∧ sc1 < place + n) :
    ∃ result, searchLoop fold s1 s2 n (turns + 1) sc1 place false = some result ∧
      ∀ found, result = some found ↔ place ≤ found ∧ Occurs fold s1 s2 found ∧
        ∀ earlier, place ≤ earlier → earlier < found →
          ¬ Occurs fold s1 s2 earlier ∧ matched fold s1 s2 earlier ≤ n := by
  induction turns generalizing sc1 place with
  | zero => omega
  | succ turns ih =>
      rw [turn_eq faithful nonempty enters]
      split
      · next full =>
          have here := (occurs_matched inside).mpr full
          refine ⟨some place, rfl, fun found => ⟨?_, ?_⟩⟩
          · rintro ⟨⟩
            exact ⟨Nat.le_refl _, here, fun earlier above below => absurd below (Nat.not_lt_of_le above)⟩
          · rintro ⟨above, occurs, none⟩
            rcases Nat.lt_or_eq_of_le above with later | same
            · exact absurd here (none place (Nat.le_refl _) later).1
            · rw [same]
      · next part =>
          have missing : ¬ Occurs fold s1 s2 place := fun here => part ((occurs_matched inside).mp here)
          -- Nothing is found behind the place when the outer loop ends here.
          have stopped (ends : ∀ found, place < found → Occurs fold s1 s2 found →
              n < matched fold s1 s2 place) (found : Nat) :
              (none = some found ↔ place ≤ found ∧ Occurs fold s1 s2 found ∧
                ∀ earlier, place ≤ earlier → earlier < found →
                  ¬ Occurs fold s1 s2 earlier ∧ matched fold s1 s2 earlier ≤ n) := by
            refine iff_of_false nofun fun holds => ?_
            obtain ⟨above, occurs, none⟩ := holds
            rcases Nat.lt_or_eq_of_le above with later | same
            · exact absurd (ends found later occurs) (Nat.not_lt_of_le (none place (Nat.le_refl _) later).2)
            · exact missing (same ▸ occurs)
          by_cases goes : s1.byteAt (place + matched fold s1 s2 place) ≠ 0 ∧
              place + matched fold s1 s2 place < place + 1 + n
          · have shorter := byteAt_inside.mp goes.1
            obtain ⟨result, done, spec⟩ := ih (by omega) (by omega) goes
            refine ⟨result, done, fun found => (spec found).trans ?_⟩
            constructor
            · rintro ⟨above, occurs, none⟩
              refine ⟨Nat.le_of_succ_le above, occurs, fun earlier from_here below => ?_⟩
              rcases Nat.lt_or_eq_of_le from_here with later | same
              · exact none earlier later below
              · rw [← same]
                exact ⟨missing, by omega⟩
            · rintro ⟨above, occurs, none⟩
              have different : place ≠ found := fun same => missing (same ▸ occurs)
              exact ⟨by omega, occurs, fun earlier from_here => none earlier (by omega)⟩
          · refine ⟨none, ?_, stopped fun found later occurs => ?_⟩
            · rw [searchLoop, if_neg goes]
            · have bound := occurs_bound occurs
              have size := @matched_le fold s1 s2 place
              by_contra few
              apply goes
              refine ⟨byteAt_inside.mpr ?_, by omega⟩
              have short : matched fold s1 s2 place < s2.bytes.length :=
                Nat.lt_of_le_of_ne
                  ((common_le _ _).2.trans_eq (List.length_map fold)) part
              omega

omit faithful in
/-- The empty string is not found: `equal` stays 0, and `sc1` is one place behind. -/
theorem search_empty (empty : s2.bytes = []) {turns sc1 : Nat} (enough : s1.bytes.length ≤ turns + sc1) :
    searchLoop fold s1 s2 n (turns + 1) sc1 (sc1 + 1) false = some none := by
  induction turns generalizing sc1 with
  | zero =>
      have outside : ¬ s1.byteAt sc1 ≠ 0 := fun inside => by
        have bound := byteAt_inside.mp inside
        omega
      rw [searchLoop, if_neg fun both => outside both.1]
  | succ turns ih =>
      rw [searchLoop]
      split
      · rw [empty, compareLoop]
        exact ih (by omega)
      · rfl

omit faithful in
theorem occurs_empty (empty : s2.bytes = []) : OccursFirst fold s1 s2 0 := by
  refine ⟨⟨Nat.zero_le _, ?_⟩, fun earlier below => absurd below (Nat.not_lt_zero _)⟩
  rw [CStr.folded, empty]
  exact List.nil_prefix

/-- The search always ends, and finds what it should just where it reaches it. -/
theorem search_reaches (s1 s2 : CStr) (n : Nat) : ∃ result, search fold s1 s2 n = some result ∧
    (Finds fold s1 s2 n result ↔ Reaches fold s1 s2 n) := by
  rw [search]
  by_cases enters : s1.byteAt 0 ≠ 0 ∧ 0 < 0 + n
  · have some : n ≠ 0 := by omega
    by_cases empty : s2.bytes = []
    · refine ⟨none, ?_, iff_of_false (fun finds => ?_) fun reaches => ?_⟩
      · rw [searchLoop, if_pos enters, empty, compareLoop]
        exact search_empty empty (by omega)
      · have first := (finds 0).mpr ⟨Nat.pos_of_ne_zero some, occurs_empty empty⟩
        cases first
      · rcases reaches with zero | ⟨nonempty, _⟩
        · exact some zero
        · exact nonempty empty
    · obtain ⟨result, done, spec⟩ := @search_from fold faithful s1 s2 n empty (s1.bytes.length + 1) 0 0
        (Nat.zero_le s1.bytes.length) (by omega) enters
      refine ⟨result, done, ?_⟩
      have found (place : Nat) : result = Option.some place ↔ OccursFirst fold s1 s2 place ∧
          ¬ ∃ earlier < place, n < matched fold s1 s2 earlier := by
        rw [spec]
        constructor
        · rintro ⟨-, occurs, none⟩
          refine ⟨⟨occurs, fun earlier below => (none earlier (Nat.zero_le _) below).1⟩, ?_⟩
          rintro ⟨earlier, below, more⟩
          exact Nat.not_lt_of_le (none earlier (Nat.zero_le _) below).2 more
        · rintro ⟨⟨occurs, first⟩, none⟩
          refine ⟨Nat.zero_le _, occurs, fun earlier _ below => ⟨first earlier below, ?_⟩⟩
          exact Nat.le_of_not_lt fun more => none ⟨earlier, below, more⟩
      rw [Reaches, or_iff_right some, and_iff_right empty, Finds]
      refine forall_congr' fun place => ?_
      rw [found]
      by_cases first : OccursFirst fold s1 s2 place
      · rw [and_iff_right first, and_iff_left first, ← Nat.not_le, not_iff_not, imp_iff_right first]
        exact Iff.comm
      · exact iff_of_true ⟨fun both => absurd both.1 first, fun both => absurd both.2 first⟩
          fun holds => absurd holds first
  · refine ⟨none, by rw [searchLoop, if_neg enters], ?_⟩
    by_cases zero : n = 0
    · exact iff_of_true (fun place => iff_of_false nofun fun both => by omega) (Or.inl zero)
    · have short : s1.bytes.length = 0 := by
        by_contra some
        exact enters ⟨byteAt_inside.mpr (Nat.pos_of_ne_zero some), by omega⟩
      by_cases empty : s2.bytes = []
      · refine iff_of_false (fun finds => ?_) fun reaches => ?_
        · have first := (finds 0).mpr ⟨Nat.pos_of_ne_zero zero, occurs_empty empty⟩
          cases first
        · rcases reaches with none | ⟨nonempty, _⟩
          · exact zero none
          · exact nonempty empty
      · have nowhere (place : Nat) : ¬ OccursFirst fold s1 s2 place := by
          intro first
          have bound := occurs_bound first.1
          have some := List.length_pos_of_ne_nil empty
          omega
        refine iff_of_true (fun place => iff_of_false nofun fun both => nowhere place both.2) ?_
        exact Or.inr ⟨empty, fun place first => absurd first (nowhere place)⟩

end Search

section Members

theorem id_faithful : Faithful id := fun _ same => same.symm

theorem tolower_faithful : Faithful tolower := by
  intro byte same
  have zero : tolower 0 = 0 := by decide
  rw [zero, tolower] at same
  split at same
  · next capital =>
      have low := UInt8.le_iff_toNat_le.mp capital.1
      have high := UInt8.le_iff_toNat_le.mp capital.2
      have sum := congrArg UInt8.toNat same
      rw [UInt8.toNat_add] at sum
      simp only [UInt8.toNat_ofNat] at low high sum
      omega
  · exact same.symm

/-- Both searches end with a result, which is the right one exactly where the first occurrence is out of
the range just when an earlier place matches more than `n` bytes. -/
theorem strnpbrk_finds (s1 s2 : CStr) (n : Nat) :
    (∃ result, strnpbrk s1 s2 n = some result ∧ (Finds id s1 s2 n result ↔ Reaches id s1 s2 n)) ∧
      ∃ result, strnpcasebrk s1 s2 n = some result ∧
        (Finds tolower s1 s2 n result ↔ Reaches tolower s1 s2 n) :=
  ⟨search_reaches id_faithful s1 s2 n, search_reaches tolower_faithful s1 s2 n⟩

/-- `"xab"` with the NUL behind it. -/
def xab : CStr := ⟨[0x78, 0x61, 0x62], by decide⟩

def ab : CStr := ⟨[0x61, 0x62], by decide⟩

/-- One place is to be searched, and the second one is found. -/
theorem strnpbrk_behind :
    strnpbrk xab ab 1 = some (some 1) ∧
      ¬ ∀ (s1 s2 : CStr) (n : Nat), ∃ result, strnpbrk s1 s2 n = some result ∧ Finds id s1 s2 n result := by
  have done : strnpbrk xab ab 1 = some (some 1) := by decide
  refine ⟨done, fun all => ?_⟩
  obtain ⟨result, same, finds⟩ := all xab ab 1
  obtain rfl := Option.some.inj (done.symm.trans same)
  exact absurd ((finds 1).mp rfl).1 (Nat.lt_irrefl 1)

/-- `"aaab"` in `"aaaab"` is at the second of two places, and is not found. -/
example : strnpbrk ⟨[0x61, 0x61, 0x61, 0x61, 0x62], by decide⟩ ⟨[0x61, 0x61, 0x61, 0x62], by decide⟩ 2 =
    some none := by decide

end Members

end Upst.UrlFind
