import Mathlib.Data.Finmap

/-!
A finite map and a list of its entries, one for each key. What is done to the list by
adding an entry, or by dropping those of a key, is an insertion or an erasure of the map.
-/

namespace Upst.Entries

set_option autoImplicit false

variable {Key Value : Type} [DecidableEq Key] {map : Finmap fun _ : Key => Value}
  {entries : List (Key × Value)}

def SameEntries (map : Finmap fun _ : Key => Value) (entries : List (Key × Value)) : Prop :=
  ∀ key value, map.lookup key = some value ↔ (key, value) ∈ entries

theorem same_empty : SameEntries (∅ : Finmap fun _ : Key => Value) [] := by
  intro key value
  simp

theorem same_mem (same : SameEntries map entries) (key : Key) :
    key ∈ map ↔ key ∈ entries.map Prod.fst := by
  rw [Finmap.mem_iff, List.mem_map]
  constructor
  · rintro ⟨value, found⟩
    exact ⟨(key, value), (same key value).mp found, rfl⟩
  · rintro ⟨⟨other, value⟩, member, rfl⟩
    exact ⟨value, (same other value).mpr member⟩

theorem same_card (same : SameEntries map entries) (distinct : (entries.map Prod.fst).Nodup) :
    map.keys.card = entries.length := by
  have keys : map.keys = (entries.map Prod.fst).toFinset := by
    ext key
    rw [Finmap.mem_keys, same_mem same, List.mem_toFinset]
  rw [keys, List.toFinset_card_of_nodup distinct, List.length_map]

theorem same_insert (same : SameEntries map entries) {key : Key} (fresh : key ∉ map) (value : Value) :
    SameEntries (map.insert key value) ((key, value) :: entries) := by
  intro other found
  rw [List.mem_cons, Prod.mk.injEq]
  by_cases here : other = key
  · subst here
    have absent : (other, found) ∉ entries := fun member =>
      fresh ((same_mem same other).mpr (List.mem_map_of_mem member))
    rw [Finmap.lookup_insert, Option.some.injEq, and_iff_right rfl, or_iff_left absent, eq_comm]
  · rw [Finmap.lookup_insert_of_ne _ here, same other found, or_iff_right]
    exact fun equal => here equal.1

theorem same_erase (same : SameEntries map entries) (key : Key) :
    SameEntries (map.erase key) (entries.filter fun entry => entry.1 ≠ key) := by
  intro other found
  rw [List.mem_filter]
  by_cases here : other = key
  · subst here
    simp
  · rw [Finmap.lookup_erase_ne here, same other found]
    simp [here]

/-- Where the keys are distinct, an element goes with the only one that has its key. -/
theorem erase_eq_filter_key {Node : Type} [DecidableEq Node] (key : Node → Key) {nodes : List Node}
    (distinct : (nodes.map key).Nodup) {p : Node} (member : p ∈ nodes) :
    nodes.erase p = nodes.filter fun q => key q ≠ key p := by
  rw [(List.Nodup.of_map key distinct).erase_eq_filter]
  apply List.filter_congr
  intro q inside
  have same : q = p ↔ key q = key p :=
    ⟨congrArg key, List.inj_on_of_nodup_map distinct inside member⟩
  by_cases equal : q = p
  · simp [equal]
  · simp [equal, same.not.mp equal]

/-- A search of the nodes for a key is a look into the map. -/
theorem lookup_find {Node : Type} {key : Node → Key} {value : Node → Value} {nodes : List Node}
    (same : SameEntries map (nodes.map fun p => (key p, value p))) (pKey : Key) :
    map.lookup pKey = (nodes.find? fun p => key p = pKey).map value := by
  cases found : nodes.find? fun p => key p = pKey with
  | none =>
      have absent : pKey ∉ map := by
        rw [same_mem same, List.map_map]
        intro member
        obtain ⟨p, inside, holds⟩ := List.mem_map.mp member
        exact List.find?_eq_none.mp found p inside (by simpa using holds)
      exact Finmap.lookup_eq_none.mpr absent
  | some p =>
      have holds : key p = pKey := by simpa using List.find?_some found
      rw [Option.map_some, same, ← holds]
      exact List.mem_map_of_mem (List.mem_of_find?_eq_some found)

theorem same_erase_absent (same : SameEntries map entries) {key : Key} (absent : key ∉ map) :
    SameEntries (map.erase key) entries := by
  intro other found
  by_cases here : other = key
  · subst here
    rw [Finmap.lookup_erase, ← same other found, Finmap.lookup_eq_none.mpr absent]
  · rw [Finmap.lookup_erase_ne here, same other found]

end Upst.Entries
