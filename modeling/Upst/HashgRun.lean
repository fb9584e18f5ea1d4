import Upst.HashgStore
import Upst.Entries
import Upst.Refine

/-!
A table of pointers as a bounded finite map. What each call does is given as the table after
it; where no key is held twice, every sequence of calls is answered as by the map.
-/

namespace Upst.Hashg

open Word Chain Entries Refine

set_option autoImplicit false

variable {Key Data : Type}

section Tables

variable {info info' : HashgInfo Key Data} {live : List Nat} {p : Nat} {pKey : Key}
  {pData : Data}

/-- The table with a new loose node. -/
def allocated (info : HashgInfo Key Data) (p : Nat) (pKey : Key) (pData : Data) :
    HashgInfo Key Data :=
  { info with
    node := Function.update info.node p ⟨0, .null, pKey, pData⟩
    alloced := p :: info.alloced }

def keyed (info : HashgInfo Key Data) (p : Nat) (pKey : Key) : HashgInfo Key Data :=
  { info with node := Function.update info.node p { info.node p with pstKey := pKey } }

/-- The table after `hashg_add`. -/
def added (info : HashgInfo Key Data) (p : Nat) (pKey : Key) (pData : Data) : HashgInfo Key Data :=
  linkedAt (allocated info p pKey pData) p (info.func pKey)

/-- The table after `hashg_del`. -/
def deleted (info : HashgInfo Key Data) (p : Nat) : HashgInfo Key Data :=
  { unlinked info p with alloced := info.alloced.erase p }

/-- The table after a node was linked again with another key. -/
def rekeyed (info : HashgInfo Key Data) (p : Nat) (pKey : Key) : HashgInfo Key Data :=
  linkedAt (unlinked (keyed info p pKey) p) p (info.func pKey)

theorem free_linked (linked : Linked info live) (loose : p ∉ live) :
    Linked { info with alloced := info.alloced.erase p } live := by
  refine linked_congr linked (fun _ _ => rfl) ?_ rfl rfl rfl rfl
  intro q member
  have other : q ≠ p := by
    rintro rfl
    exact loose member
  exact (List.mem_erase_of_ne other).mpr (linked.alloced q member)

theorem added_linked (linked : Linked info live) (fresh : p ∉ info.alloced) (positive : p ≠ 0)
    (inRange : info.func pKey < info.uiHashSize) (room : live.length + 1 < 2 ^ 32) (pData : Data) :
    hashgLinkNode (allocated info p pKey pData) p = some (added info p pKey pData) ∧
      Linked (added info p pKey pData) (p :: live) := by
  have loose : p ∉ live := fun member => fresh (linked.alloced p member)
  have before : Linked (allocated info p pKey pData) live := by
    refine linked_congr linked ?_ (fun q member => .tail _ (linked.alloced q member)) rfl rfl rfl rfl
    intro q member
    have other : q ≠ p := by
      rintro rfl
      exact loose member
    exact Function.update_of_ne other ..
  have key : ((allocated info p pKey pData).node p).pstKey = pKey := by
    simp [allocated]
  have link := link_stores before loose positive List.mem_cons_self (by rw [key]; exact inRange) room
  rw [key] at link
  exact link

theorem deleted_linked (linked : Linked info live) (member : p ∈ live) :
    hashgDel info p = some (deleted info p) ∧ Linked (deleted info p) (live.erase p) := by
  obtain ⟨unlink, after⟩ := unlink_stores linked member
  have loose : p ∉ live.erase p := fun inside => (linked.distinct.mem_erase_iff.mp inside).1 rfl
  refine ⟨?_, free_linked after loose⟩
  rw [hashgDel, unlink]
  exact if_pos (linked.alloced p member)

/-- The key of a node plays no part in unlinking it. -/
theorem unlinked_keyed (info : HashgInfo Key Data) (p : Nat) (pKey : Key) :
    unlinked (keyed info p pKey) p = keyed (unlinked info p) p pKey := by
  have own : (keyed info p pKey).node p = { info.node p with pstKey := pKey } :=
    Function.update_self ..
  simp only [unlinked, own]
  simp only [keyed, HashgInfo.mk.injEq, true_and, and_true]
  funext q
  by_cases same : q = p
  · simp [same]
  · simp [same]

theorem keyed_unlinked (linked : Linked info live) (member : p ∈ live) (pKey : Key) :
    info.setKey p pKey = some (keyed info p pKey) ∧
      hashgUnlinkNode (keyed info p pKey) p = some (unlinked (keyed info p pKey) p) ∧
        Linked (unlinked (keyed info p pKey) p) (live.erase p) := by
  obtain ⟨-, after⟩ := unlink_stores linked member
  have loose : p ∉ live.erase p := fun inside => (linked.distinct.mem_erase_iff.mp inside).1 rfl
  have around : Neighbours (keyed info p pKey) live p := by
    obtain ⟨prev, next⟩ := neighbours linked member
    have own : (keyed info p pKey).node p = { info.node p with pstKey := pKey } :=
      Function.update_self ..
    exact ⟨by rw [own]; exact prev, by rw [own]; exact next⟩
  refine ⟨if_pos (linked.alloced p member), unlink_unlinked linked.alloced member around, ?_⟩
  rw [unlinked_keyed]
  refine linked_congr after ?_ after.alloced rfl rfl rfl rfl
  intro q inside
  have other : q ≠ p := by
    rintro rfl
    exact loose inside
  exact Function.update_of_ne other ..

theorem rekeyed_linked (linked : Linked info live) (member : p ∈ live)
    (inRange : info.func pKey < info.uiHashSize) :
    hashgLinkNode (unlinked (keyed info p pKey) p) p = some (rekeyed info p pKey) ∧
      Linked (rekeyed info p pKey) (p :: live.erase p) := by
  obtain ⟨-, -, before⟩ := keyed_unlinked linked member pKey
  have loose : p ∉ live.erase p := fun inside => (linked.distinct.mem_erase_iff.mp inside).1 rfl
  have key : ((unlinked (keyed info p pKey) p).node p).pstKey = pKey := by
    simp [unlinked, keyed]
  have shorter : (live.erase p).length + 1 < 2 ^ 32 := by
    have positive := List.length_pos_of_mem member
    have small := linked.small
    rw [List.length_erase_of_mem member]
    omega
  have link := link_stores before loose (linked.positive p member) (linked.alloced p member)
    (by rw [key]; exact inRange) shorter
  rw [key] at link
  exact link

theorem rekey_rekeyed (linked : Linked info live) (member : p ∈ live)
    (inRange : info.func pKey < info.uiHashSize) :
    hashgRekey info p pKey = some (rekeyed info p pKey) := by
  obtain ⟨setKey, unlink, -⟩ := keyed_unlinked linked member pKey
  rw [hashgRekey, setKey]
  simp only [Option.bind_eq_bind, Option.bind_some, unlink]
  exact (rekeyed_linked linked member inRange).1

theorem added_own (info : HashgInfo Key Data) (p : Nat) (pKey : Key) (pData : Data) :
    ((added info p pKey pData).node p).pstKey = pKey ∧
      ((added info p pKey pData).node p).pstData = pData := by
  simp [added, linkedAt, allocated]

theorem added_other {q : Nat} (other : q ≠ p) :
    ((added info p pKey pData).node q).pstKey = (info.node q).pstKey ∧
      ((added info p pKey pData).node q).pstData = (info.node q).pstData := by
  simp [added, linkedAt, allocated, other]

theorem rekeyed_own (info : HashgInfo Key Data) (p : Nat) (pKey : Key) :
    ((rekeyed info p pKey).node p).pstKey = pKey ∧
      ((rekeyed info p pKey).node p).pstData = (info.node p).pstData := by
  simp [rekeyed, linkedAt, unlinked, keyed]

theorem rekeyed_other {q : Nat} (other : q ≠ p) :
    ((rekeyed info p pKey).node q).pstKey = (info.node q).pstKey ∧
      ((rekeyed info p pKey).node q).pstData = (info.node q).pstData := by
  simp [rekeyed, linkedAt, unlinked, keyed, other]

theorem init_linked (func : Key → Nat) (uiHashSize maxNodeCnt : Nat) (heap : Nat → HashgNode Key Data) :
    Linked (hashgSetMaxNodeCnt (hashgInit func uiHashSize heap) maxNodeCnt) [] := by
  refine ⟨List.nodup_nil, by simp, by simp, by simp, rfl, by simp, ?_⟩
  intro index bound
  rfl

/-- The keys of the linked nodes, each with its node and data. -/
def HashgInfo.entries (info : HashgInfo Key Data) (live : List Nat) : List (Key × (Nat × Data)) :=
  live.map fun p => ((info.node p).pstKey, (p, (info.node p).pstData))

theorem entries_keys (info : HashgInfo Key Data) (live : List Nat) :
    (info.entries live).map Prod.fst = live.map fun p => (info.node p).pstKey := by
  simp [HashgInfo.entries]

end Tables

section Add

variable [DecidableEq Key] {info : HashgInfo Key Data} {live : List Nat} {pKey : Key}
  {place : Option Nat}

theorem add_full (full : info.maxNodeCnt ≤ info.uiLinkedCnt) (pKey : Key) (pData : Data)
    (place : Option Nat) : hashgAdd info pKey pData place = some (none, info) := if_pos full

theorem add_found (linked : Linked info live) (inRange : info.func pKey < info.uiHashSize)
    (present : (live.find? fun p => (info.node p).pstKey = pKey) ≠ none) (pData : Data)
    (place : Option Nat) : hashgAdd info pKey pData place = some (none, info) := by
  obtain ⟨q, found⟩ := Option.ne_none_iff_exists'.mp present
  simp [hashgAdd, find_spec linked inRange, found]

theorem add_absent (linked : Linked info live) (inRange : info.func pKey < info.uiHashSize)
    (word : info.maxNodeCnt < 2 ^ 32) (notFull : ¬info.maxNodeCnt ≤ info.uiLinkedCnt)
    (absent : (live.find? fun p => (info.node p).pstKey = pKey) = none) (pData : Data)
    (fresh : ∀ p ∈ place, p ≠ 0 ∧ p ∉ info.alloced) :
    hashgAdd info pKey pData place =
      some (place, place.elim info fun p => added info p pKey pData) := by
  cases place with
  | none => simp [hashgAdd, notFull, find_spec linked inRange, absent]
  | some p =>
      obtain ⟨positive, unused⟩ := fresh p rfl
      have room : live.length + 1 < 2 ^ 32 := by
        rw [linked.count] at notFull
        omega
      have links := (added_linked linked unused positive inRange room pData).1
      rw [allocated] at links
      simp [hashgAdd, notFull, find_spec linked inRange, absent, positive, unused, links]

/-- A node is added, or nothing changes. -/
theorem add_cases (linked : Linked info live) (inRange : info.func pKey < info.uiHashSize)
    (word : info.maxNodeCnt < 2 ^ 32) (pData : Data)
    (fresh : ∀ p ∈ place, p ≠ 0 ∧ p ∉ info.alloced) :
    hashgAdd info pKey pData place = some (none, info) ∨
      ∃ p, place = some p ∧ live.length < info.maxNodeCnt ∧
        hashgAdd info pKey pData place = some (some p, added info p pKey pData) := by
  by_cases full : info.maxNodeCnt ≤ info.uiLinkedCnt
  · exact Or.inl (add_full full pKey pData place)
  · by_cases absent : (live.find? fun p => (info.node p).pstKey = pKey) = none
    · have adds := add_absent linked inRange word full absent pData fresh
      cases place with
      | none => exact Or.inl adds
      | some p => exact Or.inr ⟨p, rfl, by rw [← linked.count]; omega, adds⟩
    · exact Or.inl (add_found linked inRange absent pData place)

end Add

section Specification

variable [DecidableEq Key]

/-- Under every key the node that holds it, and its data. -/
abbrev Contents (Key Data : Type) := Finmap fun _ : Key => Nat × Data

def specStep (maxNodeCnt : Nat) (map : Contents Key Data) :
    Op Key Data → Answer Data × Contents Key Data
  | .add pKey pData place =>
      if pKey ∈ map ∨ maxNodeCnt ≤ map.keys.card then (.added none, map)
      else
        match place with
        | none => (.added none, map)
        | some p => (.added (some p), map.insert pKey (p, pData))
  | .find pKey => (.found (map.lookup pKey), map)
  | .del _ pKey => (.done, map.erase pKey)
  | .delFromKey pKey => (.done, map.erase pKey)
  | .rekey pKey newKey =>
      match map.lookup pKey with
      | none => (.done, map)
      | some entry => (.done, (map.erase pKey).insert newKey entry)

/-- `malloc` returns a block that no entry is in, a node is deleted by its own address, and no
other entry holds the new key. -/
def Accepts (map : Contents Key Data) : Op Key Data → Prop
  | .add _ _ place => ∀ p ∈ place, p ≠ 0 ∧ ∀ key ∈ map.keys, (map.lookup key).map Prod.fst ≠ some p
  | .find _ => True
  | .del p pKey => (map.lookup pKey).map Prod.fst = some p
  | .delFromKey _ => True
  | .rekey pKey newKey => newKey = pKey ∨ newKey ∉ map

instance (map : Contents Key Data) : (op : Op Key Data) → Decidable (Accepts map op)
  | .add _ _ place => inferInstanceAs (Decidable (∀ p ∈ place, p ≠ 0 ∧
      ∀ key ∈ map.keys, (map.lookup key).map Prod.fst ≠ some p))
  | .find _ => isTrue trivial
  | .del p pKey => inferInstanceAs (Decidable ((map.lookup pKey).map Prod.fst = some p))
  | .delFromKey _ => isTrue trivial
  | .rekey pKey newKey => inferInstanceAs (Decidable (newKey = pKey ∨ newKey ∉ map))

end Specification

section Agreement

variable [DecidableEq Key] {info : HashgInfo Key Data} {map : Contents Key Data}
  {live : List Nat} {pKey : Key}

/-- The table whose linked nodes, which are all the blocks, hold the entries of the map. -/
structure Holds (info : HashgInfo Key Data) (map : Contents Key Data) (live : List Nat) : Prop where
  linked : Linked info live
  blocks : info.alloced.Perm live
  keys : (live.map fun p => (info.node p).pstKey).Nodup
  same : SameEntries map (info.entries live)

/-- A table of given size, capacity and hash function that holds the entries of the map. -/
structure Matches (func : Key → Nat) (uiHashSize maxNodeCnt : Nat) (info : HashgInfo Key Data)
    (map : Contents Key Data) : Prop where
  func : info.func = func
  size : info.uiHashSize = uiHashSize
  max : info.maxNodeCnt = maxNodeCnt
  stored : ∃ live, Holds info map live

theorem holds_card (holds : Holds info map live) : map.keys.card = live.length := by
  rw [same_card holds.same (by rw [entries_keys]; exact holds.keys), HashgInfo.entries,
    List.length_map]

/-- The node of an entry is linked and holds its key and data. -/
theorem entry_linked (holds : Holds info map live) {entry : Nat × Data}
    (found : map.lookup pKey = some entry) :
    entry.1 ∈ live ∧ (info.node entry.1).pstKey = pKey ∧ (info.node entry.1).pstData = entry.2 := by
  obtain ⟨p, member, same⟩ := List.mem_map.mp ((holds.same pKey entry).mp found)
  obtain ⟨rfl, rfl⟩ := Prod.mk.inj same
  exact ⟨member, rfl, rfl⟩

theorem find_holds (holds : Holds info map live) (inRange : info.func pKey < info.uiHashSize) :
    hashgFind info pKey = some ((map.lookup pKey).map Prod.fst) := by
  rw [find_spec holds.linked inRange, lookup_find holds.same]
  simp [Option.map_map, Function.comp_def]

theorem erase_holds (holds : Holds info map live) {p : Nat} (member : p ∈ live)
    (own : (info.node p).pstKey = pKey) :
    SameEntries (map.erase pKey) (info.entries (live.erase p)) := by
  have erased : info.entries (live.erase p) =
      (info.entries live).filter fun entry => entry.1 ≠ pKey := by
    rw [erase_eq_filter_key (fun p => (info.node p).pstKey) holds.keys member, own,
      HashgInfo.entries, HashgInfo.entries, List.filter_map]
    rfl
  rw [erased]
  exact same_erase holds.same pKey

theorem deleted_holds (holds : Holds info map live) {p : Nat} (member : p ∈ live)
    (own : (info.node p).pstKey = pKey) :
    hashgDel info p = some (deleted info p) ∧
      Holds (deleted info p) (map.erase pKey) (live.erase p) := by
  obtain ⟨deletes, after⟩ := deleted_linked holds.linked member
  exact ⟨deletes, after, holds.blocks.erase p, holds.keys.sublist (List.erase_sublist.map _),
    erase_holds holds member own⟩

theorem added_holds (holds : Holds info map live) (absent : pKey ∉ map) {p : Nat} (pData : Data)
    (fresh : p ∉ info.alloced) (positive : p ≠ 0) (inRange : info.func pKey < info.uiHashSize)
    (room : live.length + 1 < 2 ^ 32) :
    Holds (added info p pKey pData) (map.insert pKey (p, pData)) (p :: live) := by
  have after := (added_linked holds.linked fresh positive inRange room pData).2
  have loose : p ∉ live := fun member => fresh (holds.linked.alloced p member)
  have own := added_own info p pKey pData
  have others : ∀ q ∈ live, ((added info p pKey pData).node q).pstKey = (info.node q).pstKey ∧
      ((added info p pKey pData).node q).pstData = (info.node q).pstData := by
    intro q member
    refine added_other ?_
    rintro rfl
    exact loose member
  have entries : (added info p pKey pData).entries (p :: live) =
      (pKey, (p, pData)) :: info.entries live := by
    rw [HashgInfo.entries, List.map_cons, own.1, own.2]
    refine congrArg _ (List.map_congr_left fun q member => ?_)
    rw [(others q member).1, (others q member).2]
  refine ⟨after, holds.blocks.cons p, ?_, ?_⟩
  · rw [← entries_keys, entries, List.map_cons, entries_keys]
    refine List.nodup_cons.mpr ⟨?_, holds.keys⟩
    rwa [← entries_keys, ← same_mem holds.same]
  · rw [entries]
    exact same_insert holds.same absent (p, pData)

theorem rekeyed_holds (holds : Holds info map live) {p : Nat} {pData : Data} {newKey : Key}
    (found : map.lookup pKey = some (p, pData)) (free : newKey = pKey ∨ newKey ∉ map)
    (inRange : info.func newKey < info.uiHashSize) :
    hashgRekey info p newKey = some (rekeyed info p newKey) ∧
      Holds (rekeyed info p newKey) ((map.erase pKey).insert newKey (p, pData))
        (p :: live.erase p) := by
  obtain ⟨member, own, data⟩ := entry_linked holds found
  have after := (rekeyed_linked holds.linked member inRange).2
  have own' := rekeyed_own info p newKey
  rw [data] at own'
  have others : ∀ q ∈ live.erase p,
      ((rekeyed info p newKey).node q).pstKey = (info.node q).pstKey ∧
        ((rekeyed info p newKey).node q).pstData = (info.node q).pstData := fun q inside =>
    rekeyed_other (holds.linked.distinct.mem_erase_iff.mp inside).1
  have entries : (rekeyed info p newKey).entries (p :: live.erase p) =
      (newKey, (p, pData)) :: info.entries (live.erase p) := by
    rw [HashgInfo.entries, List.map_cons, own'.1, own'.2]
    refine congrArg _ (List.map_congr_left fun q inside => ?_)
    rw [(others q inside).1, (others q inside).2]
  have erased := erase_holds holds member own
  have absent : newKey ∉ map.erase pKey := by
    rw [Finmap.mem_erase]
    rintro ⟨other, inside⟩
    exact free.elim other fun outside => outside inside
  refine ⟨rekey_rekeyed holds.linked member inRange, after, ?_, ?_, ?_⟩
  · exact holds.blocks.trans (List.perm_cons_erase member)
  · rw [← entries_keys, entries, List.map_cons, entries_keys]
    refine List.nodup_cons.mpr ⟨?_, holds.keys.sublist (List.erase_sublist.map _)⟩
    rwa [← entries_keys, ← same_mem erased]
  · rw [entries]
    exact same_insert erased absent (p, pData)

end Agreement

section Steps

variable [DecidableEq Key] {func : Key → Nat} {uiHashSize maxNodeCnt : Nat}
  {info : HashgInfo Key Data} {map : Contents Key Data}

theorem add_matches (inv : Matches func uiHashSize maxNodeCnt info map)
    (inRange : ∀ key, func key < uiHashSize) (word : maxNodeCnt < 2 ^ 32) {pKey : Key} {pData : Data}
    {place : Option Nat} (accepts : Accepts map (.add pKey pData place)) :
    ∃ after, info.step (.add pKey pData place) =
        some ((specStep maxNodeCnt map (.add pKey pData place)).1, after) ∧
      Matches func uiHashSize maxNodeCnt after
        (specStep maxNodeCnt map (.add pKey pData place)).2 := by
  obtain ⟨rfl, rfl, rfl, live, holds⟩ := inv
  have card := holds_card holds
  have known : map.lookup pKey ≠ none ↔ pKey ∈ map := Finmap.lookup_eq_none.not_left
  have count := holds.linked.count
  by_cases refused : pKey ∈ map ∨ info.maxNodeCnt ≤ map.keys.card
  · simp only [specStep, if_pos refused]
    refine ⟨info, ?_, rfl, rfl, rfl, live, holds⟩
    have adds : hashgAdd info pKey pData place = some (none, info) := by
      rcases refused with present | full
      · refine add_found holds.linked (inRange pKey) ?_ pData place
        intro nothing
        rw [lookup_find holds.same, nothing] at known
        exact known.mpr present rfl
      · exact add_full (by rw [count, ← card]; exact full) pKey pData place
    simp [HashgInfo.step, adds]
  · have notFull : ¬info.maxNodeCnt ≤ info.uiLinkedCnt := by
      rw [count, ← card]
      exact (not_or.mp refused).2
    have absent : (live.find? fun p => (info.node p).pstKey = pKey) = none := by
      have nothing := Finmap.lookup_eq_none.mpr (not_or.mp refused).1
      rw [lookup_find holds.same] at nothing
      exact Option.map_eq_none_iff.mp nothing
    have fresh : ∀ p ∈ place, p ≠ 0 ∧ p ∉ info.alloced := by
      intro p given
      obtain ⟨positive, unused⟩ := accepts p given
      refine ⟨positive, ?_⟩
      intro inside
      have member : p ∈ live := holds.blocks.mem_iff.mp inside
      have entry : map.lookup (info.node p).pstKey = some (p, (info.node p).pstData) :=
        (holds.same _ _).mpr (List.mem_map_of_mem member)
      exact unused _ (Finmap.mem_keys.mpr (Finmap.mem_of_lookup_eq_some entry)) (by rw [entry]; rfl)
    have adds := add_absent holds.linked (inRange pKey) word notFull absent pData fresh
    simp only [specStep, if_neg refused]
    cases place with
    | none => exact ⟨info, by simp [HashgInfo.step, adds], rfl, rfl, rfl, live, holds⟩
    | some p =>
        obtain ⟨positive, unused⟩ := fresh p rfl
        have room : live.length + 1 < 2 ^ 32 := by
          rw [count] at notFull
          omega
        have after := added_holds holds (not_or.mp refused).1 pData unused positive (inRange pKey) room
        exact ⟨added info p pKey pData, by simp [HashgInfo.step, adds], rfl, rfl, rfl, p :: live, after⟩

theorem step_matches (inv : Matches func uiHashSize maxNodeCnt info map)
    (inRange : ∀ key, func key < uiHashSize) (word : maxNodeCnt < 2 ^ 32) {op : Op Key Data}
    (accepts : Accepts map op) :
    ∃ after, info.step op = some ((specStep maxNodeCnt map op).1, after) ∧
      Matches func uiHashSize maxNodeCnt after (specStep maxNodeCnt map op).2 := by
  cases op with
  | add pKey pData place => exact add_matches inv inRange word accepts
  | find pKey =>
      obtain ⟨rfl, rfl, rfl, live, holds⟩ := inv
      refine ⟨info, ?_, rfl, rfl, rfl, live, holds⟩
      rw [HashgInfo.step, find_spec holds.linked (inRange pKey), specStep, lookup_find holds.same]
      rfl
  | del p pKey =>
      obtain ⟨rfl, rfl, rfl, live, holds⟩ := inv
      obtain ⟨entry, found, rfl⟩ := Option.map_eq_some_iff.mp accepts
      obtain ⟨member, own, -⟩ := entry_linked holds found
      obtain ⟨deletes, after⟩ := deleted_holds holds member own
      exact ⟨deleted info entry.1, by simp [HashgInfo.step, deletes, specStep], rfl, rfl, rfl, _, after⟩
  | delFromKey pKey =>
      obtain ⟨rfl, rfl, rfl, live, holds⟩ := inv
      have search := find_holds holds (inRange pKey)
      cases found : map.lookup pKey with
      | none =>
          have kept := same_erase_absent holds.same (Finmap.lookup_eq_none.mp found)
          exact ⟨info, by simp [HashgInfo.step, hashgDelFromKey, search, found, specStep], rfl, rfl,
            rfl, live, holds.linked, holds.blocks, holds.keys, kept⟩
      | some entry =>
          obtain ⟨member, own, -⟩ := entry_linked holds found
          obtain ⟨deletes, after⟩ := deleted_holds holds member own
          have same : hashgDelFromKey info pKey = hashgDel info entry.1 := by
            rw [hashgDelFromKey, search, found]
            rfl
          exact ⟨deleted info entry.1, by simp [HashgInfo.step, same, deletes, specStep], rfl, rfl, rfl,
            _, after⟩
  | rekey pKey newKey =>
      obtain ⟨rfl, rfl, rfl, live, holds⟩ := inv
      have search := find_holds holds (inRange pKey)
      cases found : map.lookup pKey with
      | none =>
          exact ⟨info, by simp [HashgInfo.step, search, found, specStep],
            by simpa [specStep, found] using ⟨rfl, rfl, rfl, live, holds⟩⟩
      | some entry =>
          obtain ⟨rekeys, after⟩ := rekeyed_holds holds found accepts (inRange newKey)
          refine ⟨rekeyed info entry.1 newKey, by
            simp [HashgInfo.step, search, found, specStep, rekeys], ?_⟩
          simp only [specStep, found]
          exact ⟨rfl, rfl, rfl, _, after⟩

/-- Every sequence of calls on a table is answered as by a map of `maxNodeCnt` entries; the
linked nodes are counted, and each knows the pointer that leads to it. -/
theorem groups_run (func : Key → Nat) (uiHashSize maxNodeCnt : Nat) (heap : Nat → HashgNode Key Data)
    (inRange : ∀ key, func key < uiHashSize) (word : maxNodeCnt < 2 ^ 32) (ops : List (Op Key Data))
    (accepts : Along (specStep maxNodeCnt) Accepts ∅ ops) :
    ∃ info live, replay HashgInfo.step
        (hashgSetMaxNodeCnt (hashgInit func uiHashSize heap) maxNodeCnt) ops =
          some ((specReplay (specStep maxNodeCnt) ∅ ops).1, info) ∧
      Linked info live ∧ live.length = (specReplay (specStep maxNodeCnt) ∅ ops).2.keys.card := by
  have simulates : Simulates HashgInfo.step (specStep maxNodeCnt) (@Accepts Key Data _)
      (Matches func uiHashSize maxNodeCnt) := by
    intro info map op inv accepted
    exact step_matches inv inRange word accepted
  have start : Matches func uiHashSize maxNodeCnt
      (hashgSetMaxNodeCnt (hashgInit func uiHashSize heap) maxNodeCnt) ∅ :=
    ⟨rfl, rfl, rfl, [], init_linked func uiHashSize maxNodeCnt heap, List.Perm.refl _, List.nodup_nil,
      same_empty⟩
  obtain ⟨info, ran, -, -, -, live, holds⟩ := simulates.replay start accepts
  exact ⟨info, live, ran, holds.linked, (holds_card holds).symm⟩

/-- Two entries in one bucket, the older of which gets another key. -/
def twoEntries (newKey : Nat) : List (Op Nat Nat) :=
  [.add 1 10 (some 100), .add 2 20 (some 200), .rekey 1 newKey, .delFromKey newKey, .find 2]

theorem groups_run_two : ∃ info live,
    replay HashgInfo.step (hashgSetMaxNodeCnt (hashgInit (fun _ => 0) 1 fun _ => ⟨0, .null, 0, 0⟩) 2)
        (twoEntries 3) = some ((specReplay (specStep 2) ∅ (twoEntries 3)).1, info) ∧
      Linked info live ∧ live.length = (specReplay (specStep 2) ∅ (twoEntries 3)).2.keys.card := by
  apply groups_run
  · simp
  · decide
  · decide

/-- A node linked with the key of another entry hides that entry. -/
theorem hidden_entry_found_again :
    (replay HashgInfo.step (hashgSetMaxNodeCnt (hashgInit (fun _ => 0) 1 fun _ => ⟨0, .null, 0, 0⟩) 2)
        (twoEntries 2)).map Prod.fst =
      some [.added (some 100), .added (some 200), .done, .done, .found (some (200, 20))] ∧
    (specReplay (specStep 2) ∅ (twoEntries 2)).1 =
      [.added (some 100), .added (some 200), .done, .done, .found none] := by
  constructor
  · decide +kernel
  · decide +kernel

end Steps

end Upst.Hashg
