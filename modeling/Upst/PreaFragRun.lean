import Upst.PreaFragOrder
import Mathlib.Data.List.Induction

/-!
Reassembly over a run. The fragments of several datagrams come in any order, with passes of the timers
between them. Where no timer runs out and no allocation fails, the last fragment of each datagram makes
the node of the whole datagram, and no other fragment does.
-/

namespace Upst.PreaFrag

open Bytes Word Hasho Hashg Timern Deadlines TimedTable Interleave

set_option autoImplicit false

section Datagrams

/-- The fragments of a datagram in the order of their offsets: their payloads follow each other, and the
last one alone has no more fragments behind it. -/
structure Datagram where
  first : Fragment
  rest : List Fragment
  several : rest ≠ []
  keys : ∀ frag ∈ rest, frag.key = first.key
  tiled : Tiled 0 (first :: rest)
  more : ∀ frag ∈ (first :: rest).dropLast, frag.last = false
  ends : ∀ frag ∈ (first :: rest).getLast?, frag.last = true

def Datagram.frags (datagram : Datagram) : List Fragment := datagram.first :: datagram.rest

def Datagram.key (datagram : Datagram) : List UInt8 := datagram.first.key

/-- The bytes of `ETH_DATA` of the whole datagram. -/
def Datagram.whole (datagram : Datagram) : List UInt8 :=
  readBytes datagram.first.ethData 0 datagram.first.datalen ++ datagram.rest.flatMap Fragment.payload

variable {datagram : Datagram} {frag : Fragment}

theorem frag_key (member : frag ∈ datagram.frags) : frag.key = datagram.key := by
  rcases List.mem_cons.mp member with rfl | later
  · rfl
  · exact datagram.keys frag later

theorem datagram_ordered (datagram : Datagram) : Ordered datagram.frags := tiled_ordered datagram.tiled

theorem datagram_nodup (datagram : Datagram) : datagram.frags.Nodup := by
  refine (datagram_ordered datagram).imp fun {one two} before => ?_
  rintro rfl
  exact Nat.lt_irrefl _ before

theorem last_iff (member : frag ∈ datagram.frags) :
    frag.last = true ↔ frag ∈ datagram.frags.getLast? := by
  constructor
  · intro last
    have nonempty : datagram.frags ≠ [] := List.cons_ne_nil _ _
    have split := List.dropLast_append_getLast nonempty
    rw [← split] at member
    rcases List.mem_append.mp member with before | here
    · rw [datagram.more frag before] at last
      cases last
    · rw [List.mem_singleton.mp here]
      exact Option.mem_def.mpr (List.getLast?_eq_some_getLast nonempty)
  · exact datagram.ends frag

/-- The offset counts eights in 13 bits. -/
theorem ordered_length {nodes : List Fragment} (ordered : Ordered nodes) : nodes.length ≤ 2 ^ 13 := by
  let place (frag : Fragment) : Nat := frag.usIPFrag &&& IP_FRAG_OFFSET
  have apart : (nodes.map place).Nodup := by
    refine List.pairwise_map.mpr (ordered.imp fun {one two} before same => ?_)
    rw [Fragment.offset, Fragment.offset] at before
    have equal : one.usIPFrag &&& IP_FRAG_OFFSET = two.usIPFrag &&& IP_FRAG_OFFSET := same
    omega
  have inside : nodes.map place ⊆ List.range (2 ^ 13) := by
    intro value member
    obtain ⟨frag, -, rfl⟩ := List.mem_map.mp member
    exact List.mem_range.mpr (Nat.and_lt_two_pow _ (by decide))
  have bound := (List.subperm_of_subset apart inside).length_le
  rwa [List.length_map, List.length_range] at bound

end Datagrams

section Holds

variable {datagram : Datagram} {entry : IpFrag} {arrived : List Fragment} {pNODE : Fragment}

/-- The entry has the fragments that have come, in the order of their offsets. -/
structure Holds (entry : IpFrag) (arrived : List Fragment) : Prop where
  nodes : entry.ring.nodes.Perm arrived
  ordered : Ordered entry.ring.nodes
  cnt : entry.cnt.toNat = arrived.length
  finish : entry.finish = arrived.any Fragment.last

/-- What the table has of a datagram of which these fragments have come. -/
def Waits (entry : Option IpFrag) : List Fragment → Prop
  | [] => entry = none
  | first :: later => ∃ held, entry = some held ∧ Holds held (first :: later)

theorem holds_count (holds : Holds entry arrived) : entry.cnt.toNat = entry.ring.nodes.length :=
  holds.cnt.trans holds.nodes.length_eq.symm

theorem holds_add (holds : Holds entry arrived) (apart : ∀ frag ∈ arrived, frag.offset ≠ pNODE.offset) :
    Holds (entry.add pNODE) (arrived ++ [pNODE]) := by
  have count := holds_count holds
  have few := ordered_length holds.ordered
  have nodes : (entry.add pNODE).ring.nodes.Perm (pNODE :: entry.ring.nodes) := sort_nodes _
  constructor
  · exact (nodes.trans (holds.nodes.cons _)).trans (List.perm_append_singleton _ _).symm
  · rw [IpFrag.add]
    dsimp only
    rw [count]
    exact sort_ordered holds.ordered fun frag member => apart frag (holds.nodes.mem_iff.mp member)
  · have next : (entry.cnt + 1).toNat = entry.cnt.toNat + 1 := by
      rw [UInt16.toNat_add, UInt16.toNat_one]
      exact Nat.mod_eq_of_lt (by omega)
    rw [List.length_append, ← holds.cnt]
    exact next
  · rw [List.any_append, ← holds.finish, List.any_cons, List.any_nil, Bool.or_false, IpFrag.add]
    dsimp only
    cases last : pNODE.last
    · exact (Bool.or_false _).symm
    · exact (Bool.or_true _).symm

theorem waits_grown {held : Option IpFrag} (waits : Waits held arrived)
    (apart : ∀ frag ∈ arrived, frag.offset ≠ pNODE.offset) :
    Holds (grown held pNODE) (arrived ++ [pNODE]) := by
  cases arrived with
  | nil =>
      obtain rfl := waits
      exact ⟨List.Perm.refl _, List.pairwise_singleton _ _, rfl, (Bool.or_false _).symm⟩
  | cons first later =>
      obtain ⟨entry, rfl, holds⟩ := waits
      exact holds_add holds apart

theorem holds_timer {id : Option TimernKey} (holds : Holds entry arrived) :
    Holds { entry with timerNID := id } arrived :=
  ⟨holds.nodes, holds.ordered, holds.cnt, holds.finish⟩

theorem holds_sublist (holds : Holds entry arrived) (sub : arrived.Subperm datagram.frags) :
    entry.ring.nodes.Sublist datagram.frags := by
  have within : entry.ring.nodes.Subperm datagram.frags := holds.nodes.subperm.trans sub
  obtain ⟨middle, same, subl⟩ := within
  rwa [ordered_perm holds.ordered ((datagram_ordered datagram).sublist subl) same.symm]

/-- The test for the whole datagram holds when all its fragments have come, and not before. -/
theorem holds_completes (holds : Holds entry arrived) (sub : arrived.Subperm datagram.frags) :
    entry.Completes ↔ arrived.length = datagram.frags.length := by
  have inside := holds_sublist holds sub
  have count := holds_count holds
  rw [IpFrag.Completes, count, check_finish, holds.finish]
  constructor
  · rintro ⟨⟨finish, -⟩, fine⟩
    obtain ⟨frag, member, last⟩ := List.any_eq_true.mp finish
    have known := (last_iff (sub.subset member)).mp last
    have all := check_loop_all datagram.tiled inside (fun other ends => ?_) fine
    · rw [← holds.nodes.length_eq, all]
      rfl
    · obtain rfl : frag = other := Option.some.inj ((Option.mem_def.mp known).symm.trans ends)
      exact holds.nodes.mem_iff.mpr member
  · intro full
    have all : entry.ring.nodes = datagram.frags :=
      inside.eq_of_length (holds.nodes.length_eq.trans full)
    have perm : arrived.Perm datagram.frags := holds.nodes.symm.trans (List.Perm.of_eq all)
    refine ⟨⟨?_, ?_⟩, ?_⟩
    · obtain ⟨ends, known⟩ :=
        Option.isSome_iff_exists.mp (List.getLast?_isSome.mpr (List.cons_ne_nil datagram.first datagram.rest))
      have member : ends ∈ datagram.frags := List.mem_of_getLast? known
      exact List.any_eq_true.mpr ⟨ends, perm.mem_iff.mpr member, datagram.ends ends known⟩
    · have several := List.length_pos_iff.mpr datagram.several
      have size : datagram.frags.length = datagram.rest.length + 1 := rfl
      rw [UInt16.lt_iff_toNat_lt, holds.cnt, full]
      show 1 < datagram.frags.length
      omega
    · rw [all]
      exact lt_of_lt_of_eq Int.zero_lt_one (check_loop_tiled datagram.tiled).symm

theorem holds_whole (holds : Holds entry arrived) (perm : arrived.Perm datagram.frags) :
    entry.ring.head = datagram.first ∧ entry.ring.others = datagram.rest := by
  have same := ordered_perm holds.ordered (datagram_ordered datagram) (holds.nodes.trans perm)
  injection same with head others
  exact ⟨head, others⟩

end Holds

section Fragments

variable {hash : List UInt8 → Nat} {sizes : Sizes} {store store' : FragStore} {datagram : Datagram}
  {pNODE : Fragment} {supply : Supply} {arrived later : List Fragment}

theorem offset_apart (perm : (arrived ++ pNODE :: later).Perm datagram.frags) :
    ∀ frag ∈ arrived, frag.offset ≠ pNODE.offset := by
  intro frag member same
  have offsets : (datagram.frags.map Fragment.offset).Nodup := by
    refine List.pairwise_map.mpr ((datagram_ordered datagram).imp fun {one two} before => ?_)
    exact Nat.ne_of_lt before
  have nodup := perm.nodup_iff.mpr (datagram_nodup datagram)
  have there : frag ∈ datagram.frags := perm.mem_iff.mp (List.mem_append_left _ member)
  have here : pNODE ∈ datagram.frags :=
    perm.mem_iff.mp (List.mem_append_right _ List.mem_cons_self)
  obtain rfl := List.inj_on_of_nodup_map offsets there here same
  exact (List.nodup_append.mp nodup).2.2 frag member frag List.mem_cons_self rfl

theorem arrived_subperm (perm : (arrived ++ pNODE :: later).Perm datagram.frags) :
    (arrived ++ [pNODE]).Subperm datagram.frags := by
  have sub : (arrived ++ [pNODE]).Sublist (arrived ++ pNODE :: later) :=
    (List.singleton_sublist.mpr List.mem_cons_self).append_left arrived
  exact sub.subperm.trans perm.subperm

theorem all_arrived (perm : (arrived ++ pNODE :: later).Perm datagram.frags) :
    (arrived ++ [pNODE]).length = datagram.frags.length ↔ later = [] := by
  have count := perm.length_eq
  rw [List.length_append, List.length_cons] at count
  rw [List.length_append, List.length_singleton, ← List.length_eq_zero_iff]
  omega

theorem waits_few {held : Option IpFrag} (waits : Waits held arrived) :
    ∀ entry, held = some entry → entry.cnt.toNat + 1 < 2 ^ 16 := by
  rintro entry rfl
  cases arrived with
  | nil => cases waits
  | cons first later =>
      obtain ⟨entry', same, holds⟩ := waits
      obtain rfl := Option.some.inj same
      have few := ordered_length holds.ordered
      rw [holds_count holds]
      omega

/-- A fragment with others of its datagram still to come is kept. -/
theorem fragment_kept (bound : store.Bound hash) (granted : Granted hash store pNODE supply)
    (waits : Waits (store.entryOf hash pNODE.key) arrived)
    (perm : (arrived ++ pNODE :: later).Perm datagram.frags) (more : later ≠ []) :
    ∃ store' entry, ipFrag hash sizes store pNODE supply = some (none, store') ∧
      Took hash store pNODE (some entry) [] store' ∧ Holds entry (arrived ++ [pNODE]) := by
  have holds := waits_grown waits (offset_apart perm)
  have open_ : ¬(grown (store.entryOf hash pNODE.key) pNODE).Completes := by
    rw [holds_completes holds (arrived_subperm perm), all_arrived perm]
    exact more
  obtain ⟨store', id, calls, took⟩ :=
    @frag_waits hash sizes store pNODE supply bound granted (waits_few waits) open_
  exact ⟨store', _, calls, took, holds_timer holds⟩

/-- The last fragment of a datagram makes the whole. -/
theorem fragment_whole (bound : store.Bound hash) (granted : Granted hash store pNODE supply)
    (waits : Waits (store.entryOf hash pNODE.key) arrived)
    (perm : (arrived ++ [pNODE]).Perm datagram.frags)
    (fits : wholeSize sizes datagram.first datagram.rest ≤ supply.maxoffset) :
    ∃ store' merged, ipFrag hash sizes store pNODE supply = some (some merged, store') ∧
      merged.head = datagram.first ∧ merged.ethData = datagram.whole ∧
      Took hash store pNODE none (datagram.frags.map Fragment.pNODE) store' := by
  have holds := waits_grown waits (offset_apart perm)
  have closes : (grown (store.entryOf hash pNODE.key) pNODE).Completes := by
    rw [holds_completes holds perm.subperm]
    exact perm.length_eq
  obtain ⟨head, others⟩ := holds_whole holds perm
  obtain ⟨pRST, node⟩ := Option.isSome_iff_exists.mp granted.node
  have positive : ∀ frag ∈ (grown (store.entryOf hash pNODE.key) pNODE).ring.others, 0 < frag.size := by
    rw [others]
    exact fun frag member => tiled_positive datagram.tiled frag (List.mem_cons_of_mem _ member)
  rw [← head, ← others] at fits
  obtain ⟨merged, merges, -, first, bytes⟩ := merge_whole pRST positive fits
  obtain ⟨store', calls, took⟩ :=
    @frag_completes hash sizes store pNODE supply bound granted (waits_few waits) closes
  refine ⟨store', merged, ?_, first.trans head, ?_, ?_⟩
  · rw [calls, fragResult, node]
    dsimp only
    rw [holds_count holds, merges]
    rfl
  · rw [bytes, head, others]
    rfl
  · have freed : (grown (store.entryOf hash pNODE.key) pNODE).ring.pNODEs =
        datagram.frags.map Fragment.pNODE := by
      rw [Ring.pNODEs, Ring.nodes, head, others]
      rfl
    rwa [freed] at took

end Fragments

section Passes

variable {hash : List UInt8 → Nat} {store : FragStore} {clock : Int}

/-- The pass of the timers at this second runs none. -/
structure Quiet (store : FragStore) (clock : Int) : Prop where
  early : 0 ≤ clock
  late : clock + 1 + N_DAY < 2 ^ 31
  none : ∀ info events, timernInvoke clock (fun _ _ => .done) store.pIPFRAGTIMER = some (info, events) →
    ∀ event ∈ events, event.invoked = none

theorem run_none {State : Type} {invoke : State → TimernData → Option State} (state : State)
    {events : List TimerEvent} (none : ∀ event ∈ events, event.invoked = none) :
    runCallbacks invoke state events = some state := by
  induction events with
  | nil => rfl
  | cons event rest ih =>
      rw [runCallbacks, List.foldlM_cons, none event List.mem_cons_self]
      exact ih fun other member => none other (List.mem_cons_of_mem _ member)

theorem invoke_quiet (bound : store.Bound hash) (quiet : Quiet store clock) :
    ∃ info, invokeTimers hash store clock = some (store.setTimer info) ∧ (store.setTimer info).Bound hash := by
  obtain ⟨info, events, store', passed, invoked, bound'⟩ := invoke_runs bound quiet.early quiet.late
  rw [run_none _ (quiet.none info events passed)] at invoked
  obtain rfl := Option.some.inj invoked
  refine ⟨info, ?_, bound'⟩
  rw [invokeTimers, passed, Option.bind_eq_bind, Option.bind_some]
  exact run_none _ (quiet.none info events passed)

end Passes

section Run

variable {hash : List UInt8 → Nat} {sizes : Sizes} {store store' : FragStore} {datagram : Datagram}
  {family : List Datagram} {front back : List Step} {pNODE : Fragment} {supply : Supply}

def Step.arrival : Step → Option Fragment
  | .fragment pNODE _ => some pNODE
  | .invoke _ => none

/-- The fragments of a datagram that come in these steps. -/
def arrivedOf (datagram : Datagram) (steps : List Step) : List Fragment :=
  (steps.filterMap Step.arrival).filter fun frag => frag.key = datagram.key

theorem arrived_append (datagram : Datagram) (front back : List Step) :
    arrivedOf datagram (front ++ back) = arrivedOf datagram front ++ arrivedOf datagram back := by
  rw [arrivedOf, List.filterMap_append, List.filter_append]
  rfl

theorem arrived_own (own : pNODE.key = datagram.key) :
    arrivedOf datagram (.fragment pNODE supply :: back) = pNODE :: arrivedOf datagram back :=
  List.filter_cons_of_pos (decide_eq_true own)

theorem arrived_other (other : pNODE.key ≠ datagram.key) :
    arrivedOf datagram (.fragment pNODE supply :: back) = arrivedOf datagram back :=
  List.filter_cons_of_neg fun same => other (of_decide_eq_true same)

theorem family_filter {family : List Datagram} (apart : family.Pairwise fun one two => one.key ≠ two.key)
    (member : datagram ∈ family) :
    (family.flatMap Datagram.frags).filter (fun frag => frag.key = datagram.key) = datagram.frags := by
  have own : datagram.frags.filter (fun frag => frag.key = datagram.key) = datagram.frags :=
    List.filter_eq_self.mpr fun frag inside => decide_eq_true (frag_key inside)
  have none {other : Datagram} (differs : other.key ≠ datagram.key) :
      other.frags.filter (fun frag => frag.key = datagram.key) = [] := by
    refine List.filter_eq_nil_iff.mpr fun frag inside same => ?_
    exact differs ((frag_key inside).symm.trans (of_decide_eq_true same))
  induction family with
  | nil => cases member
  | cons head rest ih =>
      obtain ⟨first, later⟩ := List.pairwise_cons.mp apart
      rw [List.flatMap_cons, List.filter_append]
      rcases List.mem_cons.mp member with rfl | behind
      · rw [own, List.filter_flatMap]
        have empty : rest.flatMap (fun other =>
            other.frags.filter fun frag => frag.key = datagram.key) = [] :=
          List.flatMap_eq_nil_iff.mpr fun other inside => none (first other inside).symm
        rw [empty, List.append_nil]
      · rw [none (first datagram behind), List.nil_append]
        exact ih later behind

/-- What comes of a datagram before a step and after it. -/
theorem arrived_perm (apart : family.Pairwise fun one two => one.key ≠ two.key) {steps : List Step}
    (arrivals : (steps.filterMap Step.arrival).Perm (family.flatMap Datagram.frags))
    (member : datagram ∈ family) (split : steps = front ++ back) :
    (arrivedOf datagram front ++ arrivedOf datagram back).Perm datagram.frags := by
  have same := arrivals.filter fun frag => decide (frag.key = datagram.key)
  rw [family_filter apart member] at same
  rw [← arrived_append, ← split]
  exact same

/-- A datagram of which some fragments have come: they wait in their ring in the order of their offsets,
and of one that is whole nothing is left. -/
def Stage (hash : List UInt8 → Nat) (store : FragStore) (datagram : Datagram) (arrived : List Fragment) : Prop :=
  if arrived.length = datagram.frags.length then store.entryOf hash datagram.key = none
  else Waits (store.entryOf hash datagram.key) arrived

/-- No timer runs out in the step, and no allocation fails. -/
def Undisturbed (hash : List UInt8 → Nat) (store : FragStore) : Step → Prop
  | .fragment pNODE supply => Granted hash store pNODE supply
  | .invoke clock => Quiet store clock

/-- The node of the datagram fits into those of the step. -/
def Step.Fits (sizes : Sizes) (datagram : Datagram) : Step → Prop
  | .fragment _ supply => wholeSize sizes datagram.first datagram.rest ≤ supply.maxoffset
  | .invoke _ => True

/-- The datagram has no entry, and no timer that waits is its own. -/
def Gone (hash : List UInt8 → Nat) (store : FragStore) (key : List UInt8) : Prop :=
  hashoFind hash store.pIPFRAGHASH key = some none ∧
    ∃ timers, Linked store.pIPFRAGTIMER.pstHASHGINFO timers ∧
      ∀ t ∈ timers, (store.pIPFRAGTIMER.pstHASHGINFO.node t).pstData ≠ delIpfrag key

theorem entry_gone (bound : store.Bound hash) {key : List UInt8} (length : key.length = IP_FRAG_KEY_SIZE)
    (none : store.entryOf hash key = none) : Gone hash store key := by
  obtain ⟨live, timers, agenda, timerOf, bound⟩ := bound
  have absent := (entry_none bound length).mp none
  have kept := bound_kept bound
  refine ⟨?_, timers, kept.linked, fun t waits own => ?_⟩
  · rw [find_spec bound.served.stores bound.served.inRange (length.trans (key_len bound).symm),
      absent_find absent]
  · obtain ⟨p, member, rfl⟩ := List.mem_map.mp (kept.pairs.mem_iff.mpr waits)
    have same := callback_injective ((kept.timed p member).2.symm.trans own)
    exact absent (List.mem_map.mpr ⟨p, member, same⟩)

/-- What a step gives: the last fragment of a datagram makes the whole and frees all its nodes, and every
other gives nothing. -/
def Outcome (hash : List UInt8 → Nat) (sizes : Sizes) (store store' : FragStore) (family : List Datagram)
    (back : List Step) : Step → Prop
  | .fragment pNODE supply => ∀ datagram ∈ family, pNODE ∈ datagram.frags →
      if arrivedOf datagram back = [] then
        (∃ merged, ipFrag hash sizes store pNODE supply = some (some merged, store') ∧
          merged.head = datagram.first ∧ merged.ethData = datagram.whole) ∧
        store'.freed = store.freed ++ datagram.frags.map Fragment.pNODE ∧ Gone hash store' datagram.key
      else ipFrag hash sizes store pNODE supply = some (none, store') ∧ store'.freed = store.freed
  | .invoke _ => store'.freed = store.freed

theorem waits_held {entry : IpFrag} {arrived : List Fragment} (holds : Holds entry (arrived ++ [pNODE])) :
    Waits (some entry) (arrived ++ [pNODE]) := by
  cases arrived with
  | nil => exact ⟨entry, rfl, holds⟩
  | cons first later => exact ⟨entry, rfl, holds⟩

theorem stage_other {entry : Option IpFrag} {freed : List Nat} (took : Took hash store pNODE entry freed store')
    (other : datagram.key ≠ pNODE.key) (stage : Stage hash store datagram (arrivedOf datagram front)) :
    Stage hash store' datagram (arrivedOf datagram (front ++ [.fragment pNODE supply])) := by
  rw [arrived_append, arrived_other other.symm]
  show Stage hash store' datagram (arrivedOf datagram front ++ [])
  rw [List.append_nil, Stage, took.others datagram.key (key_length datagram.first) other]
  exact stage

theorem family_unique (apart : family.Pairwise fun one two => one.key ≠ two.key) {one two : Datagram}
    (first : one ∈ family) (second : two ∈ family) (same : one.key = two.key) : one = two :=
  List.inj_on_of_nodup_map (List.pairwise_map.mpr apart) first second same

/-- The datagram of a fragment has not come whole before the fragment. -/
theorem fragment_waits (perm : (arrivedOf datagram front ++ pNODE :: arrivedOf datagram back).Perm datagram.frags)
    (stage : Stage hash store datagram (arrivedOf datagram front)) :
    Waits (store.entryOf hash datagram.key) (arrivedOf datagram front) := by
  have count := perm.length_eq
  rw [List.length_append, List.length_cons] at count
  rw [Stage, if_neg (by omega)] at stage
  exact stage

theorem fragment_step (apart : family.Pairwise fun one two => one.key ≠ two.key) (bound : store.Bound hash)
    (stages : ∀ datagram ∈ family, Stage hash store datagram (arrivedOf datagram front))
    (granted : Granted hash store pNODE supply) (member : datagram ∈ family) (own : pNODE ∈ datagram.frags)
    (perm : (arrivedOf datagram front ++ pNODE :: arrivedOf datagram back).Perm datagram.frags)
    (fits : wholeSize sizes datagram.first datagram.rest ≤ supply.maxoffset) :
    ∃ store', store.step hash sizes (.fragment pNODE supply) = some store' ∧ store'.Bound hash ∧
      (∀ datagram ∈ family, Stage hash store' datagram
        (arrivedOf datagram (front ++ [.fragment pNODE supply]))) ∧
      Outcome hash sizes store store' family back (.fragment pNODE supply) := by
  have key := frag_key own
  have waits : Waits (store.entryOf hash pNODE.key) (arrivedOf datagram front) := by
    rw [key]
    exact fragment_waits perm (stages datagram member)
  have arrived : arrivedOf datagram (front ++ [.fragment pNODE supply]) = arrivedOf datagram front ++ [pNODE] := by
    rw [arrived_append, arrived_own key]
    rfl
  have unique {other : Datagram} (inside : other ∈ family) (holds : pNODE ∈ other.frags) : other = datagram :=
    family_unique apart inside member ((frag_key holds).symm.trans key)
  have others {store' : FragStore} {entry : Option IpFrag} {freed : List Nat}
      (took : Took hash store pNODE entry freed store') (here : Stage hash store' datagram
        (arrivedOf datagram (front ++ [.fragment pNODE supply]))) : ∀ other ∈ family, Stage hash store' other
        (arrivedOf other (front ++ [.fragment pNODE supply])) := by
    intro other inside
    by_cases same : other.key = pNODE.key
    · obtain rfl := family_unique apart inside member (same.trans key)
      exact here
    · exact stage_other took same (stages other inside)
  by_cases last : arrivedOf datagram back = []
  · rw [last] at perm
    obtain ⟨store', merged, calls, head, whole, took⟩ :=
      @fragment_whole hash sizes store datagram pNODE supply _ bound granted waits perm fits
    have gone : store'.entryOf hash datagram.key = none := key ▸ took.own
    refine ⟨store', congrArg (Option.map Prod.snd) calls, took.bound, others took ?_, ?_⟩
    · rw [Stage, arrived, if_pos perm.length_eq]
      exact gone
    · intro other inside holds
      obtain rfl := unique inside holds
      rw [if_pos last]
      exact ⟨⟨merged, calls, head, whole⟩, took.freed, entry_gone took.bound (key_length other.first) gone⟩
  · obtain ⟨store', entry, calls, took, holds⟩ :=
      @fragment_kept hash sizes store datagram pNODE supply _ _ bound granted waits perm last
    refine ⟨store', congrArg (Option.map Prod.snd) calls, took.bound, others took ?_, ?_⟩
    · rw [Stage, arrived, if_neg (fun full => last ((all_arrived perm).mp full)), ← key, took.own]
      exact waits_held holds
    · intro other inside holds
      obtain rfl := unique inside holds
      rw [if_neg last]
      exact ⟨calls, took.freed.trans (List.append_nil _)⟩

theorem invoke_step {clock : Int} (bound : store.Bound hash) (quiet : Quiet store clock)
    (stages : ∀ datagram ∈ family, Stage hash store datagram (arrivedOf datagram front)) :
    ∃ store', store.step hash sizes (.invoke clock) = some store' ∧ store'.Bound hash ∧
      (∀ datagram ∈ family, Stage hash store' datagram (arrivedOf datagram (front ++ [.invoke clock]))) ∧
      Outcome hash sizes store store' family back (.invoke clock) := by
  obtain ⟨info, calls, bound'⟩ := invoke_quiet bound quiet
  refine ⟨store.setTimer info, calls, bound', fun datagram member => ?_, rfl⟩
  rw [arrived_append]
  show Stage hash store datagram (arrivedOf datagram front ++ [])
  rw [List.append_nil]
  exact stages datagram member

theorem progress_step (apart : family.Pairwise fun one two => one.key ≠ two.key) {steps : List Step} {step : Step}
    (arrivals : (steps.filterMap Step.arrival).Perm (family.flatMap Datagram.frags))
    (split : steps = front ++ step :: back) (bound : store.Bound hash)
    (stages : ∀ datagram ∈ family, Stage hash store datagram (arrivedOf datagram front))
    (undisturbed : Undisturbed hash store step) (fits : ∀ datagram ∈ family, step.Fits sizes datagram) :
    ∃ store', store.step hash sizes step = some store' ∧ store'.Bound hash ∧
      (∀ datagram ∈ family, Stage hash store' datagram (arrivedOf datagram (front ++ [step]))) ∧
      Outcome hash sizes store store' family back step := by
  cases step with
  | invoke clock => exact invoke_step bound undisturbed stages
  | fragment pNODE supply =>
      have came : pNODE ∈ steps.filterMap Step.arrival := by
        rw [split]
        exact List.mem_filterMap.mpr ⟨_, List.mem_append_right _ List.mem_cons_self, rfl⟩
      obtain ⟨datagram, member, own⟩ := List.mem_flatMap.mp (arrivals.mem_iff.mp came)
      have perm := arrived_perm apart arrivals member split
      rw [arrived_own (frag_key own)] at perm
      exact fragment_step apart bound stages undisturbed member own perm (fits datagram member)

/-- Reassembly does not depend on the order of arrival. Where the steps bring the fragments of a family of
datagrams, each once and in any order, no timer runs out and no allocation fails, the last fragment of each
datagram to come gives the node of the whole datagram and frees its fragments, and no other gives a node. -/
theorem reassembly_any_order {start : FragStore} (bound : start.Bound hash)
    (apart : family.Pairwise fun one two => one.key ≠ two.key)
    (fresh : ∀ datagram ∈ family, start.entryOf hash datagram.key = none) {steps : List Step}
    (arrivals : (steps.filterMap Step.arrival).Perm (family.flatMap Datagram.frags))
    (fits : ∀ step ∈ steps, ∀ datagram ∈ family, step.Fits sizes datagram)
    (meets : Meets (FragStore.step hash sizes) (Undisturbed hash) start steps) {step : Step}
    (split : steps = front ++ step :: back) :
    ∃ store store', front.foldlM (FragStore.step hash sizes) start = some store ∧
      (∀ datagram ∈ family, Stage hash store datagram (arrivedOf datagram front)) ∧
      store.step hash sizes step = some store' ∧ Outcome hash sizes store store' family back step := by
  have reached : ∀ front back, steps = front ++ back → ∃ store,
      front.foldlM (FragStore.step hash sizes) start = some store ∧ store.Bound hash ∧
        ∀ datagram ∈ family, Stage hash store datagram (arrivedOf datagram front) := by
    intro front
    induction front using List.reverseRecOn with
    | nil =>
        refine fun _ _ => ⟨start, rfl, bound, fun datagram member => ?_⟩
        have some : ([] : List Fragment).length ≠ datagram.frags.length := Nat.zero_ne_add_one _
        rw [Stage, arrivedOf, List.filterMap_nil, List.filter_nil, if_neg some]
        exact fresh datagram member
    | append_singleton front step ih =>
        intro back split
        rw [List.append_assoc, List.singleton_append] at split
        obtain ⟨store, run, bound, stages⟩ := ih (step :: back) split
        have undisturbed := meets_at (split ▸ meets) run
        have fits := fits step (split ▸ List.mem_append_right _ List.mem_cons_self)
        obtain ⟨store', stepped, bound', stages', -⟩ :=
          progress_step apart arrivals split bound stages undisturbed fits
        refine ⟨store', ?_, bound', stages'⟩
        rw [List.foldlM_append, run]
        simpa using stepped
  obtain ⟨store, run, bound, stages⟩ := reached front (step :: back) split
  have undisturbed := meets_at (split ▸ meets) run
  have fits := fits step (split ▸ List.mem_append_right _ List.mem_cons_self)
  obtain ⟨store', stepped, -, -, outcome⟩ := progress_step apart arrivals split bound stages undisturbed fits
  exact ⟨store, store', run, stages, stepped, outcome⟩

def firstHalf : Fragment := fragmentAt 64 IP_FRAG_MORE

def secondHalf : Fragment := fragmentAt 128 5

theorem halves_keys : ∀ frag ∈ [secondHalf], frag.key = firstHalf.key := by
  intro frag member
  obtain rfl := List.mem_singleton.mp member
  rfl

theorem halves_more : ∀ frag ∈ [firstHalf, secondHalf].dropLast, frag.last = false := by
  intro frag member
  obtain rfl := List.mem_singleton.mp member
  rfl

theorem halves_ends : ∀ frag ∈ [firstHalf, secondHalf].getLast?, frag.last = true := by
  intro frag member
  obtain rfl := Option.some.inj member
  rfl

/-- A datagram of 80 bytes in two halves. -/
def halves : Datagram where
  first := firstHalf
  rest := [secondHalf]
  several := List.cons_ne_nil _ _
  keys := halves_keys
  tiled := ⟨rfl, by decide, rfl, by decide, trivial⟩
  more := halves_more
  ends := halves_ends

/-- The second half comes first, and a second passes. -/
def reversedSteps : List Step := [.fragment secondHalf (richSupply 100), .invoke 101]

theorem reversed_meets : Meets (FragStore.step fragHash smallSizes) (Undisturbed fragHash) storeAt100
    (reversedSteps ++ [.fragment firstHalf (richSupply 101)]) := by
  have absent : hashoFind fragHash storeAt100.pIPFRAGHASH secondHalf.key = some none := by decide +kernel
  have none : storeAt100.entryOf fragHash secondHalf.key = none := by
    rw [FragStore.entryOf, absent]
    rfl
  have passed : (storeAt100.step fragHash smallSizes (.fragment secondHalf (richSupply 100))).all fun store =>
      (timernInvoke 101 (fun _ _ => .done) store.pIPFRAGTIMER).all fun result =>
        decide (∀ event ∈ result.2, event.invoked = Option.none) := by decide +kernel
  have found : (reversedSteps.foldlM (FragStore.step fragHash smallSizes) storeAt100).all fun store =>
      decide (hashoFind fragHash store.pIPFRAGHASH firstHalf.key = some (some 908) ∧
        store.pIPFRAGTIMER.uiCurrentTime < (richSupply 101).timeout ∧
        Continues store 908 firstHalf (richSupply 101)) := by decide +kernel
  refine ⟨⟨by decide, by decide, fun _ => ⟨by decide +kernel, by decide +kernel, next_block_grants⟩, ?_, rfl⟩,
    fun one stepped => ⟨⟨by decide, by decide, ?_⟩, fun two stepped' => ⟨?_, fun _ _ => trivial⟩⟩⟩
  · intro entry held
    cases none.symm.trans held
  · intro info events ran
    rw [stepped, Option.all_some, ran] at passed
    exact of_decide_eq_true passed
  · have run : reversedSteps.foldlM (FragStore.step fragHash smallSizes) storeAt100 = some two := by
      rw [reversedSteps, List.foldlM_cons, stepped]
      exact (bind_pure _).trans stepped'
    rw [run, Option.all_some] at found
    obtain ⟨own, ahead, continues⟩ := of_decide_eq_true found
    have held : two.entryOf fragHash firstHalf.key = some (two.frag 908) := by
      rw [FragStore.entryOf, own]
      rfl
    refine ⟨ahead, (continues.moves ahead).1, fun absent => ?_, fun entry same => ?_, rfl⟩
    · cases held.symm.trans absent
    · obtain rfl := Option.some.inj (held.symm.trans same)
      exact (continues.moves ahead).2

theorem reassembly_reversed : ∃ store store' merged,
    reversedSteps.foldlM (FragStore.step fragHash smallSizes) storeAt100 = some store ∧
    ipFrag fragHash smallSizes store firstHalf (richSupply 101) = some (some merged, store') ∧
    merged.ethData = halves.whole ∧ store'.freed = store.freed ++ [64, 128] := by
  let steps : List Step := reversedSteps ++ [.fragment firstHalf (richSupply 101)]
  have absent : hashoFind fragHash storeAt100.pIPFRAGHASH firstHalf.key = some none := by decide +kernel
  have fresh : ∀ datagram ∈ [halves], storeAt100.entryOf fragHash datagram.key = none := by
    intro datagram member
    have found : hashoFind fragHash storeAt100.pIPFRAGHASH datagram.key = some none := by
      rw [List.mem_singleton.mp member]
      exact absent
    rw [FragStore.entryOf, found]
    rfl
  have arrivals : (steps.filterMap Step.arrival).Perm ([halves].flatMap Datagram.frags) :=
    List.Perm.swap firstHalf secondHalf []
  have fits : ∀ step ∈ steps, ∀ datagram ∈ [halves], step.Fits smallSizes datagram := by
    intro step member datagram inside
    have room : wholeSize smallSizes firstHalf [secondHalf] ≤ 2048 := by decide
    rw [List.mem_singleton.mp inside]
    rcases List.mem_cons.mp member with rfl | member
    · exact room
    · rcases List.mem_cons.mp member with rfl | member
      · trivial
      · rw [List.mem_singleton.mp member]
        exact room
  obtain ⟨store, store', run, -, -, outcome⟩ := reassembly_any_order
    (init_bound blankTable blankFrag blankHeap (by decide) (by decide)) (List.pairwise_singleton _ _)
    fresh arrivals fits reversed_meets rfl
  have nothing : arrivedOf halves [] = [] := rfl
  have last := outcome halves List.mem_cons_self List.mem_cons_self
  rw [if_pos nothing] at last
  obtain ⟨⟨merged, calls, -, whole⟩, freed, -⟩ := last
  exact ⟨store, store', merged, run, calls, whole, freed⟩

end Run

end Upst.PreaFrag
