import Upst.PreaFrag
import Upst.Interleave

/-!
What the table of fragments keeps: every entry has one timer, every fragment that was taken is in
the ring of one entry or was freed, and the timer of an entry frees its ring.
-/

namespace Upst.PreaFrag

open Bytes Word Hasho Hashg Timern Deadlines TimedTable Interleave

set_option autoImplicit false

section Rings

variable {ring : Ring} {pNODE : Fragment}

theorem sort_loop_nodes (i left : Nat) :
    (sortLoop ring pNODE i left).nodes.Perm (pNODE :: ring.nodes) := by
  induction left generalizing i with
  | zero => exact List.Perm.refl _
  | succ left hyp =>
    unfold sortLoop
    dsimp only
    split
    · have inside : ring.others.length - i % ring.nodes.length ≤ ring.others.length := Nat.sub_le _ _
      have inserted := (List.perm_insertIdx pNODE ring.others inside).cons ring.head
      exact inserted.trans (List.Perm.swap pNODE ring.head ring.others)
    · exact hyp (i + 1)

/-- The new fragment is in the ring, and the others stay in it. -/
theorem sort_nodes (nodeCnt : Nat) :
    (ipFragSort ring nodeCnt pNODE).nodes.Perm (pNODE :: ring.nodes) :=
  sort_loop_nodes 0 nodeCnt

def Ring.pNODEs (ring : Ring) : List Nat := ring.nodes.map Fragment.pNODE

theorem sort_pNODEs (nodeCnt : Nat) :
    (ipFragSort ring nodeCnt pNODE).pNODEs.Perm (pNODE.pNODE :: ring.pNODEs) :=
  (sort_nodes nodeCnt).map Fragment.pNODE

theorem key_length (pNODE : Fragment) : pNODE.key.length = IP_FRAG_KEY_SIZE := rfl

theorem callback_injective : Function.Injective delIpfrag := by
  intro key key' same
  exact (TimernData.mk.inj same).2

end Rings

section Entries

/-- The lengths of the table that PRE_A makes. -/
def fragSizes : HashoSizes := ⟨IP_FRAG_KEY_SIZE, IP_FRAG_SIZE, IP_FRAG_HASH_CNT⟩

/-- The fragments in the rings of the entries. -/
def FragStore.stored (store : FragStore) (live : List Nat) : List Nat :=
  live.flatMap fun p => (store.frag p).ring.pNODEs

/-- Each count is that of its ring, and each fragment was freed or is in a ring. -/
structure Stored (store : FragStore) (live : List Nat) : Prop where
  counts : ∀ p ∈ live, (store.frag p).cnt.toNat = (store.frag p).ring.nodes.length
  nodes : store.taken.Perm (store.freed ++ store.stored live)

variable {hash : List UInt8 → Nat} {store store' : FragStore} {live : List Nat} {p : Nat}

theorem stored_congr (same : ∀ q ∈ live, (store'.frag q).ring = (store.frag q).ring) :
    store'.stored live = store.stored live := by
  apply List.flatMap_congr
  intro q inside
  rw [same q inside]

theorem stored_erase (stored : Stored store live) (member : p ∈ live)
    (same : ∀ q ∈ live.erase p, store'.frag q = store.frag q) (taken : store'.taken = store.taken)
    (freed : store'.freed = store.freed ++ (store.frag p).ring.pNODEs) :
    Stored store' (live.erase p) := by
  constructor
  · intro q kept
    rw [same q kept]
    exact stored.counts q (List.mem_of_mem_erase kept)
  · have split : (store.stored live).Perm
        ((store.frag p).ring.pNODEs ++ store.stored (live.erase p)) :=
      (List.perm_cons_erase member).flatMap_right _
    have rest : store'.stored (live.erase p) = store.stored (live.erase p) :=
      stored_congr fun q kept => congrArg IpFrag.ring (same q kept)
    rw [taken, freed, rest, List.append_assoc]
    exact stored.nodes.trans (split.append_left store.freed)

theorem common_key (key : List UInt8) (length : key.length = IP_FRAG_KEY_SIZE) :
    (delIpfrag key).arg.take IP_FRAG_KEY_SIZE = key := by
  rw [← length]
  exact List.take_length

/-- The callback frees the ring of the entry whose key it is given, and deletes the entry. -/
theorem invoke_own (inRange : InRange hash store.pIPFRAGHASH)
    (stores : Stores hash store.pIPFRAGHASH live) (sizes : store.pIPFRAGHASH.sizes = fragSizes)
    (member : p ∈ live) :
    ∃ table, invokeDelIpfrag hash store (delIpfrag (store.pIPFRAGHASH.keyAt p)) =
        some { store.free (store.frag p).ring.nodes with pIPFRAGHASH := table } ∧
      Erased hash store.pIPFRAGHASH live p table := by
  have keyLen : store.pIPFRAGHASH.usKeyLen = IP_FRAG_KEY_SIZE := congrArg HashoSizes.usKeyLen sizes
  have key := common_key _ ((Hasho.key_length store.pIPFRAGHASH p).trans keyLen)
  obtain ⟨table, deleted, erased⟩ := del_erases inRange stores member
  refine ⟨table, ?_, erased⟩
  rw [invokeDelIpfrag, key, find_own stores inRange member]
  simp only [Option.bind_eq_bind, Option.bind_some]
  have deletes : hashoDel hash (store.free (store.frag p).ring.nodes).pIPFRAGHASH
      (store.pIPFRAGHASH.keyAt p) = some table := deleted
  rw [deletes]
  rfl

end Entries

variable {hash : List UInt8 → Nat} {sizes : Sizes} {store : FragStore} {live timers : List Nat}
  {agenda : Agenda Nat TimernData} {timerOf : Nat → Nat}

section Bound

variable {p : Nat}

def FragStore.idOf (store : FragStore) (p : Nat) : Option TimernKey := (store.frag p).timerNID

/-- The entries `live` with their timers and their rings. -/
structure Bound (hash : List UInt8 → Nat) (store : FragStore) (live timers : List Nat)
    (agenda : Agenda Nat TimernData) (timerOf : Nat → Nat) : Prop where
  sizes : store.pIPFRAGHASH.sizes = fragSizes
  served : Served hash delIpfrag store.pIPFRAGHASH store.pIPFRAGTIMER store.idOf live timers agenda
    timerOf
  stored : Stored store live

def FragStore.Bound (hash : List UInt8 → Nat) (store : FragStore) : Prop :=
  ∃ live timers agenda timerOf, PreaFrag.Bound hash store live timers agenda timerOf

theorem key_len (bound : Bound hash store live timers agenda timerOf) :
    store.pIPFRAGHASH.usKeyLen = IP_FRAG_KEY_SIZE :=
  congrArg HashoSizes.usKeyLen bound.sizes

theorem timer_key (bound : Bound hash store live timers agenda timerOf) (member : p ∈ live) :
    timerKey (store.frag p).timerNID = idAt store.pIPFRAGTIMER (timerOf p) := by
  have own : (store.frag p).timerNID = some (idAt store.pIPFRAGTIMER (timerOf p)) :=
    bound.served.ids p member
  rw [own]
  rfl

/-- The datagram of the entry is whole. -/
def IpFrag.Completes (entry : IpFrag) : Prop :=
  (entry.finish ∧ 1 < entry.cnt) ∧ 0 < ipFragCheckFinish entry.ring entry.cnt.toNat

instance (entry : IpFrag) : Decidable entry.Completes := inferInstanceAs (Decidable (_ ∧ _))

theorem end_open {key : List UInt8} {supply : Supply} (waits : ¬ (store.frag p).Completes) :
    fragEnd hash sizes store key p supply = some (none, store) := by
  unfold fragEnd
  dsimp only
  split
  · rename_i finished
    exact if_neg fun whole => waits ⟨finished, whole⟩
  · rfl

/-- The store without the entry of a whole datagram. -/
def FragStore.finished (store : FragStore) (p : Nat) (table : HashoInfo) (info : TimernInfo) : FragStore :=
  { store.free (store.frag p).ring.nodes with
    pIPFRAGHASH := table
    pIPFRAGTIMER := info }

/-- A whole datagram leaves the store with its timer. -/
theorem end_whole (bound : Bound hash store live timers agenda timerOf) (member : p ∈ live) (supply : Supply)
    (whole : (store.frag p).Completes) :
    ∃ table info, Erased hash store.pIPFRAGHASH live p table ∧
      fragEnd hash sizes store (store.pIPFRAGHASH.keyAt p) p supply =
        (fragResult sizes (store.frag p) supply).map (fun result => (result, store.finished p table info)) ∧
      Bound hash (store.finished p table info) (live.erase p) (timers.erase (timerOf p))
        (agenda.drop (timerOf p)) timerOf := by
  obtain ⟨table, info, deleted, dropped, erased, served⟩ :=
    @delete_closes _ _ _ _ _ store.idOf _ _ _ _ _ bound.served callback_injective member
      fun _ _ _ => rfl
  refine ⟨table, info, erased, ?_, ?_⟩
  · unfold fragEnd
    dsimp only
    rw [if_pos whole.1, if_pos whole.2]
    have deletes : hashoDel hash (store.free (store.frag p).ring.nodes).pIPFRAGHASH
        (store.pIPFRAGHASH.keyAt p) = some table := deleted
    have drops : timernDel (store.free (store.frag p).ring.nodes).pIPFRAGTIMER
        (timerKey ((store.free (store.frag p).ring.nodes).frag p).timerNID) =
          some (info, [.deleted (timerOf p)]) := by
      rw [← dropped, ← timer_key bound member]
      rfl
    rw [deletes, Option.bind_eq_bind]
    simp only [Option.bind_some, Option.bind_eq_bind]
    rw [drops]
    cases fragResult sizes (store.frag p) supply <;> rfl
  · constructor
    · exact erased.sizes.trans bound.sizes
    · exact served
    · exact stored_erase bound.stored member (fun _ _ => rfl) rfl rfl

theorem end_bound (bound : Bound hash store live timers agenda timerOf) (member : p ∈ live)
    {supply : Supply} {result : Option Merged} {store' : FragStore}
    (ran : fragEnd hash sizes store (store.pIPFRAGHASH.keyAt p) p supply = some (result, store')) :
    store'.Bound hash := by
  by_cases whole : (store.frag p).Completes
  · obtain ⟨table, info, -, ends, bound'⟩ := @end_whole _ sizes _ _ _ _ _ _ bound member supply whole
    rw [ends] at ran
    obtain ⟨merged, -, same⟩ := Option.map_eq_some_iff.mp ran
    obtain ⟨-, rfl⟩ := Prod.mk.inj same
    exact ⟨_, _, _, _, bound'⟩
  · rw [end_open whole] at ran
    obtain ⟨-, rfl⟩ := Prod.mk.inj (Option.some.inj ran)
    exact ⟨live, timers, agenda, timerOf, bound⟩

end Bound

section Fragments

variable {p : Nat} {pNODE : Fragment} {supply : Supply} {result : Option Merged} {store' : FragStore}

/-- `time(NULL) + DEF_IP_FRAG_TIMEOUT`. -/
def Supply.timeout (supply : Supply) : Int := supply.now + DEF_IP_FRAG_TIMEOUT

theorem stored_new {entry : IpFrag} (stored : Stored store live) (fresh : p ∉ live)
    (others : ∀ q ∈ live, store'.frag q = store.frag q) (own : store'.frag p = entry)
    (one : entry.cnt = 1) (ring : entry.ring = ⟨pNODE, []⟩)
    (taken : store'.taken = store.taken ++ [pNODE.pNODE]) (freed : store'.freed = store.freed) :
    Stored store' (p :: live) := by
  have rest : store'.stored live = store.stored live :=
    stored_congr fun q inside => congrArg IpFrag.ring (others q inside)
  constructor
  · intro q inside
    rcases List.mem_cons.mp inside with rfl | old
    · rw [own, one, ring]
      rfl
    · rw [others q old]
      exact stored.counts q old
  · have first : store'.stored (p :: live) = pNODE.pNODE :: store'.stored live := by
      rw [FragStore.stored, List.flatMap_cons, own, ring]
      rfl
    rw [taken, freed, first, rest]
    have moved := List.perm_append_singleton pNODE.pNODE store.taken
    have placed := (stored.nodes.cons pNODE.pNODE).trans List.perm_middle.symm
    exact moved.trans placed

theorem stored_next (stored : Stored store live) (distinct : live.Nodup) (member : p ∈ live)
    (few : (store.frag p).cnt.toNat + 1 < 2 ^ 16)
    (others : ∀ q ∈ live, q ≠ p → store'.frag q = store.frag q)
    (cnt : (store'.frag p).cnt = (store.frag p).cnt + 1)
    (ring : (store'.frag p).ring = ipFragSort (store.frag p).ring (store.frag p).cnt.toNat pNODE)
    (taken : store'.taken = store.taken ++ [pNODE.pNODE]) (freed : store'.freed = store.freed) :
    Stored store' live := by
  constructor
  · intro q inside
    by_cases same : q = p
    · have next : ((store.frag p).cnt + 1).toNat = (store.frag p).cnt.toNat + 1 := by
        rw [UInt16.toNat_add, UInt16.toNat_one]
        exact Nat.mod_eq_of_lt few
      rw [same, cnt, ring, next, (sort_nodes _).length_eq, List.length_cons,
        stored.counts p member]
    · rw [others q inside same]
      exact stored.counts q inside
  · have before : (store.stored live).Perm
        ((store.frag p).ring.pNODEs ++ store.stored (live.erase p)) :=
      (List.perm_cons_erase member).flatMap_right _
    have after : (store'.stored live).Perm
        ((store'.frag p).ring.pNODEs ++ store'.stored (live.erase p)) :=
      (List.perm_cons_erase member).flatMap_right _
    have rest : store'.stored (live.erase p) = store.stored (live.erase p) := by
      apply stored_congr
      intro q kept
      obtain ⟨apart, inside⟩ := distinct.mem_erase_iff.mp kept
      exact congrArg IpFrag.ring (others q inside apart)
    have grown : (store'.stored live).Perm (pNODE.pNODE :: store.stored live) := by
      rw [rest, ring] at after
      have sorted := (@sort_pNODEs (store.frag p).ring pNODE
        (store.frag p).cnt.toNat).append_right (store.stored (live.erase p))
      exact (after.trans sorted).trans (before.symm.cons pNODE.pNODE)
    rw [taken, freed]
    have moved := List.perm_append_singleton pNODE.pNODE store.taken
    have placed := (stored.nodes.cons pNODE.pNODE).trans List.perm_middle.symm
    exact (moved.trans placed).trans (grown.symm.append_left store.freed)

/-- What a new entry needs of the timers: where its deadline lies ahead, it gets a timer under an
id that no other has. -/
def Opens (store : FragStore) (supply : Supply) : Prop :=
  store.pIPFRAGTIMER.uiCurrentTime < supply.timeout →
    supply.timeout ≤ store.pIPFRAGTIMER.uiCurrentTime + N_DAY - ONE_MINUTE ∧
      Unused store.pIPFRAGTIMER (nextId store.pIPFRAGTIMER supply.timeout) ∧
      Grants supply.malloc

theorem single_open {entry : IpFrag} (one : entry.cnt = 1) : ¬ entry.Completes := by
  intro whole
  have more := whole.1.2
  rw [one] at more
  exact absurd more (by decide)

/-- The store with a new entry, before its timer is asked for. -/
def FragStore.opened (store : FragStore) (table : HashoInfo) (p : Nat) (pNODE : Fragment) :
    FragStore :=
  { store with
    pIPFRAGHASH := table
    frag := Function.update store.frag p ⟨none, 1, pNODE.last, ⟨pNODE, []⟩⟩
    taken := store.taken ++ [pNODE.pNODE] }

theorem opened_own (table : HashoInfo) :
    (store.opened table p pNODE).frag p = ⟨none, 1, pNODE.last, ⟨pNODE, []⟩⟩ :=
  Function.update_self ..

theorem opened_other (table : HashoInfo) {q : Nat} (apart : q ≠ p) :
    (store.opened table p pNODE).frag q = store.frag q :=
  Function.update_of_ne apart ..

theorem new_asks {table : HashoInfo}
    (added : hashoAdd hash store.pIPFRAGHASH pNODE.key
      (List.replicate store.pIPFRAGHASH.usDataLen 0) = some (some p, table)) :
    fragNew hash sizes { store with taken := store.taken ++ [pNODE.pNODE] } pNODE supply = (do
      let (timerNID, timer, events) ← timernAdd store.pIPFRAGTIMER (delIpfrag pNODE.key)
        supply.timeout supply.malloc quiet
      let after ← runCallbacks (invokeDelIpfrag hash)
        ((store.opened table p pNODE).setTimer timer) events
      fragEnd hash sizes (after.setFrag p { after.frag p with timerNID := timerNID }) pNODE.key p
        supply) := by
  rw [fragNew]
  dsimp only
  rw [added, Option.bind_eq_bind, Option.bind_some]
  rfl

/-- There is no room for an entry, and the fragment is freed. -/
theorem new_refused (bound : Bound hash store live timers agenda timerOf)
    (absent : pNODE.key ∉ live.map store.pIPFRAGHASH.keyAt)
    (full : live.length = 5 * store.pIPFRAGHASH.uiHashSize)
    (ran : fragNew hash sizes { store with taken := store.taken ++ [pNODE.pNODE] } pNODE supply =
      some (result, store')) : store'.Bound hash := by
  have length : pNODE.key.length = store.pIPFRAGHASH.usKeyLen :=
    (key_length pNODE).trans (key_len bound).symm
  have added := @Hasho.add_full hash _ _ pNODE.key
    (List.replicate store.pIPFRAGHASH.usDataLen 0) bound.served.stores bound.served.inRange length
    absent full
  rw [fragNew] at ran
  dsimp only at ran
  rw [added, Option.bind_eq_bind, Option.bind_some] at ran
  obtain ⟨-, rfl⟩ := Prod.mk.inj (Option.some.inj ran)
  refine ⟨live, timers, agenda, timerOf, bound.sizes, bound.served, bound.stored.counts, ?_⟩
  have moved := List.perm_append_singleton pNODE.pNODE store.taken
  have placed := bound.stored.nodes.cons pNODE.pNODE
  have back : (pNODE.pNODE :: (store.freed ++ store.stored live)).Perm
      (store.freed ++ [pNODE.pNODE] ++ store.stored live) := by
    rw [List.append_assoc]
    exact List.perm_middle.symm
  exact (moved.trans placed).trans back

/-- The timer of a new entry runs at once and deletes it. -/
theorem new_closes (bound : Bound hash store live timers agenda timerOf) {table : HashoInfo}
    (added : Added hash store.pIPFRAGHASH live p pNODE.key table) (timeout : Int) :
    ∃ after, runCallbacks (invokeDelIpfrag hash)
        ((store.opened table p pNODE).setTimer store.pIPFRAGTIMER)
        [.ranAtOnce timeout (delIpfrag pNODE.key)] = some after ∧
      (after.frag p).cnt = 1 ∧
      (after.setFrag p { after.frag p with timerNID := none }).Bound hash := by
  let opened := (store.opened table p pNODE).setTimer store.pIPFRAGTIMER
  have apart : ∀ q ∈ live, q ≠ p := by
    rintro q inside rfl
    exact added.fresh inside
  have whole : Stored opened (p :: live) :=
    @stored_new store live p pNODE opened _ bound.stored added.fresh
      (fun q inside => opened_other table (apart q inside)) (opened_own table) rfl rfl rfl rfl
  obtain ⟨table', invoked, erased⟩ := @invoke_own hash opened (p :: live) p
    (in_range_congr added.sizes bound.served.inRange) added.stores
    (added.sizes.trans bound.sizes) List.mem_cons_self
  have key : opened.pIPFRAGHASH.keyAt p = pNODE.key := added.key
  rw [key] at invoked
  let closed : FragStore := { opened.free (opened.frag p).ring.nodes with pIPFRAGHASH := table' }
  have record : closed.frag p = ⟨none, 1, pNODE.last, ⟨pNODE, []⟩⟩ := opened_own table
  have records : ∀ q ∈ live,
      (closed.setFrag p { closed.frag p with timerNID := none }).frag q = store.frag q := by
    intro q inside
    exact (Function.update_of_ne (apart q inside) ..).trans (opened_other table (apart q inside))
  refine ⟨closed, ?_, congrArg IpFrag.cnt record, live, timers, agenda, timerOf, ?_⟩
  · rw [runCallbacks, List.foldlM_cons]
    simp only [Event.invoked, Option.bind_eq_bind]
    rw [show invokeDelIpfrag hash ((store.opened table p pNODE).setTimer store.pIPFRAGTIMER)
      (delIpfrag pNODE.key) = some closed from invoked]
    rfl
  · constructor
    · exact (erased.sizes.trans added.sizes).trans bound.sizes
    · apply served_ids (added_erased bound.served added erased)
      exact fun q inside => congrArg IpFrag.timerNID (records q inside)
    · have erasedStore := @stored_erase opened
        (closed.setFrag p { closed.frag p with timerNID := none }) (p :: live) p whole
        List.mem_cons_self
      rw [List.erase_cons_head] at erasedStore
      apply erasedStore
      · intro q inside
        rw [records q inside]
        exact (opened_other table (apart q inside)).symm
      · rfl
      · rfl

/-- The first fragment of a datagram gets an entry with a timer. -/
theorem new_opens (bound : Bound hash store live timers agenda timerOf)
    (absent : pNODE.key ∉ live.map store.pIPFRAGHASH.keyAt)
    (room : live.length < 5 * store.pIPFRAGHASH.uiHashSize)
    (later : store.pIPFRAGTIMER.uiCurrentTime < supply.timeout) (opens : Opens store supply) :
    ∃ p table info t id, Added hash store.pIPFRAGHASH live p pNODE.key table ∧
      fragNew hash sizes { store with taken := store.taken ++ [pNODE.pNODE] } pNODE supply =
        fragEnd hash sizes (((store.opened table p pNODE).setTimer info).setFrag p
          ⟨some id, 1, pNODE.last, ⟨pNODE, []⟩⟩) pNODE.key p supply ∧
      Bound hash (((store.opened table p pNODE).setTimer info).setFrag p ⟨some id, 1, pNODE.last, ⟨pNODE, []⟩⟩)
        (p :: live) (t :: timers) (agenda.after (.accepted t supply.timeout (delIpfrag pNODE.key)))
        (Function.update timerOf p t) := by
  have length : pNODE.key.length = store.pIPFRAGHASH.usKeyLen :=
    (key_length pNODE).trans (key_len bound).symm
  have size : store.pIPFRAGHASH.uiHashSize = IP_FRAG_HASH_CNT :=
    congrArg HashoSizes.uiHashSize bound.sizes
  obtain ⟨p, table, adds, added⟩ :=
    add_stores bound.served length List.length_replicate absent room
  obtain ⟨window, unused, grants⟩ := opens later
  have few : live.length < 10 * N_DAY := by
    rw [size] at room
    exact Nat.lt_trans room (by decide)
  let entry : IpFrag :=
    ⟨some (nextId store.pIPFRAGTIMER supply.timeout), 1, pNODE.last, ⟨pNODE, []⟩⟩
  have apart : ∀ q ∈ live, q ≠ p := by
    rintro q inside rfl
    exact added.fresh inside
  have own : ((store.opened table p pNODE).setFrag p entry).frag p = entry :=
    Function.update_self ..
  have others : ∀ q ∈ live,
      ((store.opened table p pNODE).setFrag p entry).frag q = store.frag q := by
    intro q inside
    exact (Function.update_of_ne (apart q inside) ..).trans (opened_other table (apart q inside))
  obtain ⟨t, info, accepted, served⟩ :=
    @add_waits _ _ _ _ _ ((store.opened table p pNODE).setFrag p entry).idOf _ _ _ _ _ _ _ _ _
      bound.served callback_injective added later window unused (grants _) few
      (congrArg IpFrag.timerNID own) fun q inside => congrArg IpFrag.timerNID (others q inside)
  have record : { ((store.opened table p pNODE).setTimer info).frag p with
      timerNID := some (nextId store.pIPFRAGTIMER supply.timeout) } = entry := by
    show { (store.opened table p pNODE).frag p with
      timerNID := some (nextId store.pIPFRAGTIMER supply.timeout) } = entry
    rw [opened_own]
  refine ⟨p, table, info, t, nextId store.pIPFRAGTIMER supply.timeout, added, ?_, ?_⟩
  · rw [new_asks adds, accepted]
    show fragEnd hash sizes (((store.opened table p pNODE).setTimer info).setFrag p
      { ((store.opened table p pNODE).setTimer info).frag p with
        timerNID := some (nextId store.pIPFRAGTIMER supply.timeout) }) pNODE.key p supply = _
    rw [record]
  · constructor
    · exact added.sizes.trans bound.sizes
    · exact served
    · exact stored_new bound.stored added.fresh others own rfl rfl rfl rfl

/-- The first fragment of a datagram. -/
theorem new_bound (bound : Bound hash store live timers agenda timerOf)
    (absent : pNODE.key ∉ live.map store.pIPFRAGHASH.keyAt)
    (opens : live.length < 5 * store.pIPFRAGHASH.uiHashSize → Opens store supply)
    (ran : fragNew hash sizes { store with taken := store.taken ++ [pNODE.pNODE] } pNODE supply =
      some (result, store')) : store'.Bound hash := by
  have length : pNODE.key.length = store.pIPFRAGHASH.usKeyLen :=
    (key_length pNODE).trans (key_len bound).symm
  have size : store.pIPFRAGHASH.uiHashSize = IP_FRAG_HASH_CNT :=
    congrArg HashoSizes.uiHashSize bound.sizes
  by_cases full : live.length = 5 * store.pIPFRAGHASH.uiHashSize
  · exact new_refused bound absent full ran
  have within := Hasho.live_length_le bound.served.stores.pool
  rw [bound.served.stores.total] at within
  have room := Nat.lt_of_le_of_ne within full
  obtain ⟨p, table, adds, added⟩ :=
    add_stores bound.served length List.length_replicate absent room
  rw [new_asks adds] at ran
  by_cases passed : supply.timeout ≤ store.pIPFRAGTIMER.uiCurrentTime
  · obtain ⟨after, callbacks, single, bound'⟩ := new_closes bound added supply.timeout
    rw [add_passed passed, Option.bind_eq_bind, Option.bind_some] at ran
    dsimp only at ran
    rw [callbacks, Option.bind_eq_bind, Option.bind_some] at ran
    have waits : ¬ ((after.setFrag p { after.frag p with timerNID := none }).frag p).Completes := by
      apply single_open
      rw [FragStore.setFrag]
      dsimp only
      rw [Function.update_self]
      exact single
    rw [end_open waits] at ran
    obtain ⟨-, rfl⟩ := Prod.mk.inj (Option.some.inj ran)
    exact bound'
  · obtain ⟨q, table', info, t, id, added', proceeds, grown⟩ :=
      @new_opens _ sizes _ _ _ _ _ _ _ bound absent room (Int.lt_of_not_ge passed) (opens room)
    rw [← new_asks adds, proceeds, ← added'.key] at ran
    exact end_bound grown List.mem_cons_self ran

/-- What the next fragment of a datagram needs. Its entry has a count left and, where the deadline
lies ahead, the timer gets an id of its own; where it has passed, the datagram is not whole. -/
structure Continues (store : FragStore) (p : Nat) (pNODE : Fragment) (supply : Supply) : Prop where
  few : (store.frag p).cnt.toNat + 1 < 2 ^ 16
  moves : store.pIPFRAGTIMER.uiCurrentTime < supply.timeout →
    supply.timeout ≤ store.pIPFRAGTIMER.uiCurrentTime + N_DAY - ONE_MINUTE ∧
      (store.idOf p = some { timerKey (store.idOf p) with sTimeKey := s32 supply.timeout } ∨
        Unused store.pIPFRAGTIMER
          { timerKey (store.idOf p) with sTimeKey := s32 supply.timeout })
  waits : supply.timeout ≤ store.pIPFRAGTIMER.uiCurrentTime →
    ¬ ((store.frag p).add pNODE).Completes

instance (store : FragStore) (p : Nat) (pNODE : Fragment) (supply : Supply) :
    Decidable (Continues store p pNODE supply) :=
  decidable_of_iff
    ((store.frag p).cnt.toNat + 1 < 2 ^ 16 ∧
      (store.pIPFRAGTIMER.uiCurrentTime < supply.timeout →
        supply.timeout ≤ store.pIPFRAGTIMER.uiCurrentTime + N_DAY - ONE_MINUTE ∧
          (store.idOf p = some { timerKey (store.idOf p) with sTimeKey := s32 supply.timeout } ∨
            Unused store.pIPFRAGTIMER
              { timerKey (store.idOf p) with sTimeKey := s32 supply.timeout })) ∧
      (supply.timeout ≤ store.pIPFRAGTIMER.uiCurrentTime →
        ¬ ((store.frag p).add pNODE).Completes))
    ⟨fun ⟨few, moves, waits⟩ => ⟨few, moves, waits⟩,
      fun ⟨few, moves, waits⟩ => ⟨few, moves, waits⟩⟩

/-- The store with one fragment more in an entry, before its timer is set. -/
def FragStore.continued (store : FragStore) (p : Nat) (pNODE : Fragment) : FragStore :=
  { store with
    frag := Function.update store.frag p ((store.frag p).add pNODE)
    taken := store.taken ++ [pNODE.pNODE] }

theorem continued_own : (store.continued p pNODE).frag p = (store.frag p).add pNODE :=
  Function.update_self ..

theorem continued_other {q : Nat} (apart : q ≠ p) :
    (store.continued p pNODE).frag q = store.frag q :=
  Function.update_of_ne apart ..

theorem next_asks :
    fragNext hash sizes { store with taken := store.taken ++ [pNODE.pNODE] } p pNODE supply = (do
      let (timerNID, timer, events) ← timernUpdate store.pIPFRAGTIMER
        (timerKey (store.frag p).timerNID) supply.timeout quiet
      let after ← runCallbacks (invokeDelIpfrag hash)
        ((store.continued p pNODE).setTimer timer) events
      fragEnd hash sizes (after.setFrag p { after.frag p with timerNID := timerNID }) pNODE.key p
        supply) := by
  have record : ((store.continued p pNODE).frag p).timerNID = (store.frag p).timerNID := by
    rw [continued_own]
    rfl
  rw [← record]
  rfl

/-- The timer of the entry runs at once and deletes it. -/
theorem next_closes (bound : Bound hash store live timers agenda timerOf) (member : p ∈ live)
    (few : (store.frag p).cnt.toNat + 1 < 2 ^ 16)
    (passed : supply.timeout ≤ store.pIPFRAGTIMER.uiCurrentTime) :
    ∃ info event after, timernUpdate store.pIPFRAGTIMER (timerKey (store.frag p).timerNID)
        supply.timeout quiet = some (none, info, [event]) ∧
      runCallbacks (invokeDelIpfrag hash) ((store.continued p pNODE).setTimer info) [event] =
        some after ∧
      after.frag p = (store.frag p).add pNODE ∧
      (after.setFrag p { after.frag p with timerNID := none }).Bound hash := by
  have distinct := served_distinct bound.served
  obtain ⟨info, updated, closes⟩ :=
    update_closes bound.served callback_injective member passed
  let continued := (store.continued p pNODE).setTimer info
  have whole : Stored continued live :=
    @stored_next store live p pNODE continued bound.stored distinct member few
      (fun q _ apart => continued_other apart) (congrArg IpFrag.cnt continued_own)
      (congrArg IpFrag.ring continued_own) rfl rfl
  obtain ⟨table, invoked, erased⟩ := @invoke_own hash continued live p bound.served.inRange
    bound.served.stores bound.sizes member
  let closed : FragStore := { continued.free (continued.frag p).ring.nodes with pIPFRAGHASH := table }
  have records : ∀ q ∈ live, q ≠ p →
      (closed.setFrag p { closed.frag p with timerNID := none }).frag q = store.frag q := by
    intro q _ apart
    exact (Function.update_of_ne apart ..).trans (continued_other apart)
  refine ⟨info, .ranLate (timerOf p) supply.timeout (delIpfrag (store.pIPFRAGHASH.keyAt p)),
    closed, ?_, ?_, continued_own, live.erase p, timers.erase (timerOf p),
    agenda.drop (timerOf p), timerOf, ?_⟩
  · rw [timer_key bound member]
    exact updated
  · rw [runCallbacks, List.foldlM_cons]
    simp only [Event.invoked, Option.bind_eq_bind]
    rw [show invokeDelIpfrag hash ((store.continued p pNODE).setTimer info)
      (delIpfrag (store.pIPFRAGHASH.keyAt p)) = some closed from invoked]
    rfl
  · constructor
    · exact erased.sizes.trans bound.sizes
    · exact closes table _ erased fun q inside apart => congrArg IpFrag.timerNID (records q inside apart)
    · apply stored_erase whole member
      · intro q kept
        obtain ⟨apart, inside⟩ := distinct.mem_erase_iff.mp kept
        rw [records q inside apart]
        exact (continued_other apart).symm
      · rfl
      · rfl

/-- A further fragment of a datagram goes into its entry, whose timer moves. -/
theorem next_moves (bound : Bound hash store live timers agenda timerOf) (member : p ∈ live)
    (continues : Continues store p pNODE supply)
    (later : store.pIPFRAGTIMER.uiCurrentTime < supply.timeout) :
    ∃ info id, fragNext hash sizes { store with taken := store.taken ++ [pNODE.pNODE] } p pNODE supply =
        fragEnd hash sizes (((store.continued p pNODE).setTimer info).setFrag p
          { (store.frag p).add pNODE with timerNID := some id }) pNODE.key p supply ∧
      Bound hash (((store.continued p pNODE).setTimer info).setFrag p
          { (store.frag p).add pNODE with timerNID := some id }) live
        (timerOf p :: timers.erase (timerOf p)) (agenda.after (.moved (timerOf p) supply.timeout)) timerOf := by
  obtain ⟨window, free⟩ := continues.moves later
  have id : { timerKey (store.idOf p) with sTimeKey := s32 supply.timeout } =
      movedId store.pIPFRAGTIMER (timerOf p) supply.timeout := by
    rw [movedId, ← timer_key bound member]
    rfl
  rw [id] at free
  let entry : IpFrag := { (store.frag p).add pNODE with
    timerNID := some (movedId store.pIPFRAGTIMER (timerOf p) supply.timeout) }
  have own : ((store.continued p pNODE).setFrag p entry).frag p = entry :=
    Function.update_self ..
  have others : ∀ q ∈ live, q ≠ p →
      ((store.continued p pNODE).setFrag p entry).frag q = store.frag q := by
    intro q _ apart
    exact (Function.update_of_ne apart ..).trans (continued_other apart)
  obtain ⟨info, updated, served⟩ :=
    @update_moves _ _ _ _ _ ((store.continued p pNODE).setFrag p entry).idOf _ _ _ _ _ _
      bound.served callback_injective member later window (own_spare bound.served member free)
      (congrArg IpFrag.timerNID own)
      fun q inside apart => congrArg IpFrag.timerNID (others q inside apart)
  have record : { ((store.continued p pNODE).setTimer info).frag p with
      timerNID := some (movedId store.pIPFRAGTIMER (timerOf p) supply.timeout) } = entry := by
    show { (store.continued p pNODE).frag p with
      timerNID := some (movedId store.pIPFRAGTIMER (timerOf p) supply.timeout) } = entry
    rw [continued_own]
  refine ⟨info, movedId store.pIPFRAGTIMER (timerOf p) supply.timeout, ?_, ?_⟩
  · rw [next_asks, timer_key bound member, updated]
    show fragEnd hash sizes (((store.continued p pNODE).setTimer info).setFrag p
      { ((store.continued p pNODE).setTimer info).frag p with
        timerNID := some (movedId store.pIPFRAGTIMER (timerOf p) supply.timeout) }) pNODE.key p supply = _
    rw [record]
  · constructor
    · exact bound.sizes
    · exact served
    · exact stored_next bound.stored (served_distinct bound.served) member continues.few others
        (congrArg IpFrag.cnt own) (congrArg IpFrag.ring own) rfl rfl

/-- A further fragment of a datagram. -/
theorem next_bound (bound : Bound hash store live timers agenda timerOf) (member : p ∈ live)
    (key : store.pIPFRAGHASH.keyAt p = pNODE.key) (continues : Continues store p pNODE supply)
    (ran : fragNext hash sizes { store with taken := store.taken ++ [pNODE.pNODE] } p pNODE supply =
      some (result, store')) : store'.Bound hash := by
  by_cases passed : supply.timeout ≤ store.pIPFRAGTIMER.uiCurrentTime
  · obtain ⟨info, event, after, updated, callbacks, record, bound'⟩ :=
      @next_closes hash store live timers agenda timerOf p pNODE supply bound member continues.few
        passed
    rw [next_asks, updated, Option.bind_eq_bind, Option.bind_some] at ran
    dsimp only at ran
    rw [callbacks, Option.bind_eq_bind, Option.bind_some] at ran
    have waits : ¬ ((after.setFrag p { after.frag p with timerNID := none }).frag p).Completes := by
      rw [FragStore.setFrag]
      dsimp only
      rw [Function.update_self, record]
      exact continues.waits passed
    rw [end_open waits] at ran
    obtain ⟨-, rfl⟩ := Prod.mk.inj (Option.some.inj ran)
    exact bound'
  · obtain ⟨info, id, proceeds, grown⟩ :=
      @next_moves _ sizes _ _ _ _ _ _ _ _ bound member continues (Int.lt_of_not_ge passed)
    rw [proceeds, ← key] at ran
    exact end_bound grown member ran

end Fragments

section Pass

/-- The timers that are due delete their entries. -/
theorem invoke_runs (bound : store.Bound hash) {clock : Int} (early : 0 ≤ clock)
    (late : clock + 1 + N_DAY < 2 ^ 31) :
    ∃ info events store', timernInvoke clock (fun _ _ => .done) store.pIPFRAGTIMER = some (info, events) ∧
      runCallbacks (invokeDelIpfrag hash) (store.setTimer info) events = some store' ∧ store'.Bound hash := by
  obtain ⟨live, timers, agenda, timerOf, bound⟩ := bound
  let Inv (info : TimernInfo) (state : FragStore) (live : List Nat) : Prop :=
    state.pIPFRAGTIMER = info ∧ state.frag = store.frag ∧ Stores hash state.pIPFRAGHASH live ∧
      state.pIPFRAGHASH.sizes = store.pIPFRAGHASH.sizes ∧
      (∀ q ∈ live, state.pIPFRAGHASH.keyAt q = store.pIPFRAGHASH.keyAt q) ∧ Stored state live
  have closes : ∀ info state live p, Inv info state live → p ∈ live →
      ∃ state', invokeDelIpfrag hash state (delIpfrag (store.pIPFRAGHASH.keyAt p)) = some state' ∧
        Inv info state' (live.erase p) := by
    intro info state live p inv member
    obtain ⟨timer, frag, stores, sizes, keys, stored⟩ := inv
    obtain ⟨table, invoked, erased⟩ := invoke_own (in_range_congr sizes bound.served.inRange) stores
      (sizes.trans bound.sizes) member
    rw [keys p member] at invoked
    refine ⟨_, invoked, timer, frag, erased.stores, erased.sizes.trans sizes, ?_, ?_⟩
    · intro q kept
      exact (erased.keys q kept).trans (keys q (List.mem_of_mem_erase kept))
    · exact stored_erase stored member (fun _ _ => rfl) rfl rfl
  obtain ⟨info, events, state', live', timers', passed, invoked, inv, served⟩ :=
    @pass_served _ _ _ _ _ _ _ _ _ _ (invokeDelIpfrag hash) Inv FragStore.pIPFRAGHASH FragStore.idOf
      callback_injective bound.served clock early late store.setTimer
      (fun _ => ⟨rfl, rfl, bound.served.stores, rfl, fun _ _ => rfl, bound.stored.counts,
        bound.stored.nodes⟩) closes fun _ state _ inv =>
          ⟨inv.2.2.1, inv.2.2.2.1, fun q inside =>
            ⟨inv.2.2.2.2.1 q inside, congrArg IpFrag.timerNID (congrFun inv.2.1 q)⟩⟩
  obtain ⟨timer, -, -, sizes, -, stored⟩ := inv
  refine ⟨info, events, state', passed, invoked, live', timers', agenda.afterAll events, timerOf,
    sizes.trans bound.sizes, ?_, stored⟩
  rw [timer]
  exact served

theorem invoke_bound (bound : store.Bound hash) {clock : Int} (early : 0 ≤ clock)
    (late : clock + 1 + N_DAY < 2 ^ 31) {store' : FragStore}
    (ran : invokeTimers hash store clock = some store') : store'.Bound hash := by
  obtain ⟨info, events, after, passed, invoked, bound'⟩ := invoke_runs bound early late
  rw [invokeTimers, passed, Option.bind_eq_bind, Option.bind_some] at ran
  dsimp only at ran
  rw [invoked] at ran
  obtain rfl := Option.some.inj ran
  exact bound'

end Pass

section Run

variable {pNODE : Fragment} {supply : Supply}

/-- What `ip_frag` needs for the fragment of a new datagram or of one in the table. -/
def FragmentOk (hash : List UInt8 → Nat) (store : FragStore) (pNODE : Fragment) (supply : Supply) :
    Prop :=
  match hashoFind hash store.pIPFRAGHASH pNODE.key with
  | none => True
  | some none =>
    store.pIPFRAGHASH.memg.uiMemNodeAllocedCnt < store.pIPFRAGHASH.memg.uiMemNodeTotCnt →
      Opens store supply
  | some (some p) => Continues store p pNODE supply

/-- `timerN_invoke` counts seconds in 31 bits. -/
def StepOk (hash : List UInt8 → Nat) (store : FragStore) : Step → Prop
  | .fragment pNODE supply => FragmentOk hash store pNODE supply
  | .invoke clock => 0 ≤ clock ∧ clock + 1 + N_DAY < 2 ^ 31

theorem fragment_bound (bound : store.Bound hash) (ok : FragmentOk hash store pNODE supply)
    {result : Option Merged} {store' : FragStore}
    (ran : ipFrag hash sizes store pNODE supply = some (result, store')) : store'.Bound hash := by
  obtain ⟨live, timers, agenda, timerOf, bound⟩ := bound
  have found := find_spec bound.served.stores bound.served.inRange
    ((key_length pNODE).trans (key_len bound).symm)
  rw [FragmentOk, found] at ok
  rw [ipFrag] at ran
  dsimp only at ran
  rw [found, Option.bind_eq_bind, Option.bind_some] at ran
  cases search : live.find? fun p => store.pIPFRAGHASH.keyAt p = pNODE.key with
  | none =>
    rw [search] at ok ran
    apply new_bound bound _ _ ran
    · intro inside
      obtain ⟨p, member, same⟩ := List.mem_map.mp inside
      exact List.find?_eq_none.mp search p member (decide_eq_true same)
    · intro room
      apply ok
      rw [bound.served.stores.pool.count, bound.served.stores.total]
      exact room
  | some p =>
    rw [search] at ok ran
    have own : store.pIPFRAGHASH.keyAt p = pNODE.key := by
      simpa using List.find?_some search
    exact next_bound bound (List.mem_of_find?_eq_some search) own ok ran

theorem step_bound {step : Step} {store' : FragStore} (ok : StepOk hash store step)
    (stepped : store.step hash sizes step = some store') (bound : store.Bound hash) :
    store'.Bound hash := by
  cases step with
  | fragment pNODE supply =>
    obtain ⟨⟨result, after⟩, ran, rfl⟩ := Option.map_eq_some_iff.mp stepped
    exact fragment_bound bound ok ran
  | invoke clock => exact invoke_bound bound ok.1 ok.2 stepped

/-- Each entry has one timer that waits, with its key, and no other timer waits; each count is that
of its ring, and each fragment that was taken was freed once or is in the ring of one entry. The
timer of an entry frees its ring and takes that entry out. -/
structure Kept (hash : List UInt8 → Nat) (store : FragStore) (live timers : List Nat)
    (timerOf : Nat → Nat) : Prop where
  stores : Stores hash store.pIPFRAGHASH live
  linked : Linked store.pIPFRAGTIMER.pstHASHGINFO timers
  pairs : (live.map timerOf).Perm timers
  timed : ∀ p ∈ live, store.idOf p = some (idAt store.pIPFRAGTIMER (timerOf p)) ∧
    (store.pIPFRAGTIMER.pstHASHGINFO.node (timerOf p)).pstData =
      delIpfrag (store.pIPFRAGHASH.keyAt p)
  stored : Stored store live
  expires : ∀ p ∈ live, ∃ table,
    invokeDelIpfrag hash store (delIpfrag (store.pIPFRAGHASH.keyAt p)) =
      some { store.free (store.frag p).ring.nodes with pIPFRAGHASH := table } ∧
    hashoFind hash table (store.pIPFRAGHASH.keyAt p) = some none ∧
    ∀ q ∈ live.erase p, hashoFind hash table (store.pIPFRAGHASH.keyAt q) = some (some q)

theorem bound_kept (bound : Bound hash store live timers agenda timerOf) :
    Kept hash store live timers timerOf := by
  have served := bound.served
  constructor
  · exact served.stores
  · exact served.named.keeps.linked
  · exact timers_perm served callback_injective
  · exact fun p member => ⟨served.ids p member, timer_data served member⟩
  · exact bound.stored
  · intro p member
    obtain ⟨table, invoked, erased⟩ :=
      invoke_own served.inRange served.stores bound.sizes member
    have inRange := in_range_congr erased.sizes served.inRange
    refine ⟨table, invoked, ?_, ?_⟩
    · have length : (store.pIPFRAGHASH.keyAt p).length = table.usKeyLen :=
        (Hasho.key_length _ p).trans (congrArg HashoSizes.usKeyLen erased.sizes).symm
      rw [find_spec erased.stores inRange length]
      refine congrArg some (absent_find ?_)
      rw [List.map_congr_left erased.keys]
      exact key_gone served.stores.keys (served_distinct served) member
    · intro q kept
      rw [← erased.keys q kept]
      exact find_own erased.stores inRange kept

/-- The hash function of PRE_A, which gives none of its own. -/
def fragHash : List UInt8 → Nat := hashoFuncDefault fragSizes

theorem init_bound (rawHash : HashoInfo) (rawFrag : Nat → IpFrag)
    (heap : Nat → HashgNode TimernKey TimernData) {clock : Int} (early : 0 < clock)
    (late : clock + N_DAY < 2 ^ 31) :
    (initStore rawHash rawFrag clock heap).Bound fragHash := by
  have uncut : stHASHOINFO_SIZE + OFFSET_SIZE * IP_FRAG_HASH_CNT < 2 ^ 32 := by decide
  have stores := init_stores fragHash rawHash IP_FRAG_KEY_SIZE IP_FRAG_SIZE uncut
  have keeps := init_keeps (Int.le_of_lt early) late heap
  have small : Word.s32 clock = clock := s32_small (by omega) (by omega)
  have named : Named (timernInit clock heap) (start clock) [] := by
    refine ⟨keeps, ?_, nofun⟩
    show 0 < Word.s32 clock
    rw [small]
    exact early
  refine ⟨[], [], start clock, id, rfl, ⟨?_, stores, ⟨List.nodup_nil, nofun, ?_⟩, named, nofun⟩,
    nofun, List.Perm.refl _⟩
  · exact fun key _ => Nat.mod_lt _ (by decide)
  · exact fun t waits => absurd rfl waits

/-- Every run in which each new entry is given its timer, no entry gets more fragments than it can
count, and no clock that is set back runs the timer of a whole datagram. -/
theorem fragments_kept (sizes : Sizes) (rawHash : HashoInfo) (rawFrag : Nat → IpFrag)
    (heap : Nat → HashgNode TimernKey TimernData) {clock : Int} (early : 0 < clock)
    (late : clock + N_DAY < 2 ^ 31) {steps : List Step} {store : FragStore}
    (meets : Meets (FragStore.step fragHash sizes) (StepOk fragHash)
      (initStore rawHash rawFrag clock heap) steps)
    (run : steps.foldlM (FragStore.step fragHash sizes) (initStore rawHash rawFrag clock heap) =
      some store) :
    ∃ live timers timerOf, Kept fragHash store live timers timerOf := by
  obtain ⟨live, timers, agenda, timerOf, bound⟩ :=
    run_invariant (fun _ _ _ ok stepped bound => step_bound ok stepped bound)
      (init_bound rawHash rawFrag heap early late) meets run
  exact ⟨live, timers, timerOf, bound_kept bound⟩

/-- A fragment of 40 bytes. -/
def fragmentAt (pNODE usIPFrag : Nat) : Fragment :=
  ⟨pNODE, 1, 2, 7, usIPFrag, 60, 20, 40, 74, fun _ => 0⟩

def blankFrag (_ : Nat) : IpFrag := ⟨none, 0, false, ⟨fragmentAt 0 0, []⟩⟩

/-- A process that starts at second 100. -/
def storeAt100 : FragStore := initStore blankTable blankFrag 100 blankHeap

def smallSizes : Sizes := ⟨40, 200⟩

def richSupply (now : Int) : Supply := ⟨now, nextBlock, some 4096, 2048⟩

/-- The fragments of a datagram, and a pass of the timers. -/
def threeSteps : List Step :=
  [.fragment (fragmentAt 64 IP_FRAG_MORE) (richSupply 100), .fragment (fragmentAt 128 5) (richSupply 101),
    .invoke 102]

theorem fragments_kept_three : ∃ store live timers timerOf,
    threeSteps.foldlM (FragStore.step fragHash smallSizes) storeAt100 = some store ∧
      Kept fragHash store live timers timerOf := by
  have first : FragmentOk fragHash storeAt100 (fragmentAt 64 IP_FRAG_MORE) (richSupply 100) := by
    have found : hashoFind fragHash storeAt100.pIPFRAGHASH (fragmentAt 64 IP_FRAG_MORE).key =
        some none := by decide +kernel
    rw [FragmentOk, found]
    exact fun _ _ => ⟨by decide, by decide +kernel, next_block_grants⟩
  have second : (storeAt100.step fragHash smallSizes
      (.fragment (fragmentAt 64 IP_FRAG_MORE) (richSupply 100))).all fun store =>
        decide (hashoFind fragHash store.pIPFRAGHASH (fragmentAt 128 5).key = some (some 908) ∧
          Continues store 908 (fragmentAt 128 5) (richSupply 101)) := by decide +kernel
  have ran : (threeSteps.foldlM (FragStore.step fragHash smallSizes) storeAt100).isSome := by
    decide +kernel
  have meets : Meets (FragStore.step fragHash smallSizes) (StepOk fragHash) storeAt100 threeSteps := by
    refine ⟨first, fun after stepped => ⟨?_, fun _ _ => ⟨⟨by decide, by decide⟩, fun _ _ => trivial⟩⟩⟩
    rw [stepped] at second
    obtain ⟨found, continues⟩ := of_decide_eq_true second
    show FragmentOk fragHash after (fragmentAt 128 5) (richSupply 101)
    rw [FragmentOk, found]
    exact continues
  obtain ⟨store, run⟩ := Option.isSome_iff_exists.mp ran
  obtain ⟨live, timers, timerOf, kept⟩ := @fragments_kept smallSizes blankTable blankFrag blankHeap 100
    (by decide) (by decide) threeSteps store meets run
  exact ⟨store, live, timers, timerOf, run, kept⟩

/-- Without memory for its timer an entry has none. -/
theorem entry_without_timer : ∃ store,
    storeAt100.step fragHash smallSizes (.fragment (fragmentAt 64 IP_FRAG_MORE)
      { richSupply 100 with malloc := fun _ => none }) = some store ∧
      ¬ ∃ live timers timerOf, Kept fragHash store live timers timerOf := by
  have counts : (storeAt100.step fragHash smallSizes (.fragment (fragmentAt 64 IP_FRAG_MORE)
      { richSupply 100 with malloc := fun _ => none })).map (fun store =>
        (store.pIPFRAGHASH.memg.uiMemNodeAllocedCnt, store.pIPFRAGTIMER.pstHASHGINFO.uiLinkedCnt)) =
      some (1, 0) := by decide +kernel
  obtain ⟨store, stepped, counted⟩ := Option.map_eq_some_iff.mp counts
  obtain ⟨entries, waiting⟩ := Prod.mk.inj counted
  refine ⟨store, stepped, ?_⟩
  intro ⟨live, timers, timerOf, kept⟩
  rw [kept.stores.pool.count] at entries
  rw [kept.linked.count, ← kept.pairs.length_eq, List.length_map, entries] at waiting
  cases waiting

end Run

end Upst.PreaFrag
