import Upst.PreaFragRing

/-!
The entry of a datagram, and one call of `ip_frag` where no timer runs out and no allocation fails: the
entry takes the fragment and waits, or the datagram is whole and leaves the table with its timer.
-/

namespace Upst.PreaFrag

open Bytes Word Hasho Hashg Timern Deadlines TimedTable Interleave

set_option autoImplicit false

section Entry

variable {hash : List UInt8 → Nat} {sizes : Sizes} {store store' : FragStore} {live timers live' timers' : List Nat}
  {agenda agenda' : Agenda Nat TimernData} {timerOf timerOf' : Nat → Nat} {p : Nat} {key : List UInt8}

/-- The entry of a key. -/
def FragStore.entryOf (hash : List UInt8 → Nat) (store : FragStore) (key : List UInt8) : Option IpFrag :=
  ((hashoFind hash store.pIPFRAGHASH key).getD none).map store.frag

theorem entry_iff (bound : Bound hash store live timers agenda timerOf) (length : key.length = IP_FRAG_KEY_SIZE)
    {entry : IpFrag} : store.entryOf hash key = some entry ↔
      ∃ p ∈ live, store.pIPFRAGHASH.keyAt p = key ∧ store.frag p = entry := by
  have found := find_spec bound.served.stores bound.served.inRange (length.trans (key_len bound).symm)
  rw [FragStore.entryOf, found, Option.getD_some]
  constructor
  · intro held
    obtain ⟨p, search, rfl⟩ := Option.map_eq_some_iff.mp held
    exact ⟨p, List.mem_of_find?_eq_some search, by simpa using List.find?_some search, rfl⟩
  · rintro ⟨p, member, rfl, rfl⟩
    have own := find_own bound.served.stores bound.served.inRange member
    rw [found] at own
    rw [Option.some.inj own]
    rfl

theorem entry_none (bound : Bound hash store live timers agenda timerOf) (length : key.length = IP_FRAG_KEY_SIZE) :
    store.entryOf hash key = none ↔ key ∉ live.map store.pIPFRAGHASH.keyAt := by
  constructor
  · intro none inside
    obtain ⟨p, member, same⟩ := List.mem_map.mp inside
    have held := (entry_iff bound length).mpr ⟨p, member, same, rfl⟩
    cases none.symm.trans held
  · intro absent
    cases held : store.entryOf hash key with
    | none => rfl
    | some entry =>
        obtain ⟨p, member, same, -⟩ := (entry_iff bound length).mp held
        exact absurd (List.mem_map.mpr ⟨p, member, same⟩) absent

/-- A key has the same entry in two stores that have the same records for it. -/
theorem entry_same (bound : Bound hash store live timers agenda timerOf)
    (bound' : Bound hash store' live' timers' agenda' timerOf') (length : key.length = IP_FRAG_KEY_SIZE)
    (same : ∀ q, q ∈ live' ∧ store'.pIPFRAGHASH.keyAt q = key ↔ q ∈ live ∧ store.pIPFRAGHASH.keyAt q = key)
    (records : ∀ q ∈ live, store.pIPFRAGHASH.keyAt q = key → store'.frag q = store.frag q) :
    store'.entryOf hash key = store.entryOf hash key := by
  apply Option.ext
  intro entry
  rw [entry_iff bound' length, entry_iff bound length]
  constructor
  · rintro ⟨q, member, named, rfl⟩
    obtain ⟨inside, named⟩ := (same q).mp ⟨member, named⟩
    exact ⟨q, inside, named, (records q inside named).symm⟩
  · rintro ⟨q, member, named, rfl⟩
    obtain ⟨inside, named'⟩ := (same q).mpr ⟨member, named⟩
    exact ⟨q, inside, named', records q member named⟩

/-- The end of a call: the entry waits, or the datagram leaves the store. -/
theorem end_runs (bound : Bound hash store live timers agenda timerOf) (member : p ∈ live)
    (own : store.pIPFRAGHASH.keyAt p = key) (length : key.length = IP_FRAG_KEY_SIZE) (supply : Supply)
    (whole : (store.frag p).Completes) :
    ∃ store', fragEnd hash sizes store key p supply =
        (fragResult sizes (store.frag p) supply).map (fun result => (result, store')) ∧
      store'.Bound hash ∧ store'.entryOf hash key = none ∧
      (∀ other, other.length = IP_FRAG_KEY_SIZE → other ≠ key →
        store'.entryOf hash other = store.entryOf hash other) ∧
      store'.freed = store.freed ++ (store.frag p).ring.pNODEs := by
  obtain ⟨table, info, erased, ends, bound'⟩ := @end_whole _ sizes _ _ _ _ _ _ bound member supply whole
  have distinct := served_distinct bound.served
  have kept {q : Nat} (inside : q ∈ live.erase p) :
      (store.finished p table info).pIPFRAGHASH.keyAt q = store.pIPFRAGHASH.keyAt q := erased.keys q inside
  rw [own] at ends
  refine ⟨_, ends, ⟨_, _, _, _, bound'⟩, ?_, fun other length' apart => ?_, rfl⟩
  · rw [entry_none bound' length]
    intro inside
    obtain ⟨q, remains, named⟩ := List.mem_map.mp inside
    rw [kept remains, ← own] at named
    obtain ⟨apart, there⟩ := distinct.mem_erase_iff.mp remains
    exact apart (List.inj_on_of_nodup_map bound.served.stores.keys there member named)
  · refine entry_same bound bound' length' (fun q => ?_) fun _ _ _ => rfl
    constructor
    · rintro ⟨remains, named⟩
      rw [kept remains] at named
      exact ⟨List.mem_of_mem_erase remains, named⟩
    · rintro ⟨there, named⟩
      have remains : q ∈ live.erase p := by
        refine distinct.mem_erase_iff.mpr ⟨?_, there⟩
        rintro rfl
        exact apart (named.symm.trans own)
      rw [kept remains]
      exact ⟨remains, named⟩

end Entry

section Call

variable {hash : List UInt8 → Nat} {sizes : Sizes} {store : FragStore} {pNODE : Fragment} {supply : Supply}

/-- No timer runs out at the call of `ip_frag`, and no allocation fails: of the node for the datagram, of the
entry with its timer, and of the id under which a timer moves. -/
structure Granted (hash : List UInt8 → Nat) (store : FragStore) (pNODE : Fragment) (supply : Supply) : Prop where
  ahead : store.pIPFRAGTIMER.uiCurrentTime < supply.timeout
  window : supply.timeout ≤ store.pIPFRAGTIMER.uiCurrentTime + N_DAY - ONE_MINUTE
  opens : store.entryOf hash pNODE.key = none →
    store.pIPFRAGHASH.memg.uiMemNodeAllocedCnt < store.pIPFRAGHASH.memg.uiMemNodeTotCnt ∧
      Unused store.pIPFRAGTIMER (nextId store.pIPFRAGTIMER supply.timeout) ∧ Grants supply.malloc
  moves : ∀ entry, store.entryOf hash pNODE.key = some entry →
    entry.timerNID = some { timerKey entry.timerNID with sTimeKey := s32 supply.timeout } ∨
      Unused store.pIPFRAGTIMER { timerKey entry.timerNID with sTimeKey := s32 supply.timeout }
  node : supply.pRST.isSome

/-- The entry of a datagram with one fragment more. -/
def grown (entry : Option IpFrag) (pNODE : Fragment) : IpFrag :=
  match entry with
  | none => ⟨none, 1, pNODE.last, ⟨pNODE, []⟩⟩
  | some entry => entry.add pNODE

/-- What a call leaves: the entry of the datagram, the entries of the others, and what it frees. -/
structure Took (hash : List UInt8 → Nat) (store : FragStore) (pNODE : Fragment) (entry : Option IpFrag)
    (freed : List Nat) (store' : FragStore) : Prop where
  bound : store'.Bound hash
  own : store'.entryOf hash pNODE.key = entry
  others : ∀ key, key.length = IP_FRAG_KEY_SIZE → key ≠ pNODE.key →
    store'.entryOf hash key = store.entryOf hash key
  freed : store'.freed = store.freed ++ freed

/-- A call up to the test for the whole datagram. -/
theorem frag_arrives (bound : store.Bound hash) (granted : Granted hash store pNODE supply)
    (few : ∀ entry, store.entryOf hash pNODE.key = some entry → entry.cnt.toNat + 1 < 2 ^ 16) :
    ∃ mid live timers agenda timerOf p id, Bound hash mid live timers agenda timerOf ∧ p ∈ live ∧
      mid.pIPFRAGHASH.keyAt p = pNODE.key ∧
      mid.frag p = { grown (store.entryOf hash pNODE.key) pNODE with timerNID := some id } ∧
      (∀ key, key.length = IP_FRAG_KEY_SIZE → key ≠ pNODE.key →
        mid.entryOf hash key = store.entryOf hash key) ∧ mid.freed = store.freed ∧
      ipFrag hash sizes store pNODE supply = fragEnd hash sizes mid pNODE.key p supply := by
  obtain ⟨live, timers, agenda, timerOf, bound⟩ := bound
  have length := key_length pNODE
  have found := find_spec bound.served.stores bound.served.inRange (length.trans (key_len bound).symm)
  cases held : store.entryOf hash pNODE.key with
  | none =>
      have absent := (entry_none bound length).mp held
      obtain ⟨room, unused, grants⟩ := granted.opens held
      rw [bound.served.stores.pool.count, bound.served.stores.total] at room
      obtain ⟨p, table, info, t, id, added, calls, bound'⟩ := @new_opens hash sizes store live timers agenda timerOf
        pNODE supply bound absent room granted.ahead fun _ => ⟨granted.window, unused, grants⟩
      refine ⟨_, _, _, _, _, p, id, bound', List.mem_cons_self, added.key, Function.update_self .., ?_, rfl, ?_⟩
      · intro key length' apart
        have apart' : ∀ q ∈ live, q ≠ p := by
          rintro q inside rfl
          exact added.fresh inside
        refine entry_same bound bound' length' (fun q => ?_) fun q there _ => ?_
        · constructor
          · rintro ⟨member, named⟩
            rcases List.mem_cons.mp member with rfl | there
            · exact absurd (named.symm.trans added.key) apart
            · exact ⟨there, (added.keys q there).symm.trans named⟩
          · rintro ⟨there, named⟩
            exact ⟨List.mem_cons_of_mem _ there, (added.keys q there).trans named⟩
        · exact (Function.update_of_ne (apart' q there) ..).trans (opened_other table (apart' q there))
      · rw [← calls, ipFrag]
        dsimp only
        rw [found, absent_find absent]
        rfl
  | some entry =>
      obtain ⟨p, member, own, rfl⟩ := (entry_iff bound length).mp held
      have continues : Continues store p pNODE supply :=
        ⟨few _ held, fun _ => ⟨granted.window, granted.moves _ held⟩,
          fun passed => absurd granted.ahead (Int.not_lt.mpr passed)⟩
      obtain ⟨info, id, calls, bound'⟩ :=
        @next_moves hash sizes store live timers agenda timerOf p pNODE supply bound member continues granted.ahead
      refine ⟨_, _, _, _, _, p, id, bound', member, own, Function.update_self .., ?_, rfl, ?_⟩
      · intro key length' apart
        refine entry_same bound bound' length' (fun q => Iff.rfl) fun q there named => ?_
        have apart' : q ≠ p := by
          rintro rfl
          exact apart (named.symm.trans own)
        exact (Function.update_of_ne apart' ..).trans (continued_other apart')
      · rw [← calls, ipFrag]
        dsimp only
        have search := find_own bound.served.stores bound.served.inRange member
        rw [own] at search
        rw [search]
        rfl

theorem frag_waits (bound : store.Bound hash) (granted : Granted hash store pNODE supply)
    (few : ∀ entry, store.entryOf hash pNODE.key = some entry → entry.cnt.toNat + 1 < 2 ^ 16)
    (waits : ¬(grown (store.entryOf hash pNODE.key) pNODE).Completes) :
    ∃ store' id, ipFrag hash sizes store pNODE supply = some (none, store') ∧
      Took hash store pNODE
        (some { grown (store.entryOf hash pNODE.key) pNODE with timerNID := some id }) [] store' := by
  obtain ⟨mid, live, timers, agenda, timerOf, p, id, bound', member, own, record, others, freed, calls⟩ :=
    @frag_arrives hash sizes store pNODE supply bound granted few
  have open_ : ¬(mid.frag p).Completes := by
    rw [record]
    exact waits
  refine ⟨mid, id, calls.trans (end_open open_), ⟨_, _, _, _, bound'⟩, ?_, others, ?_⟩
  · exact (entry_iff bound' (key_length pNODE)).mpr ⟨p, member, own, record⟩
  · rw [freed, List.append_nil]

theorem frag_completes (bound : store.Bound hash) (granted : Granted hash store pNODE supply)
    (few : ∀ entry, store.entryOf hash pNODE.key = some entry → entry.cnt.toNat + 1 < 2 ^ 16)
    (whole : (grown (store.entryOf hash pNODE.key) pNODE).Completes) :
    ∃ store', ipFrag hash sizes store pNODE supply =
        (fragResult sizes (grown (store.entryOf hash pNODE.key) pNODE) supply).map
          (fun result => (result, store')) ∧
      Took hash store pNODE none (grown (store.entryOf hash pNODE.key) pNODE).ring.pNODEs store' := by
  obtain ⟨mid, live, timers, agenda, timerOf, p, id, bound', member, own, record, others, freed, calls⟩ :=
    @frag_arrives hash sizes store pNODE supply bound granted few
  have closes : (mid.frag p).Completes := by
    rw [record]
    exact whole
  obtain ⟨store', ends, bound'', gone, others', freed'⟩ :=
    @end_runs hash sizes mid live timers agenda timerOf p _ bound' member own (key_length pNODE) supply closes
  rw [record] at ends freed'
  refine ⟨store', calls.trans ends, bound'', gone, fun key length apart => ?_, freed'.trans ?_⟩
  · exact (others' key length apart).trans (others key length apart)
  · rw [freed]

end Call

end Upst.PreaFrag
