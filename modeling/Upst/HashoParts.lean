import Upst.HashoStore
import Upst.Entries

/-!
A table some of whose nodes are in use but in no chain. The calls treat the nodes of the
chains as they do in a table where all are, and leave the others as they were.
-/

namespace Upst.Hasho

open Bytes Word NextFit Chain Entries

set_option autoImplicit false

theorem pool_perm {memg : MemgInfo} {live live' : List Nat} (ok : PoolOk memg live)
    (same : live'.Perm live) : PoolOk memg live' := by
  refine ⟨ok.finish, ok.start, ok.small, ?_, ?_, same.nodup_iff.mpr ok.distinct,
    ok.count.trans same.length_eq.symm, ok.cursor⟩
  · intro index bound
    rw [ok.header index bound]
    simp only [same.mem_iff]
  · exact fun p member => ok.inPool p (same.mem_iff.mp member)

/-- The table whose nodes in use are `live`, in their chains, and `away`, in none. -/
structure Parts (hash : List UInt8 → Nat) (table : HashoInfo) (live away : List Nat) : Prop where
  pool : PoolOk table.memg (live ++ away)
  size : table.memg.uiMemNodeBodySize = stHASHONODE_SIZE + table.usKeyLen + table.usDataLen
  total : table.memg.uiMemNodeTotCnt = 5 * table.uiHashSize
  room : table.memg.uiHeadRoomSize = stHASHOINFO_SIZE + OFFSET_SIZE * table.uiHashSize
  filled : ∀ p ∈ live ++ away, (table.node p).offset_Key = p + stHASHONODE_SIZE ∧
    (table.node p).offset_Data = p + stHASHONODE_SIZE + table.usKeyLen
  keys : (live.map table.keyAt).Nodup
  chains : ∀ index < table.uiHashSize,
    Chained table.links some (pointed (table.head index)) none (table.bucket hash live index)

variable {hash : List UInt8 → Nat} {table : HashoInfo} {live away : List Nat}
  {pKey pData : List UInt8}

theorem stores_parts : Stores hash table live ↔ Parts hash table live [] := by
  constructor
  · intro stores
    refine ⟨?_, stores.size, stores.total, stores.room, ?_, stores.keys, stores.chains⟩
    · rw [List.append_nil]
      exact stores.pool
    · rw [List.append_nil]
      exact stores.filled
  · intro parts
    have pool := parts.pool
    have filled := parts.filled
    rw [List.append_nil] at pool filled
    exact ⟨pool, parts.size, parts.total, parts.room, filled, parts.keys, parts.chains⟩

/-- A node with all that it holds. -/
structure SameNode (table table' : HashoInfo) (p : Nat) : Prop where
  node : table'.node p = table.node p
  key : table'.keyAt p = table.keyAt p
  data : table'.dataAt p = table.dataAt p

/-- The keys in the chains with their data. -/
def HashoInfo.entries (table : HashoInfo) (live : List Nat) : List (List UInt8 × List UInt8) :=
  live.map fun p => (table.keyAt p, table.dataAt p)

theorem entries_keys (table : HashoInfo) (live : List Nat) :
    (table.entries live).map Prod.fst = live.map table.keyAt := by
  simp [HashoInfo.entries]

namespace Parts

theorem distinct (parts : Parts hash table live away) :
    live.Nodup ∧ ∀ p ∈ away, p ∉ live := by
  obtain ⟨liveNodup, -, apart⟩ := List.nodup_append.mp parts.pool.distinct
  exact ⟨liveNodup, fun p inAway inLive => apart p inLive p inAway rfl⟩

theorem head_inside (parts : Parts hash table live away) {index : Nat}
    (bound : index < table.uiHashSize) : table.HeadInside index := by
  have room := parts.room
  simp only [HashoInfo.HeadInside, OFFSET_SIZE, stHASHOINFO_SIZE] at room ⊢
  omega

/-- A search finds the node of the chains that holds the key. -/
theorem find (parts : Parts hash table live away) (inRange : InRange hash table)
    (length : pKey.length = table.usKeyLen) :
    hashoFind hash table pKey = some (live.find? fun p => table.keyAt p = pKey) := by
  have bound := inRange pKey length
  have within := live_length_le parts.pool
  rw [List.length_append] at within
  have shorter : (table.bucket hash live (hash pKey)).length ≤ table.memg.uiMemNodeTotCnt :=
    (List.length_filter_le _ _).trans ((Nat.le_add_right _ _).trans within)
  rw [hashoFind, if_pos (parts.head_inside bound),
    find_loop_chained (parts.chains _ bound) shorter, HashoInfo.bucket, List.find?_filter]
  congr 2
  funext p
  by_cases same : table.keyAt p = pKey
  · simp [same]
  · simp [same]

theorem add_present (parts : Parts hash table live away) (inRange : InRange hash table)
    (length : pKey.length = table.usKeyLen) (present : pKey ∈ live.map table.keyAt) :
    hashoAdd hash table pKey pData = some (none, table) := by
  obtain ⟨p, member, same⟩ := List.mem_map.mp present
  have found : (live.find? fun p => table.keyAt p = pKey).isSome := by
    rw [List.find?_isSome]
    exact ⟨p, member, by simpa using same⟩
  simp [hashoAdd, parts.find inRange length, found]

theorem absent_find (absent : pKey ∉ live.map table.keyAt) :
    (live.find? fun p => table.keyAt p = pKey) = none := by
  rw [List.find?_eq_none]
  intro p member same
  exact absent (List.mem_map.mpr ⟨p, member, by simpa using same⟩)

theorem add_full (parts : Parts hash table live away) (inRange : InRange hash table)
    (length : pKey.length = table.usKeyLen) (absent : pKey ∉ live.map table.keyAt)
    (full : live.length + away.length = 5 * table.uiHashSize) :
    hashoAdd hash table pKey pData = some (none, table) := by
  have all : (live ++ away).length = table.memg.uiMemNodeTotCnt := by
    rw [List.length_append, full, parts.total]
  have refused := alloc_full parts.pool all (stHASHONODE_SIZE + table.usKeyLen + table.usDataLen)
  simp [hashoAdd, parts.find inRange length, absent_find absent, refused]

theorem add_room (parts : Parts hash table live away) (inRange : InRange hash table)
    (keyLen : pKey.length = table.usKeyLen) (dataLen : pData.length = table.usDataLen)
    (absent : pKey ∉ live.map table.keyAt)
    (room : live.length + away.length < 5 * table.uiHashSize) :
    ∃ p table', hashoAdd hash table pKey pData = some (some p, table') ∧
      Parts hash table' (p :: live) away ∧ table'.sizes = table.sizes ∧
        table'.entries (p :: live) = (pKey, pData) :: table.entries live ∧
        ∀ q ∈ away, SameNode table table' q := by
  obtain ⟨index, bound, unused, memg, allocated, shape, pool⟩ :=
    alloc_room parts.pool (by rw [parts.total, List.length_append]; exact room)
      (Nat.le_of_eq parts.size.symm)
  let p := table.memg.body index
  let filled := { table with memg := memg }.fillNode p pKey pData
  have positive : p ≠ 0 := Nat.ne_of_gt (body_positive parts.pool.start index)
  obtain ⟨ownKey, ownData⟩ : filled.keyAt p = pKey ∧ filled.dataAt p = pData := fill_own keyLen dataLen
  have distant : ∀ q ∈ live ++ away, SameNode table filled q := by
    intro q member
    obtain ⟨other, -, rfl⟩ := parts.pool.inPool q member
    have elsewhere : index ≠ other := by
      rintro rfl
      exact unused member
    have apart := body_apart parts.pool.start elsewhere
    have stride : table.memg.stride = stMEMGNODEHDR_SIZE +
        (stHASHONODE_SIZE + table.usKeyLen + table.usDataLen) := by
      rw [MemgInfo.stride, parts.size]
    rw [stride] at apart
    have bodies : p + (stHASHONODE_SIZE + table.usKeyLen + table.usDataLen) ≤ table.memg.body other ∨
        table.memg.body other + (stHASHONODE_SIZE + table.usKeyLen + table.usDataLen) ≤ p := by
      dsimp only [p]
      omega
    have fill := @fill_other { table with memg := memg } p pKey pData
    obtain ⟨node, key, data⟩ := fill keyLen dataLen (parts.filled _ member) bodies fun same =>
      elsewhere (body_injective parts.pool.start same.symm)
    exact ⟨node, key, data⟩
  have distantLive : ∀ q ∈ live, SameNode table filled q :=
    fun q member => distant q (List.mem_append_left _ member)
  have inBound : hash (filled.keyAt p) < filled.uiHashSize := by
    rw [ownKey]
    exact inRange pKey keyLen
  have chains : ∀ index < filled.uiHashSize, Chained filled.links some
      (pointed (filled.head index)) none (filled.bucket hash live index) := by
    intro index bound
    rw [bucket_congr fun q member => (distantLive q member).key]
    refine chained_congr (parts.chains index bound) ?_
    intro q member
    have same := (distantLive q (bucket_subset member).1).node
    simp [HashoInfo.links, same]
  have inside : filled.HeadInside (hash (filled.keyAt p)) := by
    have roomy := parts.head_inside inBound
    rw [HashoInfo.HeadInside] at roomy ⊢
    exact Nat.le_trans roomy (Nat.le_of_eq shape.room.symm)
  have firstInside (occupied : filled.head (hash (filled.keyAt p)) ≠ 0) :
      filled.head (hash (filled.keyAt p)) ∈ live :=
    (bucket_subset (first_of_chain (chains _ inBound) occupied).1).1
  have notFirst : filled.head (hash (filled.keyAt p)) ≠ p := by
    intro same
    have first := firstInside (by rw [same]; exact positive)
    rw [same] at first
    exact unused (List.mem_append_left _ first)
  have link := link_linked inside notFirst
  have content := linked_content filled p (hash (filled.keyAt p))
  have fields : filled.node p =
      ⟨0, 0, p + stHASHONODE_SIZE, p + stHASHONODE_SIZE + table.usKeyLen⟩ :=
    Function.update_self ..
  have unusedLive : p ∉ live := fun member => unused (List.mem_append_left _ member)
  refine ⟨p, linked filled p (hash (filled.keyAt p)), ?_, ?_, rfl, ?_, ?_⟩
  · have address : table.memg.body index + stMEMGINFO_SIZE - stMEMGINFO_SIZE = p :=
      Nat.add_sub_cancel ..
    rw [hashoAdd, parts.find inRange keyLen, absent_find absent]
    simp only [Option.bind_eq_bind, Option.bind_some, Option.isSome_none, Bool.false_eq_true,
      if_false, allocated, address]
    rw [link]
    rfl
  · refine ⟨pool, shape.size.trans parts.size, shape.total.trans parts.total,
      shape.room.trans parts.room, ?_, ?_, fun index bound =>
        linked_chains parts.distinct.1 unusedLive positive ?_ inBound chains bound⟩
    · intro q member
      rcases List.mem_cons.mp member with rfl | old
      · exact ⟨congrArg HashoNode.offset_Key fields, congrArg HashoNode.offset_Data fields⟩
      · have places := parts.filled q old
        rw [← (distant q old).node] at places
        exact places
    · rw [List.map_cons, (content p).1.trans ownKey, List.map_congr_left fun q member =>
        (content q).1.trans (distantLive q member).key]
      exact List.nodup_cons.mpr ⟨absent, parts.keys⟩
    · rw [fields]
      exact fun _ => ⟨rfl, rfl⟩
  · rw [HashoInfo.entries, List.map_cons, (content p).1.trans ownKey, (content p).2.trans ownData]
    refine congrArg _ (List.map_congr_left fun q member => ?_)
    rw [(content q).1, (content q).2, (distantLive q member).key, (distantLive q member).data]
  · intro q member
    have same := distant q (List.mem_append_right _ member)
    have other : q ≠ p := by
      rintro rfl
      exact unused (List.mem_append_right _ member)
    have notTop : filled.head (hash (filled.keyAt p)) ≠ 0 →
        q ≠ filled.head (hash (filled.keyAt p)) :=
      fun occupied top => parts.distinct.2 q member (top ▸ firstInside occupied)
    refine ⟨?_, (content q).1.trans same.key, (content q).2.trans same.data⟩
    rw [← same.node]
    exact linked_node other notTop

theorem del_absent (parts : Parts hash table live away) (inRange : InRange hash table)
    (length : pKey.length = table.usKeyLen) (absent : pKey ∉ live.map table.keyAt) :
    hashoDel hash table pKey = some table := by
  simp [hashoDel, parts.find inRange length, absent_find absent]

/-- The nodes that the links of a node of a chain lead to. -/
theorem neighbours {nodes : List Nat} {head : Option Nat} {p : Nat}
    (chain : Chained table.links some head none nodes) (distinct : nodes.Nodup)
    (member : p ∈ nodes) {q : Nat} (filled : q ≠ 0)
    (linked : (table.node p).offset_prev = q ∨ (table.node p).offset_next = q) :
    q ∈ nodes ∧ q ≠ p := by
  obtain ⟨front, rest, rfl⟩ := List.append_of_mem member
  obtain ⟨back, next, -, -⟩ := chained_around chain
  obtain ⟨-, restNodup, apart⟩ := List.nodup_append.mp distinct
  have outside := (List.nodup_cons.mp restNodup).1
  rcases linked with rfl | rfl
  · have refers : table.links.back p = some (table.node p).offset_prev := pointed_pos filled
    rw [refers, Option.or_none] at back
    have inFront := List.mem_of_getLast? back.symm
    exact ⟨List.mem_append_left _ inFront, fun same => apart _ inFront p List.mem_cons_self same⟩
  · have follows : table.links.next p = some (table.node p).offset_next := pointed_pos filled
    rw [follows] at next
    have inRest := List.mem_of_head? next.symm
    refine ⟨List.mem_append_right _ (List.mem_cons_of_mem _ inRest), ?_⟩
    exact fun same => outside (same ▸ inRest)

/-- `hasho_unlink_node` takes a node out of its chain and writes nothing to it. -/
theorem unlink (parts : Parts hash table live away) (inRange : InRange hash table) {p : Nat}
    (member : p ∈ live) :
    ∃ cut, hashoUnlinkNode hash table p = some cut ∧ Parts hash cut (live.erase p) (p :: away) ∧
      cut.sizes = table.sizes ∧ cut.memg = table.memg ∧
      (∀ q, cut.keyAt q = table.keyAt q ∧ cut.dataAt q = table.dataAt q) ∧
      ∀ q ∈ p :: away, SameNode table cut q := by
  have inBound : hash (table.keyAt p) < table.uiHashSize := inRange _ (key_length table p)
  have content := unlinked_content table p (hash (table.keyAt p))
  have moved : (live.erase p ++ p :: away).Perm (live ++ away) := by
    refine List.perm_middle.trans ?_
    exact ((List.perm_cons_erase member).symm).append_right away
  have bucketMember : p ∈ table.bucket hash live (hash (table.keyAt p)) := by
    simp [HashoInfo.bucket, member]
  have around {q : Nat} (filled : q ≠ 0)
      (linked : (table.node p).offset_prev = q ∨ (table.node p).offset_next = q) :
      q ∈ live ∧ q ≠ p := by
    obtain ⟨inBucket, other⟩ := neighbours (parts.chains _ inBound)
      (parts.distinct.1.filter _) bucketMember filled linked
    exact ⟨(bucket_subset inBucket).1, other⟩
  refine ⟨unlinked table p (hash (table.keyAt p)), unlink_unlinked (parts.head_inside inBound), ?_,
    rfl, rfl, content, ?_⟩
  · refine ⟨pool_perm parts.pool moved, parts.size, parts.total, parts.room, ?_, ?_,
      fun index bound => unlinked_chains parts.distinct.1 member inBound parts.chains bound⟩
    · intro q inside
      exact parts.filled q (moved.mem_iff.mp inside)
    · rw [List.map_congr_left fun q _ => (content q).1]
      exact parts.keys.sublist (List.erase_sublist.map table.keyAt)
  · intro q outside
    refine ⟨?_, (content q).1, (content q).2⟩
    have apart (other : Nat) (inLive : other ∈ live ∧ other ≠ p) : q ≠ other := by
      rintro rfl
      rcases List.mem_cons.mp outside with same | inAway
      · exact inLive.2 same
      · exact parts.distinct.2 q inAway inLive.1
    have notPrev : ¬((table.node p).offset_prev ≠ 0 ∧ q = (table.node p).offset_prev) :=
      fun both => apart _ (around both.1 (Or.inl rfl)) both.2
    have notNext : ¬((table.node p).offset_next ≠ 0 ∧ q = (table.node p).offset_next) :=
      fun both => apart _ (around both.1 (Or.inr rfl)) both.2
    simp only [unlinked, if_neg notPrev, if_neg notNext]

/-- A node in no chain goes back to the pool. -/
theorem free {p : Nat} (parts : Parts hash table live (p :: away)) :
    Parts hash { table with memg := memgFree table.memg (p + stMEMGINFO_SIZE) } live away := by
  have member : p ∈ live ++ p :: away := by simp
  obtain ⟨shape, pool⟩ := free_ok parts.pool member
  have outside := parts.distinct.2 p List.mem_cons_self
  rw [List.erase_append_right _ outside, List.erase_cons_head] at pool
  refine ⟨pool, shape.size.trans parts.size, shape.total.trans parts.total,
    shape.room.trans parts.room, ?_, parts.keys, parts.chains⟩
  intro q inside
  refine parts.filled q ?_
  rcases List.mem_append.mp inside with inLive | inAway
  · exact List.mem_append_left _ inLive
  · exact List.mem_append_right _ (List.mem_cons_of_mem _ inAway)

theorem del_present (parts : Parts hash table live away) (inRange : InRange hash table)
    (length : pKey.length = table.usKeyLen) (present : pKey ∈ live.map table.keyAt) :
    ∃ p table', p ∈ live ∧ table.keyAt p = pKey ∧ hashoDel hash table pKey = some table' ∧
      Parts hash table' (live.erase p) away ∧ table'.sizes = table.sizes ∧
        table'.entries (live.erase p) = table.entries (live.erase p) ∧
        ∀ q ∈ away, SameNode table table' q := by
  obtain ⟨q, inside, holds⟩ := List.mem_map.mp present
  obtain ⟨p, found⟩ : ∃ p, (live.find? fun p => table.keyAt p = pKey) = some p := by
    rw [← Option.isSome_iff_exists, List.find?_isSome]
    exact ⟨q, inside, by simpa using holds⟩
  have member := List.mem_of_find?_eq_some found
  have same : table.keyAt p = pKey := by simpa using List.find?_some found
  obtain ⟨cut, unlinked, cutParts, sizes, pool, content, frame⟩ := parts.unlink inRange member
  refine ⟨p, { cut with memg := memgFree cut.memg (p + stMEMGINFO_SIZE) }, member, same, ?_,
    cutParts.free, sizes, ?_, ?_⟩
  · rw [hashoDel, parts.find inRange length, found]
    simp only [Option.bind_eq_bind, Option.bind_some, unlinked]
  · exact List.map_congr_left fun q _ => Prod.ext (content q).1 (content q).2
  · intro q inAway
    obtain ⟨node, key, data⟩ := frame q (List.mem_cons_of_mem _ inAway)
    exact ⟨node, key, data⟩

end Parts

end Upst.Hasho
