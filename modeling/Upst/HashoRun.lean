import Upst.HashoParts
import Upst.Refine

/-!
A table of offsets as a bounded finite map. Every call answers as the map does and leaves
a table that stores the map's entries, so that the same holds of every sequence of calls
from `hasho_init` on.
-/

namespace Upst.Hasho

open Bytes Word NextFit Chain Entries Refine

set_option autoImplicit false

section Calls

variable {hash : List UInt8 → Nat} {table : HashoInfo} {live : List Nat} {pKey pData : List UInt8}

theorem in_range_congr {table' : HashoInfo} (same : table'.sizes = table.sizes)
    (inRange : InRange hash table) : InRange hash table' := by
  intro key length
  have keyLen : table'.usKeyLen = table.usKeyLen := congrArg HashoSizes.usKeyLen same
  have hashSize : table'.uiHashSize = table.uiHashSize := congrArg HashoSizes.uiHashSize same
  rw [hashSize]
  exact inRange key (length.trans keyLen)

theorem absent_find (absent : pKey ∉ live.map table.keyAt) :
    (live.find? fun p => table.keyAt p = pKey) = none :=
  Parts.absent_find absent

theorem add_full (stores : Stores hash table live) (inRange : InRange hash table)
    (length : pKey.length = table.usKeyLen) (absent : pKey ∉ live.map table.keyAt)
    (full : live.length = 5 * table.uiHashSize) :
    hashoAdd hash table pKey pData = some (none, table) :=
  (stores_parts.mp stores).add_full inRange length absent full

theorem add_room (stores : Stores hash table live) (inRange : InRange hash table)
    (keyLen : pKey.length = table.usKeyLen) (dataLen : pData.length = table.usDataLen)
    (absent : pKey ∉ live.map table.keyAt) (room : live.length < 5 * table.uiHashSize) :
    ∃ p table', hashoAdd hash table pKey pData = some (some p, table') ∧
      Stores hash table' (p :: live) ∧ table'.sizes = table.sizes ∧
        table'.entries (p :: live) = (pKey, pData) :: table.entries live := by
  obtain ⟨p, table', added, parts, sizes, entries, -⟩ :=
    (stores_parts.mp stores).add_room inRange keyLen dataLen absent room
  exact ⟨p, table', added, stores_parts.mpr parts, sizes, entries⟩

theorem del_absent (stores : Stores hash table live) (inRange : InRange hash table)
    (length : pKey.length = table.usKeyLen) (absent : pKey ∉ live.map table.keyAt) :
    hashoDel hash table pKey = some table :=
  (stores_parts.mp stores).del_absent inRange length absent

theorem del_present (stores : Stores hash table live) (inRange : InRange hash table)
    (length : pKey.length = table.usKeyLen) (present : pKey ∈ live.map table.keyAt) :
    ∃ p table', p ∈ live ∧ table.keyAt p = pKey ∧ hashoDel hash table pKey = some table' ∧
      Stores hash table' (live.erase p) ∧ table'.sizes = table.sizes ∧
        table'.entries (live.erase p) = table.entries (live.erase p) := by
  obtain ⟨p, table', member, same, deleted, parts, sizes, entries, -⟩ :=
    (stores_parts.mp stores).del_present inRange length present
  exact ⟨p, table', member, same, deleted, stores_parts.mpr parts, sizes, entries⟩

/-- The same entries hold the same keys. -/
theorem entries_same {table' : HashoInfo} (same : table'.entries live = table.entries live) :
    ∀ p ∈ live, table'.keyAt p = table.keyAt p := by
  have keys : live.map table'.keyAt = live.map table.keyAt := by
    rw [← entries_keys, ← entries_keys, same]
  exact List.map_inj_left.mp keys

theorem find_own (stores : Stores hash table live) (inRange : InRange hash table) {p : Nat}
    (member : p ∈ live) : hashoFind hash table (table.keyAt p) = some (some p) := by
  rw [find_spec stores inRange (key_length table p)]
  cases found : live.find? fun q => table.keyAt q = table.keyAt p with
  | none =>
      have missing := List.find?_eq_none.mp found p member
      simp at missing
  | some q =>
      have same := List.find?_some found
      have inside := List.mem_of_find?_eq_some found
      exact congrArg (fun q => some (some q))
        (List.inj_on_of_nodup_map stores.keys inside member (of_decide_eq_true same))

/-- The node that holds a key is taken out under it. -/
theorem del_own (stores : Stores hash table live) (inRange : InRange hash table) {p : Nat}
    (member : p ∈ live) : ∃ table', hashoDel hash table (table.keyAt p) = some table' ∧
      Stores hash table' (live.erase p) ∧ table'.sizes = table.sizes ∧
        ∀ q ∈ live.erase p, table'.keyAt q = table.keyAt q := by
  obtain ⟨q, table', inside, same, deleted, stores', sizes, entries⟩ :=
    del_present stores inRange (key_length table p) (List.mem_map_of_mem member)
  obtain rfl : q = p := List.inj_on_of_nodup_map stores.keys inside member same
  exact ⟨table', deleted, stores', sizes, entries_same entries⟩

theorem reset_stores (stores : Stores hash table live) : Stores hash (hashoReset table) [] := by
  refine ⟨reset_ok stores.pool, stores.size, stores.total, stores.room, by simp, List.nodup_nil, ?_⟩
  intro index bound
  have inside : table.HeadInside index := head_inside stores bound
  show pointed (if table.HeadInside index then 0 else table.head index) = none
  rw [if_pos inside]
  rfl

/-- A new table stores nothing, if its sizes are not cut to `U32`. -/
theorem init_stores (hash : List UInt8 → Nat) (raw : HashoInfo) (usKeyLen usDataLen : Nat)
    {uiHashSize : Nat} (uncut : stHASHOINFO_SIZE + OFFSET_SIZE * uiHashSize < 2 ^ 32) :
    Stores hash (hashoInit raw usKeyLen usDataLen uiHashSize) [] := by
  simp only [stHASHOINFO_SIZE, OFFSET_SIZE] at uncut
  have room : u32 (stHASHOINFO_SIZE + uiHashSize * OFFSET_SIZE) =
      stHASHOINFO_SIZE + OFFSET_SIZE * uiHashSize := by
    simp only [u32, stHASHOINFO_SIZE, OFFSET_SIZE]
    omega
  have total : u32 (uiHashSize * 5) = 5 * uiHashSize := by
    simp only [u32]
    omega
  refine ⟨init_ok _ _ _ (Nat.mod_lt _ (by decide)), rfl, total, room, by simp, List.nodup_nil, ?_⟩
  intro index bound
  have inside : stHASHOINFO_SIZE + OFFSET_SIZE * (index + 1) ≤
      (hashoInit raw usKeyLen usDataLen uiHashSize).memg.uiHeadRoomSize := by
    have below : index < uiHashSize := bound
    have roomEq : (hashoInit raw usKeyLen usDataLen uiHashSize).memg.uiHeadRoomSize =
        stHASHOINFO_SIZE + OFFSET_SIZE * uiHashSize := room
    rw [roomEq]
    simp only [stHASHOINFO_SIZE, OFFSET_SIZE]
    omega
  exact congrArg pointed (if_pos inside)

end Calls

section Specification

abbrev Contents := Finmap fun _ : List UInt8 => List UInt8

def specStep (capacity : Nat) (map : Contents) : Op → Answer × Contents
  | .add pKey pData =>
      if pKey ∈ map ∨ map.keys.card = capacity then (.added false, map)
      else (.added true, map.insert pKey pData)
  | .find pKey => (.found (map.lookup pKey), map)
  | .del pKey => (.done, map.erase pKey)
  | .reset => (.done, ∅)

end Specification

section Agreement

variable {hash : List UInt8 → Nat} {sizes : HashoSizes} {table : HashoInfo} {map : Contents}
  {live : List Nat} {pKey : List UInt8}

/-- The table of given sizes that stores the entries of the map. -/
structure Matches (hash : List UInt8 → Nat) (sizes : HashoSizes) (table : HashoInfo)
    (map : Contents) : Prop where
  inRange : InRange hash table
  sizesEq : table.sizes = sizes
  stored : ∃ live, Stores hash table live ∧ SameEntries map (table.entries live)

/-- The same with nodes in use that are in no chain. -/
structure Holding (hash : List UInt8 → Nat) (sizes : HashoSizes) (away : List Nat)
    (table : HashoInfo) (map : Contents) : Prop where
  inRange : InRange hash table
  sizesEq : table.sizes = sizes
  stored : ∃ live, Parts hash table live away ∧ SameEntries map (table.entries live)

theorem matches_holding : Matches hash sizes table map ↔ Holding hash sizes [] table map := by
  constructor
  · rintro ⟨inRange, sizesEq, live, stores, same⟩
    exact ⟨inRange, sizesEq, live, stores_parts.mp stores, same⟩
  · rintro ⟨inRange, sizesEq, live, parts, same⟩
    exact ⟨inRange, sizesEq, live, stores_parts.mpr parts, same⟩

theorem parts_card {away : List Nat} (parts : Parts hash table live away)
    (same : SameEntries map (table.entries live)) : map.keys.card = live.length := by
  rw [same_card same (by rw [entries_keys]; exact parts.keys), HashoInfo.entries, List.length_map]

theorem add_holding {away : List Nat} (inv : Holding hash sizes away table map)
    {pData : List UInt8} (keyLen : pKey.length = sizes.usKeyLen)
    (dataLen : pData.length = sizes.usDataLen) :
    ∃ after, table.step hash (.add pKey pData) =
        some ((specStep (5 * sizes.uiHashSize - away.length) map (.add pKey pData)).1, after) ∧
      Holding hash sizes away after
        (specStep (5 * sizes.uiHashSize - away.length) map (.add pKey pData)).2 ∧
      ((specStep (5 * sizes.uiHashSize - away.length) map (.add pKey pData)).1 = .added false →
        after = table) ∧
      ∀ q ∈ away, SameNode table after q := by
  obtain ⟨inRange, rfl, live, parts, same⟩ := inv
  have member : pKey ∈ map ↔ pKey ∈ live.map table.keyAt := by
    rw [same_mem same, entries_keys]
  have card := parts_card parts same
  have within := live_length_le parts.pool
  rw [parts.total, List.length_append] at within
  generalize capacityEq : 5 * table.sizes.uiHashSize - away.length = capacity
  have capacityIs : live.length = capacity ↔ live.length + away.length = 5 * table.uiHashSize := by
    rw [← capacityEq]
    show live.length = 5 * table.uiHashSize - away.length ↔ _
    omega
  have refuse (refused : hashoAdd hash table pKey pData = some (none, table))
      (full : pKey ∈ map ∨ map.keys.card = capacity) :
      ∃ after, table.step hash (.add pKey pData) =
          some ((specStep capacity map (.add pKey pData)).1, after) ∧
        Holding hash table.sizes away after (specStep capacity map (.add pKey pData)).2 ∧
        ((specStep capacity map (.add pKey pData)).1 = .added false → after = table) ∧
        ∀ q ∈ away, SameNode table after q := by
    simp only [specStep, if_pos full]
    exact ⟨table, by simp [HashoInfo.step, refused], ⟨inRange, rfl, live, parts, same⟩,
      fun _ => rfl, fun _ _ => ⟨rfl, rfl, rfl⟩⟩
  by_cases present : pKey ∈ map
  · exact refuse (parts.add_present inRange keyLen (member.mp present)) (Or.inl present)
  · have absent := fun stored => present (member.mpr stored)
    by_cases full : map.keys.card = capacity
    · have all := capacityIs.mp (card.symm.trans full)
      exact refuse (parts.add_full inRange keyLen absent all) (Or.inr full)
    · have room : live.length + away.length < 5 * table.uiHashSize :=
        Nat.lt_of_le_of_ne within fun equal => full (card.trans (capacityIs.mpr equal))
      obtain ⟨p, after, added, newParts, sizesEq, entries, frame⟩ :=
        parts.add_room inRange keyLen dataLen absent room
      simp only [specStep, if_neg (not_or.mpr ⟨present, full⟩)]
      refine ⟨after, by simp [HashoInfo.step, added], ?_, by simp, frame⟩
      refine ⟨in_range_congr sizesEq inRange, sizesEq, p :: live, newParts, ?_⟩
      rw [entries]
      exact same_insert same present pData

/-- The entries without those of a node are those without its key. -/
theorem entries_erase {away : List Nat} (parts : Parts hash table live away) {p : Nat}
    (member : p ∈ live) :
    table.entries (live.erase p) =
      (table.entries live).filter fun entry => entry.1 ≠ table.keyAt p := by
  rw [erase_eq_filter_key table.keyAt parts.keys member, HashoInfo.entries, HashoInfo.entries,
    List.filter_map]
  rfl

theorem del_holding {away : List Nat} (inv : Holding hash sizes away table map)
    (keyLen : pKey.length = sizes.usKeyLen) :
    ∃ after, hashoDel hash table pKey = some after ∧
      Holding hash sizes away after (map.erase pKey) ∧ ∀ q ∈ away, SameNode table after q := by
  obtain ⟨inRange, rfl, live, parts, same⟩ := inv
  by_cases present : pKey ∈ live.map table.keyAt
  · obtain ⟨p, after, member, key, deleted, newParts, sizesEq, entries, frame⟩ :=
      parts.del_present inRange keyLen present
    refine ⟨after, deleted,
      ⟨in_range_congr sizesEq inRange, sizesEq, live.erase p, newParts, ?_⟩, frame⟩
    rw [entries, entries_erase parts member, key]
    exact same_erase same pKey
  · have absent : pKey ∉ map := by
      rw [same_mem same, entries_keys]
      exact present
    exact ⟨table, parts.del_absent inRange keyLen present,
      ⟨inRange, rfl, live, parts, same_erase_absent same absent⟩, fun _ _ => ⟨rfl, rfl, rfl⟩⟩

theorem add_matches (inv : Matches hash sizes table map) {pData : List UInt8}
    (keyLen : pKey.length = sizes.usKeyLen) (dataLen : pData.length = sizes.usDataLen) :
    ∃ after, table.step hash (.add pKey pData) =
        some ((specStep (5 * sizes.uiHashSize) map (.add pKey pData)).1, after) ∧
      Matches hash sizes after (specStep (5 * sizes.uiHashSize) map (.add pKey pData)).2 ∧
      ((specStep (5 * sizes.uiHashSize) map (.add pKey pData)).1 = .added false →
        after = table) := by
  obtain ⟨after, stepped, holding, unchanged, -⟩ :=
    add_holding (matches_holding.mp inv) keyLen dataLen
  exact ⟨after, stepped, matches_holding.mpr holding, unchanged⟩

theorem del_matches (inv : Matches hash sizes table map) (keyLen : pKey.length = sizes.usKeyLen) :
    ∃ after, hashoDel hash table pKey = some after ∧
      Matches hash sizes after (map.erase pKey) := by
  obtain ⟨after, deleted, holding, -⟩ := del_holding (matches_holding.mp inv) keyLen
  exact ⟨after, deleted, matches_holding.mpr holding⟩

theorem step_matches (inv : Matches hash sizes table map) {op : Op} (fits : sizes.Fits op) :
    ∃ after, table.step hash op = some ((specStep (5 * sizes.uiHashSize) map op).1, after) ∧
      Matches hash sizes after (specStep (5 * sizes.uiHashSize) map op).2 ∧
      ((specStep (5 * sizes.uiHashSize) map op).1 = .added false → after = table) := by
  cases op with
  | add pKey pData => exact add_matches inv fits.1 fits.2
  | find pKey =>
      obtain ⟨inRange, rfl, live, stores, same⟩ := inv
      refine ⟨table, ?_, ⟨inRange, rfl, live, stores, same⟩, fun _ => rfl⟩
      simp only [HashoInfo.step, find_spec stores inRange fits, Option.bind_eq_bind,
        Option.bind_some, specStep, lookup_find same]
  | del pKey =>
      obtain ⟨after, deleted, matched⟩ := del_matches inv fits
      exact ⟨after, by simp [HashoInfo.step, deleted, specStep], matched, by simp [specStep]⟩
  | reset =>
      obtain ⟨inRange, rfl, live, stores, -⟩ := inv
      exact ⟨hashoReset table, rfl, ⟨inRange, rfl, [], reset_stores stores, same_empty⟩,
        by simp [specStep]⟩

theorem init_matches {hash : List UInt8 → Nat} (raw : HashoInfo) {sizes : HashoSizes}
    (inRange : ∀ key : List UInt8, key.length = sizes.usKeyLen → hash key < sizes.uiHashSize)
    (uncut : stHASHOINFO_SIZE + OFFSET_SIZE * sizes.uiHashSize < 2 ^ 32) :
    Matches hash sizes (hashoInit raw sizes.usKeyLen sizes.usDataLen sizes.uiHashSize) ∅ :=
  ⟨inRange, rfl, [], init_stores hash raw _ _ uncut, same_empty⟩

end Agreement

section Run

variable {hash : List UInt8 → Nat} {sizes : HashoSizes} {table : HashoInfo} {map : Contents}

/-- The headers that are marked as allocated. -/
def MemgInfo.allocedHdrs (memg : MemgInfo) : List Nat :=
  (List.range memg.uiMemNodeTotCnt).filter fun index =>
    (memg.nodeHdr (memg.hdrOffset index)).ucIsFree = .alloced

theorem alloced_hdrs_length {memg : MemgInfo} {live : List Nat} (ok : PoolOk memg live) :
    memg.allocedHdrs.length = live.length := by
  have bodies : (memg.allocedHdrs.map memg.body).Perm live := by
    rw [List.perm_ext_iff_of_nodup ?_ ok.distinct]
    · intro p
      rw [List.mem_map]
      constructor
      · rintro ⟨index, member, rfl⟩
        obtain ⟨bound, alloced⟩ := List.mem_filter.mp member
        rw [ok.header index (List.mem_range.mp bound)] at alloced
        by_contra missing
        simp [missing] at alloced
      · intro member
        obtain ⟨index, bound, rfl⟩ := ok.inPool p member
        refine ⟨index, List.mem_filter.mpr ⟨List.mem_range.mpr bound, ?_⟩, rfl⟩
        rw [ok.header index bound]
        simp [member]
    · exact (List.nodup_range.filter _).map fun _ _ same => body_injective ok.start same
  rw [← bodies.length_eq, List.length_map]

/-- Counter, headers and chains of a table are those of as many entries as the map has. -/
structure Sound (table : HashoInfo) (map : Contents) : Prop where
  counter : table.memg.uiMemNodeAllocedCnt = map.keys.card
  headers : table.memg.allocedHdrs.length = map.keys.card
  chains : ∀ index < table.uiHashSize, ∃ nodes : List Nat,
    nodes.Nodup ∧ Chained table.links some (pointed (table.head index)) none nodes

theorem matches_sound (inv : Matches hash sizes table map) : Sound table map := by
  obtain ⟨-, -, live, stores, same⟩ := inv
  have card : map.keys.card = live.length := by
    rw [same_card same (by rw [entries_keys]; exact stores.keys), HashoInfo.entries, List.length_map]
  refine ⟨stores.pool.count.trans card.symm, (alloced_hdrs_length stores.pool).trans card.symm, ?_⟩
  intro index bound
  exact ⟨table.bucket hash live index, stores.pool.distinct.filter _, stores.chains index bound⟩

/-- Every sequence of calls on a table whose sizes are not cut to `U32` is answered as by a
map of `5 * uiHashSize` entries. -/
theorem table_run (raw : HashoInfo) (hash : List UInt8 → Nat) (sizes : HashoSizes)
    (inRange : ∀ key : List UInt8, key.length = sizes.usKeyLen → hash key < sizes.uiHashSize)
    (uncut : stHASHOINFO_SIZE + OFFSET_SIZE * sizes.uiHashSize < 2 ^ 32)
    (ops : List Op) (fits : ∀ op ∈ ops, sizes.Fits op) :
    ∃ table, replay (HashoInfo.step hash)
        (hashoInit raw sizes.usKeyLen sizes.usDataLen sizes.uiHashSize) ops =
          some ((specReplay (specStep (5 * sizes.uiHashSize)) ∅ ops).1, table) ∧
      Sound table (specReplay (specStep (5 * sizes.uiHashSize)) ∅ ops).2 ∧
      ∀ pKey pData after, sizes.Fits (.add pKey pData) →
        hashoAdd hash table pKey pData = some (none, after) → after = table := by
  have simulates : Simulates (HashoInfo.step hash) (specStep (5 * sizes.uiHashSize))
      (fun _ op => sizes.Fits op) (Matches hash sizes) := by
    intro table map op inv fits
    obtain ⟨after, stepped, matched, -⟩ := step_matches inv fits
    exact ⟨after, stepped, matched⟩
  obtain ⟨table, ran, matched⟩ := simulates.replay (init_matches raw inRange uncut)
    (along_all fits ∅)
  refine ⟨table, ran, matches_sound matched, ?_⟩
  intro pKey pData after addFits refused
  obtain ⟨spec, stepped, -, unchanged⟩ := step_matches matched addFits
  rw [HashoInfo.step, refused, Option.bind_eq_bind, Option.bind_some, Option.some.injEq,
    Prod.mk.injEq] at stepped
  obtain ⟨answer, rfl⟩ := stepped
  exact unchanged answer.symm

/-- A segment before any table is made in it. -/
def blankTable : HashoInfo where
  usKeyLen := 0
  usDataLen := 0
  uiHashSize := 0
  memg := ⟨0, 0, 0, 0, 0, 0, 0, 0, fun _ => freeHdr⟩
  head := fun _ => 0
  node := fun _ => ⟨0, 0, 0, 0⟩
  byteAt := fun _ => 0

theorem table_run_two : ∃ table, replay (HashoInfo.step fun _ => 1) (hashoInit blankTable 1 1 2)
    [.add [3] [7], .add [4] [8], .del [3], .add [4] [9], .find [4]] =
      some ((specReplay (specStep 10) ∅
        [.add [3] [7], .add [4] [8], .del [3], .add [4] [9], .find [4]]).1, table) := by
  obtain ⟨table, ran, -⟩ := table_run blankTable (fun _ => 1) ⟨1, 1, 2⟩ (fun _ _ => by decide)
    (by decide) [.add [3] [7], .add [4] [8], .del [3], .add [4] [9], .find [4]]
    (by simp [HashoSizes.Fits])
  exact ⟨table, ran⟩

/-- Five times 858993460 buckets are four nodes for `memg_init`: the fifth add is refused. -/
theorem fifth_add_refused :
    (replay (HashoInfo.step fun _ => 0) (hashoInit blankTable 1 0 858993460)
        [.add [0] [], .add [1] [], .add [2] [], .add [3] [], .add [4] []]).map Prod.fst =
      some [.added true, .added true, .added true, .added true, .added false] ∧
    (specReplay (specStep (5 * 858993460)) ∅
        [.add [0] [], .add [1] [], .add [2] [], .add [3] [], .add [4] []]).1 =
      [.added true, .added true, .added true, .added true, .added true] := by
  constructor
  · decide +kernel
  · decide +kernel

end Run

end Upst.Hasho
