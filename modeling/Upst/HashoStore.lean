import Upst.Hasho
import Upst.NextFit
import Upst.Chain
import Mathlib.Data.List.Perm.Subperm

/-!
What a table of offsets holds between two calls: the nodes of the pool that are in use, and
for every bucket the chain of those whose key falls into it. Each call of the pool and of
the table is described by what it does to the list of nodes in use.
-/

namespace Upst.Hasho

open Bytes Word NextFit Chain

set_option autoImplicit false

section Pool

def MemgInfo.arena (memg : MemgInfo) : Arena where
  start := memg.offsetNodeStart
  stride := memg.stride
  count := memg.uiMemNodeTotCnt

theorem arena_cell (memg : MemgInfo) (index : Nat) :
    memg.arena.cell index = memg.hdrOffset index := rfl

/-- The offset of a node from `stHASHOINFO`. -/
def MemgInfo.body (memg : MemgInfo) (index : Nat) : Nat :=
  memg.hdrOffset index + stMEMGNODEHDR_SIZE - stMEMGINFO_SIZE

/-- The pool whose nodes in use are `live`. -/
structure PoolOk (memg : MemgInfo) (live : List Nat) : Prop where
  finish : memg.offsetNodeEnd = memg.hdrOffset memg.uiMemNodeTotCnt
  start : stMEMGINFO_SIZE ≤ memg.offsetNodeStart
  small : memg.uiMemNodeTotCnt < 2 ^ 32
  header : ∀ index < memg.uiMemNodeTotCnt, memg.nodeHdr (memg.hdrOffset index) =
    ⟨MEMG_ID, if memg.body index ∈ live then .alloced else .free⟩
  inPool : ∀ p ∈ live, ∃ index < memg.uiMemNodeTotCnt, p = memg.body index
  distinct : live.Nodup
  count : memg.uiMemNodeAllocedCnt = live.length
  cursor : 0 < memg.uiMemNodeTotCnt →
    ∃ index < memg.uiMemNodeTotCnt, memg.offsetFreeList = memg.hdrOffset index

variable {memg : MemgInfo} {live : List Nat}

theorem stride_pos (memg : MemgInfo) : 0 < memg.arena.stride :=
  Nat.add_pos_left (by decide : 0 < stMEMGNODEHDR_SIZE) _

theorem body_address (start : stMEMGINFO_SIZE ≤ memg.offsetNodeStart) (index : Nat) :
    memg.body index + stMEMGINFO_SIZE = memg.hdrOffset index + stMEMGNODEHDR_SIZE := by
  simp only [MemgInfo.body, MemgInfo.hdrOffset]
  omega

theorem body_positive (start : stMEMGINFO_SIZE ≤ memg.offsetNodeStart) (index : Nat) :
    0 < memg.body index := by
  have address := body_address start index
  simp only [MemgInfo.hdrOffset, stMEMGINFO_SIZE, stMEMGNODEHDR_SIZE] at address start
  omega

/-- Nodes are a whole stride apart. -/
theorem body_apart (start : stMEMGINFO_SIZE ≤ memg.offsetNodeStart) {first second : Nat}
    (distinct : first ≠ second) :
    memg.body first + memg.stride ≤ memg.body second ∨
      memg.body second + memg.stride ≤ memg.body first := by
  have address := body_address start first
  have address' := body_address start second
  rcases Nat.lt_or_gt_of_ne distinct with before | after
  · have gap := memg.arena.cell_lt before
    rw [arena_cell, arena_cell] at gap
    have same : memg.arena.stride = memg.stride := rfl
    omega
  · have gap := memg.arena.cell_lt after
    rw [arena_cell, arena_cell] at gap
    have same : memg.arena.stride = memg.stride := rfl
    omega

theorem body_injective (start : stMEMGINFO_SIZE ≤ memg.offsetNodeStart) {first second : Nat}
    (same : memg.body first = memg.body second) : first = second := by
  by_contra distinct
  have apart := body_apart start distinct
  have positive : 0 < memg.stride := stride_pos memg
  omega

theorem live_length_le (ok : PoolOk memg live) : live.length ≤ memg.uiMemNodeTotCnt := by
  have within : live.Subperm ((List.range memg.uiMemNodeTotCnt).map memg.body) := by
    refine List.subperm_of_subset ok.distinct ?_
    intro p member
    obtain ⟨index, bound, rfl⟩ := ok.inPool p member
    exact List.mem_map_of_mem (List.mem_range.mpr bound)
  simpa using within.length_le

/-- A pool that is not full has a free header. -/
theorem room_free (ok : PoolOk memg live) (room : live.length < memg.uiMemNodeTotCnt) :
    ∃ index < memg.uiMemNodeTotCnt, memg.body index ∉ live := by
  by_contra full
  have covered : ((List.range memg.uiMemNodeTotCnt).map memg.body).Subperm live := by
    refine List.subperm_of_subset ?_ ?_
    · exact List.nodup_range.map fun _ _ same => body_injective ok.start same
    · intro p member
      obtain ⟨index, bound, rfl⟩ := List.mem_map.mp member
      by_contra missing
      exact full ⟨index, List.mem_range.mp bound, missing⟩
  have enough := covered.length_le
  rw [List.length_map, List.length_range] at enough
  omega

theorem scan_search (finish : memg.offsetNodeEnd = memg.hdrOffset memg.uiMemNodeTotCnt)
    (tries freeList : Nat) :
    memgScan memg tries freeList =
      memg.arena.search (fun hdr => (memg.nodeHdr hdr).ucIsFree == .free) tries freeList := by
  induction tries generalizing freeList with
  | zero => rfl
  | succ tries ih =>
      simp only [memgScan, Arena.search, beq_iff_eq, ih]
      rw [Arena.advance, finish]
      rfl

/-- The fields of the pool that are set once. -/
structure SameShape (memg memg' : MemgInfo) : Prop where
  room : memg'.uiHeadRoomSize = memg.uiHeadRoomSize
  size : memg'.uiMemNodeBodySize = memg.uiMemNodeBodySize
  total : memg'.uiMemNodeTotCnt = memg.uiMemNodeTotCnt
  start : memg'.offsetNodeStart = memg.offsetNodeStart

/-- The header of one node marked, and the counter and the cursor set to match. -/
theorem mark_ok (ok : PoolOk memg live) {index cursor alloced : Nat} {use : NodeUse}
    {live' : List Nat} (bound : index < memg.uiMemNodeTotCnt)
    (own : use = if memg.body index ∈ live' then .alloced else .free)
    (others : ∀ other, other ≠ index → (memg.body other ∈ live' ↔ memg.body other ∈ live))
    (inPool : ∀ p ∈ live', p ∈ live ∨ p = memg.body index) (distinct : live'.Nodup)
    (count : alloced = live'.length)
    (moved : ∃ next < memg.uiMemNodeTotCnt, cursor = memg.hdrOffset next) :
    PoolOk { memg.setUse (memg.hdrOffset index) use with
      offsetFreeList := cursor
      uiMemNodeAllocedCnt := alloced } live' := by
  refine ⟨ok.finish, ok.start, ok.small, ?_, ?_, distinct, count, fun _ => moved⟩
  · intro other bound'
    show Function.update memg.nodeHdr (memg.hdrOffset index) _ (memg.hdrOffset other) =
      ⟨MEMG_ID, if memg.body other ∈ live' then .alloced else .free⟩
    by_cases same : other = index
    · rw [same, Function.update_self, ok.header index bound, own]
    · have apart : memg.hdrOffset other ≠ memg.hdrOffset index := fun equal =>
        same (Arena.cell_injective (stride_pos memg) equal)
      rw [Function.update_of_ne apart, ok.header other bound']
      simp only [others other same]
  · intro p member
    rcases inPool p member with old | rfl
    · exact ok.inPool p old
    · exact ⟨index, bound, rfl⟩

theorem alloc_full (ok : PoolOk memg live) (full : live.length = memg.uiMemNodeTotCnt) (uiSize : Nat) :
    memgAlloc memg uiSize = (none, memg) := by
  unfold memgAlloc
  split
  · rfl
  · rw [if_neg]
    rw [ok.count, full]
    exact Nat.lt_irrefl _

theorem alloc_room (ok : PoolOk memg live) (room : live.length < memg.uiMemNodeTotCnt) {uiSize : Nat}
    (fits : uiSize ≤ memg.uiMemNodeBodySize) :
    ∃ index < memg.uiMemNodeTotCnt, memg.body index ∉ live ∧ ∃ memg',
      memgAlloc memg uiSize = (some (memg.body index + stMEMGINFO_SIZE), memg') ∧
        SameShape memg memg' ∧ PoolOk memg' (memg.body index :: live) := by
  obtain ⟨start, startBound, position⟩ := ok.cursor (by omega)
  have search := scan_search ok.finish (memg.uiMemNodeTotCnt + 1) memg.offsetFreeList
  have stops := Arena.search_stops (stride_pos memg)
    (fun hdr => (memg.nodeHdr hdr).ucIsFree == .free) (memg.uiMemNodeTotCnt + 1) startBound
  have nothing := Arena.search_none_iff (stride_pos memg)
    (fun hdr => (memg.nodeHdr hdr).ucIsFree == .free) startBound
    (Nat.le_succ memg.uiMemNodeTotCnt)
  rw [arena_cell, ← position, ← search] at stops nothing
  obtain ⟨⟨next, nextBound, cursor⟩, taken⟩ := stops
  have found : (memgScan memg (memg.uiMemNodeTotCnt + 1) memg.offsetFreeList).1 ≠ none := by
    intro empty
    obtain ⟨index, bound, unused⟩ := room_free ok room
    have used := nothing.mp empty index bound
    rw [arena_cell, ok.header index bound, if_neg unused] at used
    cases used
  obtain ⟨hdr, stopped⟩ := Option.ne_none_iff_exists'.mp found
  obtain ⟨isFree, index, bound, rfl⟩ := taken hdr stopped
  rw [arena_cell] at stopped isFree
  have unused : memg.body index ∉ live := by
    intro used
    rw [ok.header index bound, if_pos used] at isFree
    cases isFree
  have counting : u32 (memg.uiMemNodeAllocedCnt + 1) = (memg.body index :: live).length := by
    have small := ok.small
    rw [ok.count, List.length_cons]
    exact u32_small (by omega)
  have marked := mark_ok ok bound
    (if_pos List.mem_cons_self).symm (fun other distinct => by
      rw [List.mem_cons, or_iff_right fun same => distinct (body_injective ok.start same)])
    (fun p member => (List.mem_cons.mp member).symm) (List.nodup_cons.mpr ⟨unused, ok.distinct⟩)
    counting ⟨next, nextBound, cursor⟩
  refine ⟨index, bound, unused, _, ?_, ?_, marked⟩
  case refine_2 => exact ⟨rfl, rfl, rfl, rfl⟩
  unfold memgAlloc
  rw [if_neg (Nat.not_lt_of_le fits), if_pos (by rw [ok.count]; exact room),
    body_address ok.start]
  generalize memgScan memg (memg.uiMemNodeTotCnt + 1) memg.offsetFreeList = result at stopped ⊢
  obtain ⟨place, later⟩ := result
  obtain rfl : place = some (memg.hdrOffset index) := stopped
  rfl

theorem free_ok (ok : PoolOk memg live) {p : Nat} (member : p ∈ live) :
    SameShape memg (memgFree memg (p + stMEMGINFO_SIZE)) ∧
      PoolOk (memgFree memg (p + stMEMGINFO_SIZE)) (live.erase p) := by
  obtain ⟨index, bound, rfl⟩ := ok.inPool p member
  have header := ok.header index bound
  rw [if_pos member] at header
  have positive := List.length_pos_of_mem member
  have small := ok.small
  have within := live_length_le ok
  have gone : memg.body index ∉ live.erase (memg.body index) := by
    rw [ok.distinct.mem_erase_iff]
    exact fun kept => kept.1 rfl
  have counting : u32Pred memg.uiMemNodeAllocedCnt = (live.erase (memg.body index)).length := by
    rw [ok.count, List.length_erase_of_mem member, u32_pred_pos positive]
  have marked := mark_ok ok bound
    (if_neg gone).symm (fun other distinct => by
      rw [ok.distinct.mem_erase_iff, and_iff_right fun same =>
        distinct (body_injective ok.start same)])
    (fun p kept => Or.inl (List.mem_of_mem_erase kept)) (ok.distinct.erase _) counting
    (ok.cursor (by omega))
  have freed : memgFree memg (memg.body index + stMEMGINFO_SIZE) =
      { memg.setUse (memg.hdrOffset index) .free with
        uiMemNodeAllocedCnt := u32Pred memg.uiMemNodeAllocedCnt } := by
    unfold memgFree
    rw [body_address ok.start, Nat.add_sub_cancel, header]
    rfl
  rw [freed]
  exact ⟨⟨rfl, rfl, rfl, rfl⟩, marked⟩

theorem free_hdrs_fill (memg : MemgInfo) :
    memg.freeHdrs.nodeHdr = memg.arena.fill freeHdr memg.nodeHdr := rfl

/-- A pool with all its headers freed, its counter and its cursor set back. -/
theorem cleared_ok (finish : memg.offsetNodeEnd = memg.hdrOffset memg.uiMemNodeTotCnt)
    (start : stMEMGINFO_SIZE ≤ memg.offsetNodeStart) (small : memg.uiMemNodeTotCnt < 2 ^ 32)
    (count : memg.uiMemNodeAllocedCnt = 0) (cursor : memg.offsetFreeList = memg.offsetNodeStart) :
    PoolOk memg.freeHdrs [] := by
  refine ⟨finish, start, small, ?_, by simp, List.nodup_nil, count, ?_⟩
  · intro index bound
    rw [free_hdrs_fill]
    exact Arena.fill_cell (stride_pos memg) freeHdr memg.nodeHdr bound
  · intro populated
    exact ⟨0, populated, cursor⟩

theorem reset_ok (ok : PoolOk memg live) : PoolOk (memgReset memg) [] :=
  cleared_ok ok.finish ok.start ok.small rfl rfl

theorem init_ok (raw : Nat → MemgNodeHdr) (uiHeadRoomSize uiMemNodeBodySize : Nat)
    {uiMemNodeTotCnt : Nat} (small : uiMemNodeTotCnt < 2 ^ 32) :
    PoolOk (memgInit raw uiHeadRoomSize uiMemNodeBodySize uiMemNodeTotCnt) [] :=
  cleared_ok rfl (Nat.le_add_right _ _) small rfl rfl

end Pool

section Table

def HashoInfo.links (table : HashoInfo) : Links Nat (Option Nat) where
  next := fun p => pointed (table.node p).offset_next
  back := fun p => pointed (table.node p).offset_prev

/-- The nodes in use whose key falls into a bucket. -/
def HashoInfo.bucket (hash : List UInt8 → Nat) (table : HashoInfo) (live : List Nat) (index : Nat) :
    List Nat :=
  live.filter fun p => hash (table.keyAt p) = index

/-- The table whose nodes in use are `live`, the newest first. -/
structure Stores (hash : List UInt8 → Nat) (table : HashoInfo) (live : List Nat) : Prop where
  pool : PoolOk table.memg live
  size : table.memg.uiMemNodeBodySize = stHASHONODE_SIZE + table.usKeyLen + table.usDataLen
  total : table.memg.uiMemNodeTotCnt = 5 * table.uiHashSize
  room : table.memg.uiHeadRoomSize = stHASHOINFO_SIZE + OFFSET_SIZE * table.uiHashSize
  filled : ∀ p ∈ live, (table.node p).offset_Key = p + stHASHONODE_SIZE ∧
    (table.node p).offset_Data = p + stHASHONODE_SIZE + table.usKeyLen
  keys : (live.map table.keyAt).Nodup
  chains : ∀ index < table.uiHashSize,
    Chained table.links some (pointed (table.head index)) none (table.bucket hash live index)

/-- The hash function stays in the bucket array. -/
def InRange (hash : List UInt8 → Nat) (table : HashoInfo) : Prop :=
  ∀ key : List UInt8, key.length = table.usKeyLen → hash key < table.uiHashSize

variable {hash : List UInt8 → Nat} {table : HashoInfo} {live : List Nat}

theorem key_length (table : HashoInfo) (p : Nat) : (table.keyAt p).length = table.usKeyLen := by
  simp [HashoInfo.keyAt]

theorem head_inside (stores : Stores hash table live) {index : Nat}
    (bound : index < table.uiHashSize) : table.HeadInside index := by
  have room := stores.room
  simp only [HashoInfo.HeadInside, OFFSET_SIZE, stHASHOINFO_SIZE] at room ⊢
  omega

theorem find_loop_chained {pKey : List UInt8} {nodes : List Nat} {pOff fuel : Nat}
    {before : Option Nat} (chain : Chained table.links some (pointed pOff) before nodes)
    (enough : nodes.length ≤ fuel) :
    hashoFindLoop table pKey fuel pOff = some (nodes.find? fun p => table.keyAt p = pKey) := by
  induction nodes generalizing pOff fuel before with
  | nil =>
      obtain rfl := pointed_none chain
      cases fuel <;> rfl
  | cons p rest ih =>
      obtain ⟨first, -, later⟩ := chain
      obtain ⟨rfl, positive⟩ := pointed_some first
      obtain ⟨fuel, rfl⟩ : ∃ left, fuel = left + 1 := ⟨fuel - 1, by simp at enough; omega⟩
      rw [hashoFindLoop, if_neg positive]
      by_cases same : table.keyAt pOff = pKey
      · simp [same]
      · rw [if_neg same, ih later (by simpa using enough)]
        simp [same]

/-- A search finds the node in use that holds the key. -/
theorem find_spec (stores : Stores hash table live) (inRange : InRange hash table)
    {pKey : List UInt8} (length : pKey.length = table.usKeyLen) :
    hashoFind hash table pKey = some (live.find? fun p => table.keyAt p = pKey) := by
  have bound := inRange pKey length
  have shorter : (table.bucket hash live (hash pKey)).length ≤ table.memg.uiMemNodeTotCnt :=
    Nat.le_trans (List.length_filter_le _ _) (live_length_le stores.pool)
  rw [hashoFind, if_pos (head_inside stores bound),
    find_loop_chained (stores.chains _ bound) shorter, HashoInfo.bucket, List.find?_filter]
  congr 2
  funext p
  by_cases same : table.keyAt p = pKey
  · simp [same]
  · simp [same]

/-- Tables with the same keys have the same buckets. -/
theorem bucket_congr {table' : HashoInfo} {nodes : List Nat}
    (same : ∀ p ∈ nodes, table'.keyAt p = table.keyAt p) (index : Nat) :
    table'.bucket hash nodes index = table.bucket hash nodes index := by
  apply List.filter_congr
  intro p member
  rw [same p member]

theorem bucket_subset {nodes : List Nat} {index p : Nat}
    (member : p ∈ table.bucket hash nodes index) : p ∈ nodes ∧ hash (table.keyAt p) = index := by
  simpa [HashoInfo.bucket] using member

/-- The bytes of a key and of data stay as long as the node and its place do. -/
theorem content_congr {table' : HashoInfo} {p : Nat}
    (lengths : table'.usKeyLen = table.usKeyLen ∧ table'.usDataLen = table.usDataLen)
    (bytes : table'.byteAt = table.byteAt)
    (fields : (table'.node p).offset_Key = (table.node p).offset_Key ∧
      (table'.node p).offset_Data = (table.node p).offset_Data) :
    table'.keyAt p = table.keyAt p ∧ table'.dataAt p = table.dataAt p := by
  simp only [HashoInfo.keyAt, HashoInfo.dataAt, lengths, bytes, fields, and_self]

section Fill

variable {p : Nat} {pKey pData : List UInt8}

theorem fill_own (keyLen : pKey.length = table.usKeyLen) (dataLen : pData.length = table.usDataLen) :
    (table.fillNode p pKey pData).keyAt p = pKey ∧ (table.fillNode p pKey pData).dataAt p = pData := by
  have fields : (table.fillNode p pKey pData).node p =
      ⟨0, 0, p + stHASHONODE_SIZE, p + stHASHONODE_SIZE + table.usKeyLen⟩ := Function.update_self ..
  simp only [HashoInfo.keyAt, HashoInfo.dataAt, fields]
  simp only [HashoInfo.fillNode, ← keyLen, ← dataLen]
  constructor
  · rw [read_write_apart _ _ _ _ _ (Or.inl (Nat.le_refl _)), read_write_same]
  · rw [read_write_same]

/-- A node a whole stride away is not touched. -/
theorem fill_other {q : Nat} (keyLen : pKey.length = table.usKeyLen)
    (dataLen : pData.length = table.usDataLen)
    (fields : (table.node q).offset_Key = q + stHASHONODE_SIZE ∧
      (table.node q).offset_Data = q + stHASHONODE_SIZE + table.usKeyLen)
    (apart : p + (stHASHONODE_SIZE + table.usKeyLen + table.usDataLen) ≤ q ∨
      q + (stHASHONODE_SIZE + table.usKeyLen + table.usDataLen) ≤ p) (distinct : q ≠ p) :
    (table.fillNode p pKey pData).node q = table.node q ∧
      (table.fillNode p pKey pData).keyAt q = table.keyAt q ∧
      (table.fillNode p pKey pData).dataAt q = table.dataAt q := by
  have same : (table.fillNode p pKey pData).node q = table.node q := Function.update_of_ne distinct ..
  refine ⟨same, ?_, ?_⟩
  · simp only [HashoInfo.keyAt, same, fields.1]
    simp only [HashoInfo.fillNode]
    rw [read_write_apart, read_write_apart, read_write_apart]
    · rw [List.length_replicate]
      omega
    · omega
    · omega
  · simp only [HashoInfo.dataAt, same, fields.2]
    simp only [HashoInfo.fillNode]
    rw [read_write_apart, read_write_apart, read_write_apart]
    · rw [List.length_replicate]
      omega
    · omega
    · omega

end Fill

section Link

variable {p index : Nat}

/-- The table after `hasho_link_node` put `p` before the first node of a bucket. -/
def linked (table : HashoInfo) (p index : Nat) : HashoInfo :=
  let first := table.head index
  { table with
    node := fun q =>
      { table.node q with
        offset_prev :=
          if first ≠ 0 ∧ q = first then p
          else if first ≠ 0 ∧ q = p then (table.node first).offset_prev
          else (table.node q).offset_prev
        offset_next := if first ≠ 0 ∧ q = p then first else (table.node q).offset_next }
    head := Function.update table.head index p }

theorem link_linked (inside : table.HeadInside (hash (table.keyAt p)))
    (fresh : table.head (hash (table.keyAt p)) ≠ p) :
    hashoLinkNode hash table p = some (linked table p (hash (table.keyAt p))) := by
  rw [hashoLinkNode, if_pos inside]
  generalize hash (table.keyAt p) = index at fresh ⊢
  generalize firstEq : table.head index = first at fresh ⊢
  have nodes : (if first ≠ 0 then
      Function.update (Function.update (Function.update table.node p
        { table.node p with offset_prev := (table.node first).offset_prev }) first
        { Function.update table.node p { table.node p with
            offset_prev := (table.node first).offset_prev } first with offset_prev := p }) p
        { Function.update (Function.update table.node p
            { table.node p with offset_prev := (table.node first).offset_prev }) first
            { Function.update table.node p { table.node p with
                offset_prev := (table.node first).offset_prev } first with offset_prev := p } p with
          offset_next := first }
      else table.node) = (linked table p index).node := by
    funext q
    simp only [linked, firstEq]
    by_cases empty : first = 0
    · simp [empty]
    · by_cases own : q = p
      · subst own
        simp [empty, fresh.symm]
      · by_cases top : q = first
        · subst top
          simp [empty, own]
        · simp [empty, own, top]
  dsimp only
  rw [nodes]
  rfl

/-- The links of a node that is neither the new one nor the first of its bucket stay. -/
theorem linked_links {q : Nat} (other : q ≠ p)
    (below : table.head index ≠ 0 → q ≠ table.head index) :
    (linked table p index).links.next q = table.links.next q ∧
      (linked table p index).links.back q = table.links.back q := by
  have away : ¬(table.head index ≠ 0 ∧ q = table.head index) := fun top => below top.1 top.2
  simp [HashoInfo.links, linked, other, away]

theorem linked_node {q : Nat} (other : q ≠ p)
    (below : table.head index ≠ 0 → q ≠ table.head index) :
    (linked table p index).node q = table.node q := by
  have away : ¬(table.head index ≠ 0 ∧ q = table.head index) := fun top => below top.1 top.2
  simp [linked, other, away]

theorem linked_content (table : HashoInfo) (p index q : Nat) :
    (linked table p index).keyAt q = table.keyAt q ∧
      (linked table p index).dataAt q = table.dataAt q :=
  content_congr ⟨rfl, rfl⟩ rfl ⟨rfl, rfl⟩

/-- The first node of a chain, read from its head. -/
theorem first_of_chain {nodes : List Nat} {pOff : Nat}
    (chain : Chained table.links some (pointed pOff) none nodes) (filled : pOff ≠ 0) :
    pOff ∈ nodes ∧ (table.node pOff).offset_prev = 0 := by
  rw [pointed_pos filled] at chain
  cases nodes with
  | nil => cases chain
  | cons first rest =>
      obtain ⟨same, back, -⟩ := chain
      obtain rfl := Option.some.inj same
      exact ⟨List.mem_cons_self, pointed_none back⟩

/-- Every bucket after a fresh node was put into its own. -/
theorem linked_chains {live : List Nat} (distinct : live.Nodup) (fresh : p ∉ live) (positive : p ≠ 0)
    (loose : table.head (hash (table.keyAt p)) = 0 →
      (table.node p).offset_next = 0 ∧ (table.node p).offset_prev = 0)
    (inBound : hash (table.keyAt p) < table.uiHashSize)
    (chains : ∀ index < table.uiHashSize,
      Chained table.links some (pointed (table.head index)) none (table.bucket hash live index))
    {index : Nat} (bound : index < table.uiHashSize) :
    Chained (linked table p (hash (table.keyAt p))).links some
      (pointed ((linked table p (hash (table.keyAt p))).head index)) none
      ((linked table p (hash (table.keyAt p))).bucket hash (p :: live) index) := by
  have old := chains index bound
  have within : ∀ q ∈ table.bucket hash live index, q ≠ p := by
    rintro q member rfl
    exact fresh (bucket_subset member).1
  rw [bucket_congr fun q _ => (linked_content table p _ q).1]
  by_cases own : hash (table.keyAt p) = index
  · subst own
    have bucket : table.bucket hash (p :: live) (hash (table.keyAt p)) =
        p :: table.bucket hash live (hash (table.keyAt p)) := by
      simp [HashoInfo.bucket]
    have headEq : (linked table p (hash (table.keyAt p))).head (hash (table.keyAt p)) = p :=
      Function.update_self ..
    rw [bucket, headEq, pointed_pos positive]
    have first := first_of_chain old
    have below : table.head (hash (table.keyAt p)) ≠ 0 → p ≠ table.head (hash (table.keyAt p)) :=
      fun filled same => within _ (first filled).1 same.symm
    refine chained_push old (distinct.filter _) ?_ ?_ ?_ ?_
    · by_cases empty : table.head (hash (table.keyAt p)) = 0
      · simp [HashoInfo.links, linked, empty, loose empty]
      · simp [HashoInfo.links, linked, empty]
    · by_cases empty : table.head (hash (table.keyAt p)) = 0
      · simp [HashoInfo.links, linked, empty, loose empty, pointed_zero]
      · simp [HashoInfo.links, linked, empty, below empty, (first empty).2, pointed_zero]
    · intro q member
      simp [HashoInfo.links, linked, within q member]
    · intro q member
      constructor
      · intro top
        obtain ⟨rfl, filled⟩ := pointed_some top
        simp [HashoInfo.links, linked, filled, pointed_pos positive]
      · intro notTop
        refine (linked_links (within q member) ?_).2
        rintro filled rfl
        exact notTop (pointed_pos filled)
  · have bucket : table.bucket hash (p :: live) index = table.bucket hash live index := by
      simp [HashoInfo.bucket, own]
    have headEq : (linked table p (hash (table.keyAt p))).head index = table.head index :=
      Function.update_of_ne (Ne.symm own) ..
    rw [bucket, headEq]
    refine chained_congr old ?_
    intro q member
    refine linked_links (within q member) ?_
    rintro filled rfl
    have top := (first_of_chain (chains _ inBound) filled).1
    exact own ((bucket_subset top).2.symm.trans (bucket_subset member).2)

end Link

section Unlink

variable {p index : Nat}

/-- The table after `hasho_unlink_node` took `p` out of a bucket. -/
def unlinked (table : HashoInfo) (p index : Nat) : HashoInfo :=
  let next := (table.node p).offset_next
  let prev := (table.node p).offset_prev
  { table with
    node := fun q =>
      { table.node q with
        offset_next := if prev ≠ 0 ∧ q = prev then next else (table.node q).offset_next
        offset_prev := if next ≠ 0 ∧ q = next then prev else (table.node q).offset_prev }
    head := if prev ≠ 0 then table.head else Function.update table.head index next }

theorem unlink_unlinked (inside : table.HeadInside (hash (table.keyAt p))) :
    hashoUnlinkNode hash table p = some (unlinked table p (hash (table.keyAt p))) := by
  simp only [hashoUnlinkNode, unlinked, if_pos inside]
  generalize (table.node p).offset_next = next
  generalize (table.node p).offset_prev = prev
  have nodes : (fun q => { table.node q with
      offset_next := if prev ≠ 0 ∧ q = prev then next else (table.node q).offset_next
      offset_prev := if next ≠ 0 ∧ q = next then prev else (table.node q).offset_prev }) =
      if next ≠ 0 then
        Function.update
          (if prev ≠ 0 then
            Function.update table.node prev { table.node prev with offset_next := next }
          else table.node) next
          { (if prev ≠ 0 then
              Function.update table.node prev { table.node prev with offset_next := next }
            else table.node) next with offset_prev := prev }
      else if prev ≠ 0 then
        Function.update table.node prev { table.node prev with offset_next := next }
      else table.node := by
    funext q
    by_cases first : prev = 0
    · by_cases last : next = 0
      · simp [first, last]
      · by_cases after : q = next
        · subst after
          simp [first, last]
        · simp [first, last, after]
    · by_cases last : next = 0
      · by_cases below : q = prev
        · subst below
          simp [first, last]
        · simp [first, last, below]
      · by_cases after : q = next
        · subst after
          by_cases below : q = prev
          · subst below
            simp [first]
          · simp [first, last, below]
        · by_cases below : q = prev
          · subst below
            simp [first, last, after]
          · simp [first, last, after, below]
  rw [nodes]
  by_cases first : prev = 0
  · by_cases last : next = 0
    · simp [first, last]
    · simp [first, last]
  · by_cases last : next = 0
    · simp [first, last]
    · simp [first, last]

theorem unlinked_content (table : HashoInfo) (p index q : Nat) :
    (unlinked table p index).keyAt q = table.keyAt q ∧
      (unlinked table p index).dataAt q = table.dataAt q :=
  content_congr ⟨rfl, rfl⟩ rfl ⟨rfl, rfl⟩

theorem bucket_erase {live : List Nat} (distinct : live.Nodup) (p index : Nat) :
    table.bucket hash (live.erase p) index = (table.bucket hash live index).erase p := by
  rw [HashoInfo.bucket, HashoInfo.bucket, distinct.erase_eq_filter,
    (distinct.filter _).erase_eq_filter, List.filter_filter, List.filter_filter]
  apply List.filter_congr
  intro q _
  rw [Bool.and_comm]

/-- Every bucket after a node was taken out of its own. -/
theorem unlinked_chains {live : List Nat} (distinct : live.Nodup) (member : p ∈ live)
    (inBound : hash (table.keyAt p) < table.uiHashSize)
    (chains : ∀ index < table.uiHashSize,
      Chained table.links some (pointed (table.head index)) none (table.bucket hash live index))
    {index : Nat} (bound : index < table.uiHashSize) :
    Chained (unlinked table p (hash (table.keyAt p))).links some
      (pointed ((unlinked table p (hash (table.keyAt p))).head index)) none
      ((unlinked table p (hash (table.keyAt p))).bucket hash (live.erase p) index) := by
  have old := chains _ inBound
  have here : p ∈ table.bucket hash live (hash (table.keyAt p)) := by
    simp [HashoInfo.bucket, member]
  obtain ⟨front, rest, split⟩ := List.append_of_mem here
  rw [split] at old
  obtain ⟨place, tail⟩ := chained_split old
  rw [bucket_congr fun q _ => (unlinked_content table p _ q).1]
  have spread : (front ++ p :: rest).Nodup := by
    rw [← split]
    exact distinct.filter _
  have kept : ∀ q ∈ front ++ rest, q ∈ table.bucket hash live (hash (table.keyAt p)) := by
    intro q inside
    rw [split]
    exact ((List.sublist_cons_self p rest).append_left front).subset inside
  -- the neighbours of the node are in its bucket
  have prevInside : (table.node p).offset_prev ≠ 0 → (table.node p).offset_prev ∈ front := by
    intro filled
    have refers : table.links.back p = some (table.node p).offset_prev := pointed_pos filled
    rcases place with ⟨-, -, back⟩ | ⟨pred, inFront, -, back⟩
    · rw [refers] at back
      cases back
    · rw [refers] at back
      obtain rfl := Option.some.inj back
      exact inFront
  have nextInside : (table.node p).offset_next ≠ 0 → (table.node p).offset_next ∈ rest := by
    intro filled
    have follows : table.links.next p = some (table.node p).offset_next := pointed_pos filled
    rw [chained_head tail] at follows
    exact List.mem_of_head? follows
  rw [bucket_erase distinct]
  by_cases own : hash (table.keyAt p) = index
  · subst own
    rw [split, List.erase_append_right _ (List.disjoint_of_nodup_append spread · List.mem_cons_self),
      List.erase_cons_head]
    refine chained_remove old spread (fun _ _ same => Option.some.inj same) (fun _ _ => nofun)
      ?_ ?_ ?_ ?_
    · intro first
      have nothing : (table.node p).offset_prev = 0 := pointed_none first
      simp [unlinked, nothing, HashoInfo.links]
    · intro later
      have filled : (table.node p).offset_prev ≠ 0 := by
        intro nothing
        exact later (by simp [HashoInfo.links, nothing, pointed_zero])
      simp [unlinked, filled]
    · intro q inside
      constructor
      · intro refers
        obtain ⟨same, filled⟩ := pointed_some refers
        simp [HashoInfo.links, unlinked, same, same ▸ filled]
      · intro elsewhere
        have notPrev : ¬((table.node p).offset_prev ≠ 0 ∧ q = (table.node p).offset_prev) := by
          rintro ⟨filled, rfl⟩
          exact elsewhere (pointed_pos filled)
        simp [HashoInfo.links, unlinked, notPrev]
    · intro q inside
      constructor
      · intro follows
        obtain ⟨same, filled⟩ := pointed_some follows
        simp [HashoInfo.links, unlinked, same, same ▸ filled]
      · intro elsewhere
        have notNext : ¬((table.node p).offset_next ≠ 0 ∧ q = (table.node p).offset_next) := by
          rintro ⟨filled, rfl⟩
          exact elsewhere (pointed_pos filled)
        simp [HashoInfo.links, unlinked, notNext]
  · have absent : p ∉ table.bucket hash live index := fun inside => own (bucket_subset inside).2
    have away : ∀ q ∈ table.bucket hash live index,
        q ∉ table.bucket hash live (hash (table.keyAt p)) := fun q inside inside' =>
      own ((bucket_subset inside').2.symm.trans (bucket_subset inside).2)
    have headEq : (unlinked table p (hash (table.keyAt p))).head index = table.head index := by
      simp only [unlinked]
      split
      · rfl
      · exact Function.update_of_ne (Ne.symm own) ..
    rw [List.erase_of_not_mem absent, headEq]
    refine chained_congr (chains index bound) ?_
    intro q inside
    have notPrev : ¬((table.node p).offset_prev ≠ 0 ∧ q = (table.node p).offset_prev) := by
      rintro ⟨filled, rfl⟩
      exact away _ inside (kept _ (List.mem_append_left _ (prevInside filled)))
    have notNext : ¬((table.node p).offset_next ≠ 0 ∧ q = (table.node p).offset_next) := by
      rintro ⟨filled, rfl⟩
      exact away _ inside (kept _ (List.mem_append_right _ (nextInside filled)))
    simp [HashoInfo.links, unlinked, notPrev, notNext]

end Unlink

end Table

end Upst.Hasho
