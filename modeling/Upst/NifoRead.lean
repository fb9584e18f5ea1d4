import Upst.NifoWrite

/-!
What `nifo_read_tlv_cont` finds in a chain. A place in the stream is a node and an
offset in it, and at a node boundary it is two of them: the end of a node and the
start of the next. The reader may stand on either; the pointer it returns is always
the start of a node or a place before `lastoffset`.
-/

namespace Upst.Nifo

open CList Mems Bytes

set_option autoImplicit false

variable {shm : MemsInfo} {zoneID : Nat} {zone : MemsZone} {nodes : List Nat}

section Places

/-- Offset `dOffset` of `node` is place `pos` of the stream. -/
def At (zone : MemsZone) (nodes : List Nat) (pos node dOffset : Nat) : Prop :=
  ∃ index, nodes[index]? = some node ∧ NIFO_SIZE ≤ dOffset ∧ dOffset ≤ zone.uiMemNodeBodySize ∧
    pos = index * capacity zone + (dOffset - NIFO_SIZE)

/-- The read stays before `lastoffset` of a node of the chain. -/
def Within (shm : MemsInfo) (nodes : List Nat) (access : Access) : Prop :=
  access.node ∈ nodes ∧ access.offset + access.size ≤ (shm.nifo access.node).lastoffset

theorem chain_split (chain : Chain shm zoneID zone nodes) {index node : Nat}
    (found : nodes[index]? = some node) :
    (stream shm (nodes.take index)).length = index * capacity zone ∧
      stream shm nodes = stream shm (nodes.take index) ++
        (nodeData shm node ++ stream shm (nodes.drop (index + 1))) := by
  have bound : index < nodes.length := (List.getElem?_eq_some_iff.mp found).1
  constructor
  · have front_full : ∀ other ∈ nodes.take index,
        (shm.nifo other).lastoffset = zone.uiMemNodeBodySize := by
      intro other member
      apply chain.full
      rw [List.dropLast_eq_take]
      exact List.take_subset_take_left nodes (show index ≤ nodes.length - 1 by omega) member
    rw [stream_full_length front_full, List.length_take, Nat.min_eq_left (Nat.le_of_lt bound)]
  · have dropped : nodes.drop index = node :: nodes.drop (index + 1) :=
      List.drop_eq_getElem?_toList_append.trans (by simp [found])
    conv_lhs => rw [← List.take_append_drop index nodes, stream_append, dropped]
    simp [stream]

theorem stream_length_index (chain : Chain shm zoneID zone nodes) {index node : Nat}
    (found : nodes[index]? = some node) :
    index * capacity zone + ((shm.nifo node).lastoffset - NIFO_SIZE) ≤
      (stream shm nodes).length := by
  obtain ⟨front, split⟩ := chain_split chain found
  rw [split]
  simp only [List.length_append, front, node_data_length]
  omega

theorem stream_length_last (chain : Chain shm zoneID zone nodes) {index node : Nat}
    (found : nodes[index]? = some node) (last : index + 1 = nodes.length) :
    (stream shm nodes).length =
      index * capacity zone + ((shm.nifo node).lastoffset - NIFO_SIZE) := by
  obtain ⟨front, split⟩ := chain_split chain found
  rw [split, last, List.drop_length]
  simp only [List.length_append, front, node_data_length]
  simp [stream]

/-- Before the last node every node is full. -/
theorem full_before_last (chain : Chain shm zoneID zone nodes) {index node : Nat}
    (found : nodes[index]? = some node) (before : index + 1 < nodes.length) :
    (shm.nifo node).lastoffset = zone.uiMemNodeBodySize := by
  apply chain.full
  rw [List.dropLast_eq_take]
  apply List.mem_of_getElem? (i := index)
  rw [List.getElem?_take_of_lt (by omega)]
  exact found

/-- Bytes of the stream that lie in one node lie before its `lastoffset`. -/
theorem at_within (chain : Chain shm zoneID zone nodes) {pos node dOffset size : Nat}
    (here : At zone nodes pos node dOffset) (inStream : pos + size ≤ (stream shm nodes).length)
    (inNode : dOffset + size ≤ zone.uiMemNodeBodySize) :
    Within shm nodes ⟨node, dOffset, size⟩ := by
  obtain ⟨index, found, lower, upper, place⟩ := here
  have bound : index < nodes.length := (List.getElem?_eq_some_iff.mp found).1
  refine ⟨List.mem_of_getElem? found, ?_⟩
  rcases Nat.lt_or_ge (index + 1) nodes.length with before | last
  · rw [full_before_last chain found before]
    exact inNode
  · have total := stream_length_last chain found (by omega)
    have started := chain.started node (List.mem_of_getElem? found)
    dsimp only
    omega

theorem at_read (chain : Chain shm zoneID zone nodes) {pos node dOffset size : Nat}
    (here : At zone nodes pos node dOffset) (inStream : pos + size ≤ (stream shm nodes).length)
    (inNode : dOffset + size ≤ zone.uiMemNodeBodySize) :
    readBytes shm.byteAt (node + dOffset) size = ((stream shm nodes).drop pos).take size := by
  have within := (at_within chain here inStream inNode).2
  obtain ⟨index, found, lower, upper, rfl⟩ := here
  obtain ⟨front, split⟩ := chain_split chain found
  dsimp only at within
  obtain ⟨gap, rfl⟩ := Nat.exists_eq_add_of_le lower
  have slice := read_bytes_slice shm.byteAt (node + NIFO_SIZE)
    ((shm.nifo node).lastoffset - NIFO_SIZE) gap size (by omega)
  rw [split, ← front, Nat.add_sub_cancel_left, ← List.drop_drop, List.drop_left,
    List.drop_append_of_le_length (by rw [node_data_length]; omega),
    List.take_append_of_le_length (by rw [List.length_drop, node_data_length]; omega)]
  rw [← Nat.add_assoc, ← slice, nodeData]

/-- From the end of a node, the place is also the start of the next one. -/
theorem at_next (chain : Chain shm zoneID zone nodes) (wide : NIFO_SIZE < zone.uiMemNodeBodySize)
    {pos node : Nat} (here : At zone nodes pos node zone.uiMemNodeBodySize)
    (more : pos < (stream shm nodes).length) :
    At zone nodes pos (shm.cont.next node) NIFO_SIZE := by
  obtain ⟨index, found, lower, -, rfl⟩ := here
  have bound : index < nodes.length := (List.getElem?_eq_some_iff.mp found).1
  have before : index + 1 < nodes.length := by
    by_contra last
    have total := stream_length_last chain found (by omega)
    have upper := chain.bounded node (List.mem_of_getElem? found)
    omega
  have following : nodes[index + 1]? = some nodes[index + 1] := List.getElem?_eq_getElem before
  have split : nodes = nodes.take index ++ node :: nodes[index + 1] :: nodes.drop (index + 2) := by
    have nodeEq : nodes[index] = node := (List.getElem?_eq_some_iff.mp found).2
    rw [← List.drop_eq_getElem_cons before, ← nodeEq, ← List.drop_eq_getElem_cons bound,
      List.take_append_drop]
  have ring := chain.ring
  rw [split] at ring
  have next : shm.cont.next node = nodes[index + 1] := (ring_adjacent ring).1
  refine ⟨index + 1, by rw [next]; exact following, Nat.le_refl _, Nat.le_of_lt wide, ?_⟩
  rw [Nat.add_mul, capacity]
  omega

end Places

section Join

theorem chain_body_size (chain : Chain shm zoneID zone nodes) {node : Nat}
    (member : node ∈ nodes) : bodySize shm node = zone.uiMemNodeBodySize :=
  body_size_node_in chain.pool chain.found (chain.place node member)

theorem cursor_copy_spec (chain : Chain shm zoneID zone nodes) (cursor : Cursor)
    {pos : Nat} (size : Nat)
    (here : At zone nodes pos cursor.pSNode cursor.dOffset)
    (inStream : pos + size ≤ (stream shm nodes).length)
    (inNode : cursor.dOffset + size ≤ zone.uiMemNodeBodySize)
    (seen : ∀ access ∈ cursor.accesses, Within shm nodes access) :
    ∃ copied, cursor.copy shm size = some copied ∧
      copied.pSNode = cursor.pSNode ∧ copied.dOffset = cursor.dOffset ∧
      copied.buf = cursor.buf ++ ((stream shm nodes).drop pos).take size ∧
      ∀ access ∈ copied.accesses, Within shm nodes access := by
  have within := at_within chain here inStream inNode
  have body := chain_body_size chain within.1
  dsimp only at body
  refine ⟨_, if_pos (by rw [body]; exact inNode), rfl, rfl, ?_, ?_⟩
  · rw [at_read chain here inStream inNode]
  · intro access member
    rcases List.mem_append.mp member with old | new
    · exact seen access old
    · obtain rfl := List.mem_singleton.mp new
      exact within

/-- The joining loop copies the next bytes of the stream, however often they are cut. -/
theorem join_loop_spec (chain : Chain shm zoneID zone nodes)
    (wide : NIFO_SIZE < zone.uiMemNodeBodySize) (dLen : Nat) (small : dLen < 2 ^ 31) (fuel : Nat) :
    ∀ (cursor : Cursor) {pos : Nat},
      At zone nodes pos cursor.pSNode cursor.dOffset → cursor.buf.length ≤ dLen →
      pos + (dLen - cursor.buf.length) ≤ (stream shm nodes).length →
      (dLen - cursor.buf.length) + (if cursor.dOffset = zone.uiMemNodeBodySize then 1 else 0) <
        fuel →
      (∀ access ∈ cursor.accesses, Within shm nodes access) →
      ∃ joined, joinLoop shm zone.uiMemNodeBodySize dLen fuel cursor = some joined ∧
        joined.buf = cursor.buf ++
          ((stream shm nodes).drop pos).take (dLen - cursor.buf.length) ∧
        At zone nodes (pos + (dLen - cursor.buf.length)) joined.pSNode joined.dOffset ∧
        ∀ access ∈ joined.accesses, Within shm nodes access := by
  have body := zone_body_small (chain.pool.zone zoneID zone chain.found)
  simp only [MEMS_SHM_SIZE] at body
  induction fuel with
  | zero => intro cursor pos _ _ _ enough; omega
  | succ fuel ih =>
      intro cursor pos here bound inStream enough seen
      have upper : cursor.dOffset ≤ zone.uiMemNodeBodySize := by
        obtain ⟨_, _, _, upper, _⟩ := here
        exact upper
      obtain ⟨left, leftEq⟩ := Nat.exists_eq_add_of_le bound
      have remaining : dLen - cursor.buf.length = left := by omega
      rw [remaining] at inStream enough ⊢
      simp only [joinLoop]
      by_cases more : cursor.buf.length < dLen
      · have noWrap : u32 (cursor.dOffset + dLen - cursor.buf.length) = cursor.dOffset + left := by
          rw [u32, Nat.mod_eq_of_lt (by omega)]
          omega
        rw [if_pos more, noWrap]
        by_cases cut : cursor.dOffset + left > zone.uiMemNodeBodySize
        · rw [if_pos cut]
          obtain ⟨piece, pieceEq⟩ := Nat.exists_eq_add_of_le upper
          have copySize : u32Sub zone.uiMemNodeBodySize cursor.dOffset = piece := by
            simp only [u32Sub]
            omega
          obtain ⟨copied, copy, -, -, buf, seen'⟩ := cursor_copy_spec chain cursor
            piece here (by omega) (by omega) seen
          rw [copySize, copy]
          simp only [Option.bind_eq_bind, Option.bind_some]
          have atEnd : At zone nodes (pos + piece) cursor.pSNode zone.uiMemNodeBodySize := by
            obtain ⟨index, found, lower, -, rfl⟩ := here
            exact ⟨index, found, by omega, Nat.le_refl _, by omega⟩
          have atStart := at_next chain wide atEnd (by omega)
          have restart : u32 ((cursor.dOffset + piece + NIFO_SIZE) % zone.uiMemNodeBodySize) =
              NIFO_SIZE := by
            rw [← pieceEq, Nat.add_mod_left, Nat.mod_eq_of_lt wide, u32,
              Nat.mod_eq_of_lt (by decide)]
          have bufLength : copied.buf.length = cursor.buf.length + piece := by
            rw [buf, List.length_append, List.length_take, List.length_drop]
            omega
          have leftAfter : dLen - copied.buf.length = left - piece := by omega
          rw [restart]
          obtain ⟨joined, result, content, place, seen''⟩ := ih
            { copied with pSNode := shm.cont.next cursor.pSNode, dOffset := NIFO_SIZE }
            atStart (by dsimp only; omega) (by dsimp only; omega)
            (by
              dsimp only
              rw [if_neg (by omega), leftAfter]
              split_ifs at enough <;> omega)
            seen'
          dsimp only at content place
          rw [leftAfter] at content place
          refine ⟨joined, result, ?_, ?_, seen''⟩
          · have whole : left = piece + (left - piece) := by omega
            rw [content, buf, List.append_assoc, whole, List.take_add, List.drop_drop]
            simp
          · rwa [show pos + piece + (left - piece) = pos + left by omega] at place
        · rw [if_neg cut]
          obtain ⟨copied, copy, sameNode, -, buf, seen'⟩ := cursor_copy_spec chain cursor
            left here (by omega) (by omega) seen
          rw [remaining, copy]
          simp only [Option.bind_eq_bind, Option.bind_some]
          have bufLength : copied.buf.length = dLen := by
            rw [buf, List.length_append, List.length_take, List.length_drop]
            omega
          obtain ⟨turns, rfl⟩ : ∃ turns, fuel = turns + 1 := ⟨fuel - 1, by omega⟩
          simp only [joinLoop]
          rw [if_neg (by omega)]
          refine ⟨_, rfl, buf, ?_, seen'⟩
          obtain ⟨index, found, lower, -, rfl⟩ := here
          have offset : u32 (cursor.dOffset + left) = cursor.dOffset + left := by
            rw [u32, Nat.mod_eq_of_lt (by omega)]
          rw [offset]
          dsimp only
          exact ⟨index, by rw [sameNode]; exact found, by omega, by omega, by omega⟩
      · rw [if_neg more]
        have done : left = 0 := by omega
        subst done
        exact ⟨cursor, rfl, by simp, by simpa using here, seen⟩

end Join

section Pointers

/-- `nifo_get_offset_node` recovers the node from any pointer into its body. -/
theorem get_offset_node_spec (wf : PoolWf shm) (found : shm.stMEMSZONE[zoneID]? = some zone)
    {node gap : Nat} (member : NodeIn shm zoneID node) (bound : gap < zone.uiMemNodeBodySize) :
    nifoGetOffsetNode shm (node + gap) = node := by
  obtain ⟨zone', index, found', small, rfl⟩ := member
  obtain rfl : zone = zone' := Option.some.inj (found.symm.trans found')
  have range := hdr_within_zone (wf.zone zoneID zone found) small
  have strideEq : zone.stride = stMEMSNODEHDR_SIZE + zone.uiMemNodeBodySize := rfl
  have inside : zone.offsetNodeStart ≤ zone.hdrOffset index + stMEMSNODEHDR_SIZE + gap ∧
      zone.hdrOffset index + stMEMSNODEHDR_SIZE + gap < zone.offsetNodeEnd := by omega
  have chosen : shm.stMEMSZONE.find? (fun other =>
      decide (other.offsetNodeStart ≤ zone.hdrOffset index + stMEMSNODEHDR_SIZE + gap ∧
        zone.hdrOffset index + stMEMSNODEHDR_SIZE + gap < other.offsetNodeEnd)) = some zone := by
    obtain ⟨zoneBound, zoneEq⟩ := List.getElem?_eq_some_iff.mp found
    refine List.find?_eq_some_iff_getElem.mpr ⟨by simpa using inside, zoneID, zoneBound, zoneEq, ?_⟩
    intro earlier before
    -- an earlier zone ends where this one has not started yet
    have ordered := List.pairwise_iff_getElem.mp wf.order earlier zoneID (by omega) zoneBound before
    rw [zoneEq] at ordered
    simp only [Bool.not_eq_true', decide_eq_false_iff_not]
    omega
  have quotient : (zone.hdrOffset index + stMEMSNODEHDR_SIZE + gap - zone.offsetNodeStart) /
      zone.stride = index := by
    have offset : zone.hdrOffset index + stMEMSNODEHDR_SIZE + gap - zone.offsetNodeStart =
        (stMEMSNODEHDR_SIZE + gap) + zone.stride * index := by
      simp only [MemsZone.hdrOffset]
      omega
    rw [offset, Nat.add_mul_div_left _ _ (stride_pos zone), Nat.div_eq_of_lt (by omega),
      Nat.zero_add]
  simp only [nifoGetOffsetNode, chosen, quotient]
  rfl

/-- `ptr` is the start of a node, standing for its first data byte, or a place in it. -/
def Points (zone : MemsZone) (nodes : List Nat) (pos ptr : Nat) : Prop :=
  ∃ node gap, ptr = node + gap ∧ gap < zone.uiMemNodeBodySize ∧
    At zone nodes pos node (if gap = 0 then NIFO_SIZE else gap)

/-- The pointer a reader at `pos` holds: NULL exactly at the end of the stream. -/
def Follows (shm : MemsInfo) (zone : MemsZone) (nodes : List Nat) (pos : Nat)
    (nexttlv : Option Nat) : Prop :=
  if pos = (stream shm nodes).length then nexttlv = none
  else ∃ ptr, nexttlv = some ptr ∧ Points zone nodes pos ptr

theorem points_head {head : Nat} {rest : List Nat} (wide : NIFO_SIZE < zone.uiMemNodeBodySize) :
    Points zone (head :: rest) 0 head := by
  refine ⟨head, 0, rfl, by omega, 0, rfl, ?_, ?_, ?_⟩
  · simp
  · simpa using Nat.le_of_lt wide
  · simp

theorem next_tlv_spec {head : Nat} {rest : List Nat} (chain : Chain shm zoneID zone (head :: rest))
    (tight : Tight shm zone (head :: rest)) (wide : NIFO_SIZE < zone.uiMemNodeBodySize)
    {pos node dOffset : Nat} (here : At zone (head :: rest) pos node dOffset)
    (inStream : pos ≤ (stream shm (head :: rest)).length) :
    Follows shm zone (head :: rest) pos (nextTlv shm head node dOffset) := by
  have place := here
  obtain ⟨index, found, lower, upper, posEq⟩ := place
  have member := List.mem_of_getElem? found
  have indexBound : index < (head :: rest).length := (List.getElem?_eq_some_iff.mp found).1
  simp only [Follows, nextTlv, chain.maxoffset node member]
  rcases Nat.lt_or_ge dOffset (shm.nifo node).lastoffset with inside | outside
  · have inNode := stream_length_index chain found
    have nodeBound := chain.bounded node member
    rw [if_neg (by omega), if_neg (by omega)]
    refine ⟨node + dOffset, rfl, node, dOffset, rfl, by omega, ?_⟩
    have nonzero : dOffset ≠ 0 := by
      simp only [NIFO_SIZE] at lower
      omega
    rwa [if_neg nonzero]
  · rw [if_pos outside]
    rcases Nat.lt_or_ge (index + 1) (head :: rest).length with before | last
    · -- behind a full node that is not the last there is more to read
      have full := full_before_last chain found before
      have atEnd : dOffset = zone.uiMemNodeBodySize := by omega
      subst atEnd
      have inFront : (index + 1) * capacity zone ≤ ((head :: rest).length - 1) * capacity zone :=
        Nat.mul_le_mul_right _ (by omega)
      have more : pos < (stream shm (head :: rest)).length := by
        simp only [Tight] at tight
        obtain ⟨count, countEq⟩ := Nat.exists_eq_add_of_lt indexBound
        rw [countEq] at tight inFront
        simp only [Nat.add_sub_cancel, Nat.add_mul, Nat.one_mul] at tight inFront
        simp only [capacity] at posEq tight inFront
        omega
      have next := at_next chain wide here more
      obtain ⟨index', found', -, -, posEq'⟩ := next
      rw [if_pos full, if_neg (by omega)]
      have notHead : head ≠ shm.cont.next node := by
        intro same
        have zero : index' = 0 := by
          have distinct := chain.ring.2.1
          rw [← same] at found'
          obtain ⟨bound', -⟩ := List.getElem?_eq_some_iff.mp found'
          exact (List.getElem?_inj bound' distinct).mp (found'.trans (by simp))
        rw [zero] at posEq'
        simp only [capacity] at posEq posEq'
        omega
      rw [if_neg notHead]
      refine ⟨_, rfl, shm.cont.next node, 0, rfl, by omega, index', found', ?_, ?_, ?_⟩
      · simp
      · simpa using Nat.le_of_lt wide
      · simpa using posEq'
    · have total := stream_length_last chain found (by omega)
      have started := chain.started node member
      have atTotal : pos = (stream shm (head :: rest)).length := by omega
      rw [if_pos atTotal]
      split
      · have lastNode : (head :: rest).getLast (by simp) = node := by
          rw [List.getLast_eq_getElem]
          have indexEq : index = (head :: rest).length - 1 := by omega
          subst indexEq
          exact (List.getElem?_eq_some_iff.mp found).2
        have closing := ring_next_last chain.ring
        rw [lastNode] at closing
        rw [if_pos closing.symm]
      · rfl

end Pointers

section Stream

variable (malloc : Nat → Bool)

theorem tlv_bytes_decode {type len : Nat} (typeBound : type < 2 ^ 32) (lenBound : len < 2 ^ 32) :
    fromLe ((tlvBytes type len).take 4) = type ∧ fromLe ((tlvBytes type len).drop 4) = len :=
  ⟨from_le_le32 type typeBound, from_le_le32 len lenBound⟩

/-- After the header the cursor stands on the value, with the header in its buffer. -/
theorem read_tlv_header_spec {nodes : List Nat} (chain : Chain shm zoneID zone nodes)
    (wide : NIFO_SIZE < zone.uiMemNodeBodySize) {pos node dOffset : Nat}
    (here : At zone nodes pos node dOffset)
    (inStream : pos + TLV_SIZE ≤ (stream shm nodes).length) :
    ∃ header, readTlvHeader shm zone.uiMemNodeBodySize ⟨node, dOffset, [], []⟩ = some header ∧
      header.buf = ((stream shm nodes).drop pos).take TLV_SIZE ∧
      At zone nodes (pos + TLV_SIZE) header.pSNode header.dOffset ∧
      ∀ access ∈ header.accesses, Within shm nodes access := by
  simp only [readTlvHeader]
  by_cases cut : dOffset + TLV_SIZE > zone.uiMemNodeBodySize
  · rw [if_pos cut]
    obtain ⟨joined, result, buf, place, seen⟩ := join_loop_spec chain wide TLV_SIZE
      (by decide) (TLV_SIZE + 2) ⟨node, dOffset, [], []⟩ here (Nat.zero_le _) inStream
      (by
        simp only [List.length_nil]
        split_ifs <;> omega)
      (by simp)
    exact ⟨joined, result, by simpa using buf, by simpa using place, seen⟩
  · rw [if_neg cut]
    obtain ⟨copied, copy, sameNode, -, buf, seen⟩ := cursor_copy_spec chain
      ⟨node, dOffset, [], []⟩ TLV_SIZE here inStream
      (by dsimp only; omega) (by simp)
    refine ⟨{ copied with dOffset := dOffset + TLV_SIZE }, by simp [copy], by simpa using buf, ?_,
      seen⟩
    obtain ⟨index, found, lower, -, rfl⟩ := here
    exact ⟨index, by simpa [sameNode] using found, by dsimp only; omega, by dsimp only; omega,
      by dsimp only; omega⟩

/-- One call of the reader at the start of a TLV. -/
theorem read_tlv_cont_spec {head : Nat} {rest : List Nat}
    (chain : Chain shm zoneID zone (head :: rest)) (tight : Tight shm zone (head :: rest))
    (wide : NIFO_SIZE + TLV_SIZE ≤ zone.uiMemNodeBodySize) {pos ptr type : Nat}
    (points : Points zone (head :: rest) pos ptr) {value post : List UInt8}
    (content : (stream shm (head :: rest)).drop pos =
      tlvBytes type value.length ++ value ++ post)
    (typeBound : type < 2 ^ 32) (small : value.length < 2 ^ 31)
    (memory : malloc (value.length + 1) = true) :
    ∃ read, nifoReadTlvCont shm malloc head ptr = some (.ok read) ∧
      read.type = type ∧ read.len = value.length ∧ read.bytes shm = value ∧
      (∀ access ∈ read.accesses, Within shm (head :: rest) access) ∧
      Follows shm zone (head :: rest) (pos + TLV_SIZE + value.length) read.nexttlv := by
  simp only [NIFO_SIZE, TLV_SIZE] at wide
  have total : pos + (8 + value.length + post.length) = (stream shm (head :: rest)).length := by
    have length := congrArg List.length content
    simp only [List.length_drop, List.length_append, tlv_bytes_length, TLV_SIZE] at length
    omega
  have body := zone_body_small (chain.pool.zone zoneID zone chain.found)
  simp only [MEMS_SHM_SIZE] at body
  obtain ⟨node, gap, rfl, gapBound, here⟩ := points
  have upper : (if gap = 0 then NIFO_SIZE else gap) ≤ zone.uiMemNodeBodySize := by
    obtain ⟨_, _, _, upper, _⟩ := here
    exact upper
  have member : node ∈ head :: rest := by
    obtain ⟨_, found, _⟩ := here
    exact List.mem_of_getElem? found
  have base := get_offset_node_spec chain.pool chain.found (chain.place node member) gapBound
  have positive : node ≠ 0 := by
    obtain ⟨zone', index, _, _, rfl⟩ := chain.place node member
    simp [stMEMSNODEHDR_SIZE]
  have gapWord : u32 gap = gap := by
    rw [u32, Nat.mod_eq_of_lt (by omega)]
  simp only [nifoReadTlvCont, base, chain_body_size chain (List.mem_cons_self ..)]
  rw [if_neg (by omega), Nat.add_sub_cancel_left, gapWord]
  generalize (if gap = 0 then NIFO_SIZE else gap) = dOffset at here upper ⊢
  obtain ⟨header, headerEq, headerBuf, headerAt, headerSeen⟩ :=
    read_tlv_header_spec chain (by simp only [NIFO_SIZE]; omega) here
      (by simp only [TLV_SIZE]; omega)
  have headerBytes : ((stream shm (head :: rest)).drop pos).take TLV_SIZE =
      tlvBytes type value.length := by
    rw [content, List.append_assoc, List.take_append_of_le_length (by rw [tlv_bytes_length]),
      List.take_of_length_le (by rw [tlv_bytes_length])]
  rw [headerBytes] at headerBuf
  simp only [Option.bind_eq_bind, headerEq, Option.bind_some]
  obtain ⟨typeEq, lenEq⟩ := tlv_bytes_decode typeBound (show value.length < 2 ^ 32 by omega)
  have headerUpper : header.dOffset ≤ zone.uiMemNodeBodySize := by
    obtain ⟨_, _, _, upper, _⟩ := headerAt
    exact upper
  have valueBytes : ((stream shm (head :: rest)).drop (pos + TLV_SIZE)).take value.length =
      value := by
    rw [← List.drop_drop, content, List.append_assoc,
      List.drop_append_of_le_length (by rw [tlv_bytes_length]),
      List.drop_of_length_le (by rw [tlv_bytes_length])]
    simp
  have noWrap : u32 (header.dOffset + value.length) = header.dOffset + value.length := by
    rw [u32, Nat.mod_eq_of_lt (by omega)]
  have noWrap' : u32 (value.length + 1) = value.length + 1 := by
    rw [u32, Nat.mod_eq_of_lt (by omega)]
  simp only [readTlvValue, headerBuf, typeEq, lenEq, noWrap, noWrap']
  by_cases cut : header.dOffset + value.length > zone.uiMemNodeBodySize
  · rw [if_pos cut, if_pos memory]
    obtain ⟨joined, result, buf, place, seen⟩ := join_loop_spec chain
      (by simp only [NIFO_SIZE]; omega) value.length small (value.length + 2)
      { header with buf := [] } headerAt (Nat.zero_le _)
      (by simp only [TLV_SIZE, List.length_nil]; omega)
      (by
        simp only [List.length_nil]
        split_ifs <;> omega)
      headerSeen
    simp only [List.length_nil, Nat.sub_zero, List.nil_append, valueBytes] at buf place
    simp only [result, Option.bind_eq_bind, Option.bind_some]
    refine ⟨_, rfl, rfl, rfl, buf, seen, ?_⟩
    exact next_tlv_spec chain tight (by simp only [NIFO_SIZE]; omega) place
      (by simp only [TLV_SIZE]; omega)
  · rw [if_neg cut]
    have inStream : pos + TLV_SIZE + value.length ≤ (stream shm (head :: rest)).length := by
      simp only [TLV_SIZE]
      omega
    have afterValue : At zone (head :: rest) (pos + TLV_SIZE + value.length) header.pSNode
        (header.dOffset + value.length) := by
      obtain ⟨index, found, lower, -, posEq⟩ := headerAt
      exact ⟨index, found, by omega, by omega, by omega⟩
    refine ⟨_, rfl, rfl, rfl, ?_, ?_, ?_⟩
    · simp only [TlvRead.bytes]
      rw [at_read chain headerAt inStream (by omega), valueBytes]
    · intro access inside
      rcases List.mem_append.mp inside with old | new
      · exact headerSeen access old
      · obtain rfl := List.mem_singleton.mp new
        exact at_within chain headerAt inStream (by omega)
    · exact next_tlv_spec chain tight (by simp only [NIFO_SIZE]; omega) afterValue inStream

/-- A TLV as it stands in the stream. -/
def framed (item : Nat × List UInt8) : List UInt8 := tlvBytes item.1 item.2.length ++ item.2

/-- The caller's loop from any TLV boundary returns the TLVs behind it, and ends. -/
theorem read_tlvs_spec {head : Nat} {rest : List Nat}
    (chain : Chain shm zoneID zone (head :: rest)) (tight : Tight shm zone (head :: rest))
    (wide : NIFO_SIZE + TLV_SIZE ≤ zone.uiMemNodeBodySize) (items : List (Nat × List UInt8))
    (typeBound : ∀ item ∈ items, item.1 < 2 ^ 32) (small : ∀ item ∈ items, item.2.length < 2 ^ 31)
    (memory : ∀ item ∈ items, malloc (item.2.length + 1) = true) :
    ∀ {pos turns : Nat} {nexttlv : Option Nat},
      pos ≤ (stream shm (head :: rest)).length →
      (stream shm (head :: rest)).drop pos = items.flatMap framed →
      Follows shm zone (head :: rest) pos nexttlv → items.length ≤ turns →
      ∃ reads, readTlvs shm malloc head turns nexttlv = some (reads, none) ∧
        reads.map (fun read => (read.type, read.len, read.bytes shm)) =
          items.map (fun item => (item.1, item.2.length, item.2)) ∧
        (∀ read ∈ reads, ∀ access ∈ read.accesses, Within shm (head :: rest) access) ∧
        ∀ index read, reads[index]? = some read →
          (read.nexttlv = none ↔ index + 1 = reads.length) := by
  induction items with
  | nil =>
      intro pos turns nexttlv bound content follows _
      have atEnd : pos = (stream shm (head :: rest)).length := by
        have length := congrArg List.length content
        simp only [List.length_drop, List.flatMap_nil, List.length_nil] at length
        omega
      rw [Follows, if_pos atEnd] at follows
      subst follows
      refine ⟨[], ?_, rfl, by simp, by simp⟩
      cases turns <;> rfl
  | cons item items ih =>
      intro pos turns nexttlv bound content follows enough
      obtain ⟨turns, rfl⟩ : ∃ fewer, turns = fewer + 1 :=
        ⟨turns - 1, by simp only [List.length_cons] at enough; omega⟩
      rw [List.flatMap_cons] at content
      have length := congrArg List.length content
      simp only [List.length_drop, List.length_append, framed, tlv_bytes_length, TLV_SIZE] at length
      rw [Follows, if_neg (by omega)] at follows
      obtain ⟨ptr, rfl, points⟩ := follows
      obtain ⟨read, result, type, len, bytes, seen, next⟩ := read_tlv_cont_spec malloc chain
        tight wide
        points content (typeBound item (by simp)) (small item (by simp)) (memory item (by simp))
      have contentAfter : (stream shm (head :: rest)).drop (pos + TLV_SIZE + item.2.length) =
          items.flatMap framed := by
        rw [Nat.add_assoc, ← List.drop_drop, content]
        have size : TLV_SIZE + item.2.length = (framed item).length := by
          simp [framed, tlv_bytes_length]
        rw [size, List.drop_left]
      obtain ⟨reads, restResult, restEq, restSeen, restNull⟩ := ih
        (fun other member => typeBound other (by simp [member]))
        (fun other member => small other (by simp [member]))
        (fun other member => memory other (by simp [member]))
        (show pos + TLV_SIZE + item.2.length ≤ (stream shm (head :: rest)).length by
          simp only [TLV_SIZE]
          omega)
        contentAfter next (show items.length ≤ turns by
          simp only [List.length_cons] at enough
          omega)
      refine ⟨read :: reads, ?_, ?_, ?_, ?_⟩
      · simp [readTlvs, result, restResult]
      · simp [type, len, bytes, restEq]
      · intro other member
        rcases List.mem_cons.mp member with rfl | member
        · exact seen
        · exact restSeen other member
      · intro index other found
        cases index with
        | zero =>
            simp only [List.getElem?_cons_zero, Option.some.injEq] at found
            subst found
            have count : reads.length = items.length := by
              simpa using congrArg List.length restEq
            simp only [List.length_cons, count]
            rw [Follows] at next
            constructor
            · intro null
              rw [null] at next
              split at next
              · rename_i atEnd
                have none_left : items.flatMap framed = [] := by
                  rw [← contentAfter, atEnd, List.drop_length]
                cases items with
                | nil => rfl
                | cons item _ => simp [framed, tlvBytes, le32] at none_left
              · obtain ⟨_, impossible, _⟩ := next
                simp at impossible
            · intro single
              have empty : items = [] := List.length_eq_zero_iff.mp (by omega)
              subst empty
              have atEnd : pos + TLV_SIZE + item.2.length = (stream shm (head :: rest)).length := by
                simp only [TLV_SIZE, List.flatMap_nil, List.length_nil] at length ⊢
                omega
              rwa [if_pos atEnd] at next
        | succ index =>
            simp only [List.getElem?_cons_succ] at found
            rw [restNull index other found]
            simp

end Stream

end Upst.Nifo
