import Upst.NifoChain

/-!
What `nifo_copy_tlv_cont` leaves in the stream. The header is stored as it is, cut
or not. A value that does not fit behind its header is stored piece by piece, and
every piece is copied from the start of the value again.
-/

namespace Upst.Nifo

open CList Mems Bytes

set_option autoImplicit false

section Cyclic

/-- The bytes the copy loop stores: the first `room` in place, then pieces of the
capacity of a node, each starting over. -/
def cyclicCopy (capacity room size : Nat) (value : List UInt8) : List UInt8 :=
  (List.range size).map fun index =>
    value.getD (if index < room then index else (index - room) % capacity) 0

/-- The data bytes left in the last node when `written` bytes fill whole nodes
before it and at least one byte of it. -/
def roomAfter (capacity written : Nat) : Nat := (capacity - written % capacity) % capacity

@[simp] theorem cyclic_copy_length (capacity room size : Nat) (value : List UInt8) :
    (cyclicCopy capacity room size value).length = size := by
  simp [cyclicCopy]

theorem cyclic_copy_short (capacity room : Nat) {size : Nat} {value : List UInt8} (fits : size ≤ room)
    (enough : size ≤ value.length) : cyclicCopy capacity room size value = value.take size := by
  apply List.ext_getElem (by simpa using enough)
  intro index bound bound'
  simp only [cyclic_copy_length] at bound
  have inRoom : index < room := by omega
  have inValue : index < value.length := by omega
  simp [cyclicCopy, inRoom, inValue]

theorem cyclic_copy_split {capacity room size : Nat} {value : List UInt8}
    (overflows : room ≤ size) (enough : room ≤ value.length) :
    value.take room ++ cyclicCopy capacity capacity (size - room) value =
      cyclicCopy capacity room size value := by
  obtain ⟨rest, rfl⟩ := Nat.exists_eq_add_of_le overflows
  rw [← cyclic_copy_short capacity room (Nat.le_refl room) enough]
  simp only [cyclicCopy, List.range_add, List.map_append, List.map_map, Nat.add_sub_cancel_left]
  congr 1
  apply List.map_congr_left
  intro index _
  simp only [Function.comp_apply, Nat.add_sub_cancel_left]
  rw [if_neg (by omega : ¬room + index < room)]
  split
  · rename_i small
    rw [Nat.mod_eq_of_lt small]
  · rename_i large
    rw [← Nat.mod_eq_sub_mod (by omega)]

/-- The stored value is the value itself exactly when every byte past the first
piece repeats the byte its piece restarts from. -/
theorem cyclic_copy_eq_iff (capacity room : Nat) (value : List UInt8) :
    cyclicCopy capacity room value.length value = value ↔
      ∀ index, room ≤ index → index < value.length →
        value.getD index 0 = value.getD ((index - room) % capacity) 0 := by
  constructor
  · intro same index past bound
    have stored : (cyclicCopy capacity room value.length value).getD index 0 =
        value.getD ((index - room) % capacity) 0 := by
      simp [cyclicCopy, bound, Nat.not_lt.mpr past]
    rw [← stored, same]
  · intro repeats
    apply List.ext_getElem (by simp)
    intro index bound bound'
    by_cases inRoom : index < room
    · simp [cyclicCopy, inRoom, bound']
    · have repeated := repeats index (by omega) bound'
      rw [List.getD_eq_getElem _ _ bound'] at repeated
      rw [repeated]
      simp [cyclicCopy, inRoom]

theorem room_after_eq (capacity pieces used : Nat) (positive : 0 < used)
    (bound : used ≤ capacity) : roomAfter capacity (pieces * capacity + used) = capacity - used := by
  have reduce : (pieces * capacity + used) % capacity = used % capacity := by
    rw [Nat.add_comm, Nat.add_mul_mod_self_right]
  rw [roomAfter, reduce]
  rcases Nat.lt_or_eq_of_le bound with small | rfl
  · rw [Nat.mod_eq_of_lt small, Nat.mod_eq_of_lt (by omega)]
  · simp

end Cyclic

section Arithmetic

theorem s32_small {x : Int} (low : 0 ≤ x) (high : x < 2 ^ 31) : s32 x = x := by
  apply Int.bmod_eq_of_le
  · omega
  · omega

end Arithmetic

section Write

variable {shm : MemsInfo} {zoneID : Nat} {zone : MemsZone} {procID : Nat}

/-- One chain continued into another with `added` behind its stream. -/
structure Grown (shm : MemsInfo) (zoneID : Nat) (zone : MemsZone) (nodes : List Nat)
    (added : List UInt8) (shm' : MemsInfo) (nodes' : List Nat) : Prop where
  extends' : nodes <+: nodes'
  chain : Chain shm' zoneID zone nodes'
  content : stream shm' nodes' = stream shm nodes ++ added
  matrix : shm'.uiMatrixZoneID = shm.uiMatrixZoneID

theorem Grown.trans {shm' shm'' : MemsInfo} {nodes nodes' nodes'' : List Nat}
    {added added' : List UInt8} (first : Grown shm zoneID zone nodes added shm' nodes')
    (second : Grown shm' zoneID zone nodes' added' shm'' nodes'') :
    Grown shm zoneID zone nodes (added ++ added') shm'' nodes'' := by
  refine ⟨first.extends'.trans second.extends', second.chain, ?_, second.matrix.trans first.matrix⟩
  rw [second.content, first.content, List.append_assoc]

/-- The last node of the chain holds at least one byte. -/
def Tight (shm : MemsInfo) (zone : MemsZone) (nodes : List Nat) : Prop :=
  nodes.length * capacity zone < (stream shm nodes).length + capacity zone

theorem tight_snoc {front : List Nat} {node : Nat}
    (chain : Chain shm zoneID zone (front ++ [node]))
    (holds : NIFO_SIZE < (shm.nifo node).lastoffset) : Tight shm zone (front ++ [node]) := by
  rw [Tight, stream_snoc_length chain, List.length_append, List.length_singleton, Nat.add_mul,
    Nat.one_mul]
  omega

theorem append_grown {front : List Nat} {node : Nat}
    (chain : Chain shm zoneID zone (front ++ [node])) (src : List UInt8) (size : Nat)
    (enough : size ≤ src.length)
    (room : (shm.nifo node).lastoffset + size ≤ zone.uiMemNodeBodySize) :
    ∃ shm', nifoAppend shm node src size = some shm' ∧
      Grown shm zoneID zone (front ++ [node]) (src.take size) shm' (front ++ [node]) ∧
      (shm'.nifo node).lastoffset = (shm.nifo node).lastoffset + size := by
  obtain ⟨shm', appended, chain', content, last, matrix⟩ := append_chain chain src enough room
  exact ⟨shm', appended, ⟨List.prefix_rfl, chain', content, matrix⟩, last⟩

theorem alloc_grown {front : List Nat} {node sub : Nat} {shm' : MemsInfo}
    (chain : Chain shm zoneID zone (front ++ [node]))
    (mapped : shm.uiMatrixZoneID procID = zoneID)
    (exhausted : (shm.nifo node).lastoffset = zone.uiMemNodeBodySize)
    (wide : NIFO_SIZE ≤ zone.uiMemNodeBodySize)
    (allocated : nifoNodeAlloc shm procID = (some sub, shm')) :
    Grown shm zoneID zone (front ++ [node]) [] (nifoNodeLinkContNext shm' node sub)
        (front ++ [node] ++ [sub]) ∧
      ((nifoNodeLinkContNext shm' node sub).nifo sub).lastoffset = NIFO_SIZE := by
  obtain ⟨chain', content, last, matrix⟩ := alloc_chain chain mapped exhausted wide allocated
  exact ⟨⟨List.prefix_append _ _, chain', by simpa using content, matrix⟩, last⟩

/-- The loop stores the rest of the value from the current node on. Its fuel covers
one turn for each byte left and one more for a node that is already full. -/
theorem copy_tlv_loop_spec (wide : NIFO_SIZE < zone.uiMemNodeBodySize) {value : List UInt8}
    {len : Nat} (length : value.length = len) (small : len < 2 ^ 31) (fuel : Nat) :
    ∀ {shm : MemsInfo} {front : List Nat} {node oldLen : Nat},
      Chain shm zoneID zone (front ++ [node]) → shm.uiMatrixZoneID procID = zoneID →
      oldLen ≤ len →
      (len - oldLen) + (if (shm.nifo node).lastoffset = zone.uiMemNodeBodySize then 1 else 0) <
        fuel →
      ∃ shm' code, copyTlvLoop procID len value fuel shm node oldLen = some (shm', code) ∧
        (code = 0 ∨ code = -2) ∧
        (code = 0 → ∃ nodes',
          Grown shm zoneID zone (front ++ [node])
            (cyclicCopy (capacity zone)
              (zone.uiMemNodeBodySize - (shm.nifo node).lastoffset) (len - oldLen) value)
            shm' nodes' ∧
          (NIFO_SIZE < (shm.nifo node).lastoffset ∨ oldLen < len → Tight shm' zone nodes')) := by
  induction fuel with
  | zero => intro shm front node oldLen _ _ _ enough; omega
  | succ fuel ih =>
      intro shm front node oldLen chain mapped bound enough
      have member : node ∈ front ++ [node] := by simp
      have lower := chain.started node member
      have upper := chain.bounded node member
      have body := zone_body_small (chain.pool.zone zoneID zone chain.found)
      simp only [MEMS_SHM_SIZE] at body
      simp only [copyTlvLoop]
      by_cases more : oldLen < len
      · rw [if_pos more, chain.maxoffset node member]
        have copyLen : s32 ((len : Int) - oldLen) = len - oldLen := s32_small (by omega) (by omega)
        have remainSize : s32 ((zone.uiMemNodeBodySize : Int) - (shm.nifo node).lastoffset) =
            zone.uiMemNodeBodySize - (shm.nifo node).lastoffset :=
          s32_small (by omega) (by omega)
        rw [copyLen, remainSize, if_neg (by omega)]
        obtain ⟨left, leftEq⟩ := Nat.exists_eq_add_of_le upper
        have leftCast : ((zone.uiMemNodeBodySize : Int) - (shm.nifo node).lastoffset) = left := by
          omega
        have leftNat : zone.uiMemNodeBodySize - (shm.nifo node).lastoffset = left := by omega
        rw [leftCast, leftNat]
        by_cases spills : left < len - oldLen
        · -- the node is filled and the next turn starts over in a fresh one
          have positive : ((len : Int) - oldLen) - left > 0 := by omega
          rw [if_pos positive]
          obtain ⟨shm₁, appended, grown₁, last₁⟩ :=
            append_grown chain value left (by omega) (by omega)
          have mapped₁ : shm₁.uiMatrixZoneID procID = zoneID := by rw [grown₁.matrix, mapped]
          simp only [appended, Option.bind_eq_bind, Option.bind_some, Int.toNat_natCast]
          rw [if_pos positive]
          split
          · exact ⟨_, -2, rfl, Or.inr rfl, by simp⟩
          · rename_i shm₂ sub allocated
            obtain ⟨grown₂, last₂⟩ := alloc_grown grown₁.chain mapped₁ (by omega)
              (Nat.le_of_lt wide) allocated
            have notFull : NIFO_SIZE ≠ zone.uiMemNodeBodySize := by omega
            have fullCase : (if (shm.nifo node).lastoffset = zone.uiMemNodeBodySize then 1 else 0) =
                if left = 0 then 1 else 0 := by
              split_ifs <;> omega
            rw [fullCase] at enough
            obtain ⟨shm', code, result, codes, success⟩ := ih grown₂.chain
              (by rw [grown₂.matrix, mapped₁]) (show oldLen + left ≤ len by omega)
              (by rw [last₂, if_neg notFull]; split_ifs at enough <;> omega)
            refine ⟨shm', code, result, codes, ?_⟩
            intro ok
            obtain ⟨nodes', grown₃, tight⟩ := success ok
            refine ⟨nodes', ?_, fun _ => tight (Or.inr (by omega))⟩
            have all := grown₁.trans (grown₂.trans grown₃)
            rw [last₂, List.nil_append, show len - (oldLen + left) = len - oldLen - left by omega]
              at all
            rwa [← capacity, cyclic_copy_split (by omega) (by omega)] at all
        · -- the rest fits, and the loop test ends the next turn
          have nonpositive : ¬((len : Int) - oldLen) - left > 0 := by omega
          rw [if_neg nonpositive]
          obtain ⟨shm₁, appended, grown₁, last₁⟩ :=
            append_grown chain value (len - oldLen) (by omega) (by omega)
          have cast : ((len - oldLen : Nat) : Int) = (len : Int) - oldLen := by omega
          rw [cast] at appended
          simp only [appended, Option.bind_eq_bind, Option.bind_some]
          rw [if_neg nonpositive]
          obtain ⟨turns, rfl⟩ : ∃ turns, fuel = turns + 1 := ⟨fuel - 1, by omega⟩
          simp only [copyTlvLoop]
          rw [if_neg (by omega)]
          refine ⟨shm₁, 0, rfl, Or.inl rfl, fun _ => ⟨front ++ [node], ?_, fun _ => ?_⟩⟩
          · rw [cyclic_copy_short _ _ (by omega) (by omega)]
            exact grown₁
          · exact tight_snoc grown₁.chain (by omega)
      · rw [if_neg more]
        refine ⟨shm, 0, rfl, Or.inl rfl, fun _ => ⟨front ++ [node], ?_, ?_⟩⟩
        · have done : len - oldLen = 0 := by omega
          rw [done]
          exact ⟨List.prefix_rfl, chain, by simp [cyclicCopy], rfl⟩
        · rintro (holds | less)
          · exact tight_snoc chain holds
          · exact absurd less more

theorem copy_tlv_value_spec {front : List Nat} {node : Nat}
    (chain : Chain shm zoneID zone (front ++ [node]))
    (mapped : shm.uiMatrixZoneID procID = zoneID)
    (holds : NIFO_SIZE < (shm.nifo node).lastoffset) {value : List UInt8} {len : Nat}
    (length : value.length = len) (small : len < 2 ^ 31) :
    ∃ shm' code, copyTlvValue shm procID len value node = some (shm', code) ∧
      (code = 0 ∨ code = -2) ∧
      (code = 0 → ∃ nodes',
        Grown shm zoneID zone (front ++ [node])
          (cyclicCopy (capacity zone) (zone.uiMemNodeBodySize - (shm.nifo node).lastoffset) len
            value) shm' nodes' ∧
        Tight shm' zone nodes') := by
  have member : node ∈ front ++ [node] := by simp
  have upper := chain.bounded node member
  simp only [copyTlvValue, chain.maxoffset node member]
  by_cases spills : zone.uiMemNodeBodySize < (shm.nifo node).lastoffset + len
  · rw [if_pos spills]
    obtain ⟨shm', code, result, codes, success⟩ := copy_tlv_loop_spec (by omega) length small
      (len + 2) chain mapped (Nat.zero_le len) (by split_ifs <;> omega)
    refine ⟨shm', code, result, codes, fun ok => ?_⟩
    obtain ⟨nodes', grown, tight⟩ := success ok
    exact ⟨nodes', by simpa using grown, tight (Or.inl holds)⟩
  · rw [if_neg spills]
    obtain ⟨shm', appended, grown, last⟩ :=
      append_grown chain value len (by omega) (by omega)
    simp only [appended, Option.bind_eq_bind, Option.bind_some]
    refine ⟨shm', 0, rfl, Or.inl rfl, fun _ => ⟨front ++ [node], ?_, ?_⟩⟩
    · rw [cyclic_copy_short _ _ (by omega) (by omega)]
      exact grown
    · exact tight_snoc grown.chain (by omega)

/-- A length past `S32` never succeeds: the first piece would have a negative size. -/
theorem copy_tlv_value_large {node : Nat} (upper : (shm.nifo node).lastoffset ≤
    (shm.nifo node).maxoffset) (segment : (shm.nifo node).maxoffset < MEMS_SHM_SIZE)
    {value : List UInt8} {len : Nat} (large : 2 ^ 31 ≤ len) (bound : len < 2 ^ 32) :
    copyTlvValue shm procID len value node = none := by
  simp only [MEMS_SHM_SIZE] at segment
  have negative : s32 ((len : Int) - (0 : Nat)) = len - 2 ^ 32 := by
    have shifted : ((len : Int) - (0 : Nat)) = (len - 2 ^ 32) + ((2 ^ 32 : Nat) : Int) := by omega
    rw [s32, shifted, Int.add_bmod_right]
    apply Int.bmod_eq_of_le
    · omega
    · omega
  have remain : s32 (((shm.nifo node).maxoffset : Int) - (shm.nifo node).lastoffset) =
      (shm.nifo node).maxoffset - (shm.nifo node).lastoffset := s32_small (by omega) (by omega)
  simp only [copyTlvValue]
  rw [if_pos (by omega), copyTlvLoop, if_pos (by omega)]
  simp only [negative, remain]
  split
  · rfl
  · rw [if_neg (by omega)]
    have refused : nifoAppend shm node value ((len : Int) - 2 ^ 32) = none := by
      simp only [nifoAppend]
      rw [if_neg (by omega)]
    rw [refused]
    rfl

theorem tlv_bytes_length (type len : Nat) : (tlvBytes type len).length = TLV_SIZE := by
  simp [tlvBytes, TLV_SIZE]

/-- What a TLV becomes in the stream when `written` bytes stand before it. -/
def storedTlv (zone : MemsZone) (written type len : Nat) (value : List UInt8) : List UInt8 :=
  tlvBytes type len ++
    cyclicCopy (capacity zone) (roomAfter (capacity zone) (written + TLV_SIZE)) len value

theorem stored_tlv_of_room {nodes : List Nat} {front : List Nat} {node : Nat} {shm₁ : MemsInfo}
    {type len : Nat} {value : List UInt8}
    (grown : Grown shm zoneID zone nodes (tlvBytes type len) shm₁ (front ++ [node]))
    (holds : NIFO_SIZE < (shm₁.nifo node).lastoffset) :
    tlvBytes type len ++ cyclicCopy (capacity zone)
        (zone.uiMemNodeBodySize - (shm₁.nifo node).lastoffset) len value =
      storedTlv zone (stream shm nodes).length type len value := by
  have upper := grown.chain.bounded node (by simp)
  have total := stream_snoc_length grown.chain
  rw [grown.content, List.length_append, tlv_bytes_length] at total
  have room := room_after_eq (capacity zone) front.length
    ((shm₁.nifo node).lastoffset - NIFO_SIZE) (by omega) (by simp only [capacity]; omega)
  have rest : zone.uiMemNodeBodySize - (shm₁.nifo node).lastoffset =
      capacity zone - ((shm₁.nifo node).lastoffset - NIFO_SIZE) := by
    simp only [capacity]
    omega
  rw [storedTlv, total, room, rest]

/-- The header phase of `nifo_copy_tlv_cont` when header and value do not both fit the
last node: unless a node is missing, the value phase goes on where the header ended. -/
theorem copy_tlv_header_spec {head node : Nat} {front rest : List Nat}
    (chain : Chain shm zoneID zone (front ++ [node])) (split : head :: rest = front ++ [node])
    (mapped : shm.uiMatrixZoneID procID = zoneID)
    (wide : NIFO_SIZE + TLV_SIZE ≤ zone.uiMemNodeBodySize) (type len : Nat)
    (value : List UInt8)
    (overflows : zone.uiMemNodeBodySize < (shm.nifo node).lastoffset + TLV_SIZE + len) :
    (∃ shm', nifoCopyTlvCont shm procID type len value head = some (shm', -1)) ∨
    ∃ shm₁ front₁ node₁,
      nifoCopyTlvCont shm procID type len value head =
        copyTlvValue shm₁ procID len value node₁ ∧
      Grown shm zoneID zone (front ++ [node]) (tlvBytes type len) shm₁ (front₁ ++ [node₁]) ∧
      NIFO_SIZE < (shm₁.nifo node₁).lastoffset := by
  have last : shm.cont.prev head = node := by
    have ring := chain.ring
    rw [← split] at ring
    rw [ring_prev_head ring]
    simp [split]
  have member : node ∈ front ++ [node] := by simp
  have lower := chain.started node member
  have upper := chain.bounded node member
  have body := zone_body_small (chain.pool.zone zoneID zone chain.found)
  simp only [MEMS_SHM_SIZE] at body
  have tlvLength := tlv_bytes_length type len
  simp only [TLV_SIZE] at wide tlvLength overflows
  simp only [nifoCopyTlvCont, last, chain.maxoffset node member, TLV_SIZE]
  rw [if_pos overflows]
  by_cases cut : zone.uiMemNodeBodySize < (shm.nifo node).lastoffset + 8
  · rw [if_pos cut]
    obtain ⟨left, leftEq⟩ := Nat.exists_eq_add_of_le upper
    have copySize : s32 ((zone.uiMemNodeBodySize : Int) - (shm.nifo node).lastoffset) = left := by
      rw [s32_small (by omega) (by omega)]
      omega
    have remainSize : ((8 : Nat) : Int) - left = ((8 - left : Nat) : Int) := by omega
    rw [copySize, remainSize]
    obtain ⟨shm₁, appended₁, grown₁, last₁⟩ :=
      append_grown chain (tlvBytes type len) left (by omega) (by omega)
    simp only [appended₁, Option.bind_eq_bind, Option.bind_some, Int.toNat_natCast]
    split
    · exact Or.inl ⟨_, rfl⟩
    · rename_i sub shm₂ allocated
      obtain ⟨grown₂, last₂⟩ := alloc_grown grown₁.chain (by rw [grown₁.matrix, mapped])
        (by omega) (by omega) allocated
      obtain ⟨shm₃, appended₃, grown₃, last₃⟩ := append_grown grown₂.chain
        ((tlvBytes type len).drop left) (8 - left)
        (by rw [List.length_drop]; omega) (by rw [last₂]; omega)
      simp only [appended₃, Option.bind_some]
      have header := grown₁.trans (grown₂.trans grown₃)
      have whole : ((tlvBytes type len).drop left).take (8 - left) =
          (tlvBytes type len).drop left := List.take_of_length_le (by rw [List.length_drop]; omega)
      rw [List.nil_append, whole, List.take_append_drop] at header
      exact Or.inr ⟨shm₃, _, sub, rfl, header, by omega⟩
  · rw [if_neg cut]
    obtain ⟨shm₁, appended₁, grown₁, last₁⟩ :=
      append_grown chain (tlvBytes type len) 8 (by omega) (by omega)
    rw [List.take_of_length_le (by omega)] at grown₁
    simp only [appended₁, Option.bind_eq_bind, Option.bind_some]
    exact Or.inr ⟨shm₁, front, node, rfl, grown₁, by omega⟩

theorem copy_tlv_cont_spec {head : Nat} {rest : List Nat}
    (chain : Chain shm zoneID zone (head :: rest)) (mapped : shm.uiMatrixZoneID procID = zoneID)
    (wide : NIFO_SIZE + TLV_SIZE ≤ zone.uiMemNodeBodySize) (type : Nat) {len : Nat}
    {value : List UInt8} (length : value.length = len) (small : len < 2 ^ 31) :
    ∃ shm' code, nifoCopyTlvCont shm procID type len value head = some (shm', code) ∧
      (code = 0 ∨ code = -1 ∨ code = -2) ∧
      (code = 0 → ∃ nodes',
        Grown shm zoneID zone (head :: rest)
          (storedTlv zone (stream shm (head :: rest)).length type len value) shm' nodes' ∧
        Tight shm' zone nodes') := by
  have tail := ring_prev_head chain.ring
  obtain ⟨front, node, split⟩ : ∃ front node, head :: rest = front ++ [node] :=
    ⟨_, _, (List.dropLast_append_getLast (by simp)).symm⟩
  rw [split] at chain ⊢
  have member : node ∈ front ++ [node] := by simp
  have upper := chain.bounded node member
  by_cases overflows : zone.uiMemNodeBodySize < (shm.nifo node).lastoffset + TLV_SIZE + len
  · rcases copy_tlv_header_spec chain split mapped wide type len value overflows with
      ⟨shm', missing⟩ | ⟨shm₁, front₁, node₁, continues, grown₁, holds⟩
    · exact ⟨shm', -1, missing, Or.inr (Or.inl rfl), by simp⟩
    · obtain ⟨shm', code, result, codes, success⟩ := copy_tlv_value_spec grown₁.chain
        (by rw [grown₁.matrix, mapped]) holds length small
      refine ⟨shm', code, by rw [continues, result], by tauto, fun ok => ?_⟩
      obtain ⟨nodes', grown₂, tight⟩ := success ok
      have stored := grown₁.trans grown₂
      rw [stored_tlv_of_room grown₁ holds] at stored
      exact ⟨nodes', stored, tight⟩
  · have last : shm.cont.prev head = node := by
      rw [tail]
      simp [split]
    have tlvLength := tlv_bytes_length type len
    have lower := chain.started node member
    simp only [TLV_SIZE] at overflows tlvLength
    simp only [nifoCopyTlvCont, last, chain.maxoffset node member, TLV_SIZE]
    rw [if_neg overflows]
    obtain ⟨shm₁, appended₁, grown₁, last₁⟩ :=
      append_grown chain (tlvBytes type len) 8 (by omega) (by omega)
    obtain ⟨shm₂, appended₂, grown₂, last₂⟩ :=
      append_grown grown₁.chain value len (by omega) (by omega)
    rw [List.take_of_length_le (by omega)] at grown₁
    simp only [appended₁, appended₂, Option.bind_eq_bind, Option.bind_some]
    have stored := grown₁.trans grown₂
    rw [← cyclic_copy_short (capacity zone)
      (zone.uiMemNodeBodySize - (shm₁.nifo node).lastoffset) (by omega) (by omega),
      stored_tlv_of_room grown₁ (by omega)] at stored
    exact ⟨shm₂, 0, rfl, Or.inl rfl,
      fun _ => ⟨_, stored, tight_snoc grown₂.chain (by omega)⟩⟩

/-- Only lengths that an `S32` holds are ever written with success. -/
theorem copy_tlv_cont_small {head : Nat} {rest : List Nat} {shm' : MemsInfo}
    (chain : Chain shm zoneID zone (head :: rest)) (mapped : shm.uiMatrixZoneID procID = zoneID)
    (wide : NIFO_SIZE + TLV_SIZE ≤ zone.uiMemNodeBodySize) {type len : Nat} {value : List UInt8}
    (bound : len < 2 ^ 32)
    (success : nifoCopyTlvCont shm procID type len value head = some (shm', 0)) :
    len < 2 ^ 31 := by
  by_contra large
  obtain ⟨front, node, split⟩ : ∃ front node, head :: rest = front ++ [node] :=
    ⟨_, _, (List.dropLast_append_getLast (by simp)).symm⟩
  rw [split] at chain
  have body := zone_body_small (chain.pool.zone zoneID zone chain.found)
  have segment := body
  simp only [MEMS_SHM_SIZE] at body
  rcases copy_tlv_header_spec chain split mapped wide type len value (by omega) with
    ⟨shm₁, missing⟩ | ⟨shm₁, front₁, node₁, continues, grown₁, -⟩
  · rw [missing] at success
    simp at success
  · have member : node₁ ∈ front₁ ++ [node₁] := by simp
    rw [continues, copy_tlv_value_large _ _ (by omega) bound] at success
    · simp at success
    · rw [grown₁.chain.maxoffset node₁ member]
      exact grown₁.chain.bounded node₁ member
    · rw [grown₁.chain.maxoffset node₁ member]
      exact segment

end Write

end Upst.Nifo
