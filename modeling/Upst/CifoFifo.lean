import Upst.Cifo
import Mathlib.Data.Nat.ModEq

/-!
A channel is a queue of nodes: those of the unread cells in the order of the cells,
then those that wait in `wOffset`. A write adds a ring behind them, a read takes
the rings of the first cells off, and the batch sizes decide only where the queue
is cut.
-/

namespace Upst.Cifo

open CList Mems Nifo

set_option autoImplicit false

section Positions

/-- The cells of the channel lie in the segment, and apart from each other. -/
structure Layout (chan : Chan) : Prop where
  populated : 0 < chan.uiCellCnt
  wide : OFFSET_SIZE ≤ chan.uiCellSize
  inside : chan.cellStartOffset + chan.uiCellCnt * chan.uiCellSize ≤ CIFO_SHM_SIZE

variable {chan : Chan}

theorem layout_cell (layout : Layout chan) {pos : Nat} (bound : pos < chan.uiCellCnt) :
    chan.getCell pos = chan.cellStartOffset + pos * chan.uiCellSize ∧ chan.CellInside pos := by
  have inside := layout.inside
  have wide := layout.wide
  have before : pos * chan.uiCellSize + chan.uiCellSize ≤ chan.uiCellCnt * chan.uiCellSize := by
    rw [← Nat.succ_mul]
    exact Nat.mul_le_mul_right _ bound
  have small : u32 (pos * chan.uiCellSize) = pos * chan.uiCellSize := by
    apply Nat.mod_eq_of_lt
    simp only [CIFO_SHM_SIZE, OFFSET_SIZE] at inside wide
    omega
  have place : chan.getCell pos = chan.cellStartOffset + pos * chan.uiCellSize := by
    rw [Chan.getCell, small]
  refine ⟨place, ?_⟩
  rw [Chan.CellInside, place]
  omega

theorem layout_cell_injective (layout : Layout chan) {pos other : Nat}
    (bound : pos < chan.uiCellCnt) (bound' : other < chan.uiCellCnt)
    (same : chan.getCell pos = chan.getCell other) : pos = other := by
  rw [(layout_cell layout bound).1, (layout_cell layout bound').1] at same
  have positive : 0 < chan.uiCellSize := Nat.lt_of_lt_of_le (by decide) layout.wide
  exact Nat.eq_of_mul_eq_mul_right positive (Nat.add_left_cancel same)

theorem layout_next_pos (layout : Layout chan) {pos : Nat} (bound : pos < chan.uiCellCnt) :
    chan.nextPos pos = (pos + 1) % chan.uiCellCnt := by
  have inside := layout.inside
  have wide : 8 ≤ chan.uiCellSize := layout.wide
  have cells : chan.uiCellCnt * 8 ≤ chan.uiCellCnt * chan.uiCellSize := Nat.mul_le_mul_left _ wide
  have small : u32 (pos + 1) = pos + 1 := by
    apply Nat.mod_eq_of_lt
    simp only [CIFO_SHM_SIZE] at inside
    omega
  rw [Chan.nextPos, small]

/-- Fewer than `uiCellCnt` steps never come back to the same position. -/
theorem position_injective {start first second cnt : Nat} (lower : first < cnt)
    (lower' : second < cnt) (same : (start + first) % cnt = (start + second) % cnt) :
    first = second := by
  have congruent : Nat.ModEq cnt (start + first) (start + second) := same
  have cancelled := Nat.ModEq.add_left_cancel' start congruent
  exact Nat.ModEq.eq_of_lt_of_lt cancelled lower lower'

end Positions

section Queue

/-- `nodes` is the ring that an `OFFSET` other than 0 leads to. -/
structure Batch (nont : Links Nat) (offset : Nat) (nodes : List Nat) : Prop where
  some : offset ≠ 0
  first : nodes.head? = Option.some offset
  ring : IsRing nont nodes

/-- The unread cells hold the batches in order, `wOffset` leads to the waiting nodes. -/
structure Holds (nont : Links Nat) (cell : Nat → Nat) (chan : Chan) (batches : List (List Nat))
    (waiting : List Nat) : Prop where
  layout : Layout chan
  readPos : chan.rCellPos < chan.uiCellCnt
  room : batches.length < chan.uiCellCnt
  writePos : chan.wCellPos = (chan.rCellPos + batches.length) % chan.uiCellCnt
  cells : ∀ index batch, batches[index]? = some batch →
    Batch nont (cell (chan.getCell ((chan.rCellPos + index) % chan.uiCellCnt))) batch
  buffer : waiting = [] ∧ chan.wOffset = 0 ∨ Batch nont chan.wOffset waiting
  distinct : (batches.flatten ++ waiting).Nodup

variable {nont : Links Nat} {cell : Nat → Nat} {chan : Chan} {batches : List (List Nat)}
  {waiting : List Nat}

theorem batch_cons {offset : Nat} {nodes : List Nat} (batch : Batch nont offset nodes) :
    ∃ rest, nodes = offset :: rest := by
  cases nodes with
  | nil => exact absurd rfl batch.ring.1
  | cons head rest =>
      have same : head = offset := by simpa using batch.first
      exact ⟨rest, by rw [same]⟩

theorem batch_ring_from {offset : Nat} {nodes : List Nat} (batch : Batch nont offset nodes) :
    nont.ringFrom offset = nodes := by
  obtain ⟨rest, rfl⟩ := batch_cons batch
  exact ring_from batch.ring

/-- The rings of a queue are untouched by a splice of two others. -/
theorem batch_splice_frame {list head offset : Nat} {front back nodes : List Nat}
    (batch : Batch nont offset nodes) (first : Batch nont head front)
    (second : Batch nont list back) (apart : List.Disjoint nodes front)
    (apart' : List.Disjoint nodes back) : Batch (nont.splice list head) offset nodes := by
  obtain ⟨frontRest, rfl⟩ := batch_cons first
  obtain ⟨backRest, rfl⟩ := batch_cons second
  exact ⟨batch.some, batch.first, splice_frame batch.ring first.ring second.ring apart apart'⟩

theorem batch_splice {list head : Nat} {front back : List Nat} (first : Batch nont head front)
    (second : Batch nont list back) (apart : List.Disjoint front back) :
    Batch (nont.splice list head) head (front ++ back) := by
  obtain ⟨frontRest, rfl⟩ := batch_cons first
  obtain ⟨backRest, rfl⟩ := batch_cons second
  exact ⟨first.some, rfl, ring_splice first.ring second.ring apart⟩

theorem batch_mem_flatten {index : Nat} {batch : List Nat}
    (found : batches[index]? = some batch) {node : Nat} (member : node ∈ batch) :
    node ∈ batches.flatten :=
  List.mem_flatten.mpr ⟨batch, List.mem_of_getElem? found, member⟩

/-- How many cells are unread, from the two positions alone. -/
theorem holds_used (holds : Holds nont cell chan batches waiting) :
    (chan.wCellPos + chan.uiCellCnt - chan.rCellPos) % chan.uiCellCnt = batches.length := by
  have readPos := holds.readPos
  have room := holds.room
  rw [holds.writePos]
  rcases Nat.lt_or_ge (chan.rCellPos + batches.length) chan.uiCellCnt with below | above
  · rw [Nat.mod_eq_of_lt below]
    have shifted : chan.rCellPos + batches.length + chan.uiCellCnt - chan.rCellPos =
        batches.length + chan.uiCellCnt := by omega
    rw [shifted, Nat.add_mod_right, Nat.mod_eq_of_lt room]
  · have wrapped : (chan.rCellPos + batches.length) % chan.uiCellCnt =
        chan.rCellPos + batches.length - chan.uiCellCnt := by
      rw [Nat.mod_eq_sub_mod above]
      exact Nat.mod_eq_of_lt (by omega)
    have shifted : chan.rCellPos + batches.length - chan.uiCellCnt + chan.uiCellCnt -
        chan.rCellPos = batches.length := by omega
    rw [wrapped, shifted, Nat.mod_eq_of_lt room]

/-- A read finds the channel empty exactly when no cell is unread. -/
theorem holds_empty_iff (holds : Holds nont cell chan batches waiting) :
    chan.rCellPos = chan.wCellPos ↔ batches = [] := by
  constructor
  · intro same
    have used := holds_used holds
    rw [same] at used
    rw [Nat.add_sub_cancel_left, Nat.mod_self] at used
    exact List.length_eq_zero_iff.mp used.symm
  · rintro rfl
    have writePos := holds.writePos
    rw [List.length_nil, Nat.add_zero, Nat.mod_eq_of_lt holds.readPos] at writePos
    exact writePos.symm

/-- The write position has no room behind it exactly when all other cells are unread. -/
theorem holds_full_iff (holds : Holds nont cell chan batches waiting) :
    chan.nextPos chan.wCellPos = chan.rCellPos ↔ batches.length + 1 = chan.uiCellCnt := by
  have readPos := holds.readPos
  have room := holds.room
  have writeBound : chan.wCellPos < chan.uiCellCnt := by
    rw [holds.writePos]
    exact Nat.mod_lt _ holds.layout.populated
  rw [layout_next_pos holds.layout writeBound, holds.writePos, Nat.mod_add_mod, Nat.add_assoc]
  constructor
  · intro same
    by_contra notFull
    have start : (chan.rCellPos + (batches.length + 1)) % chan.uiCellCnt =
        (chan.rCellPos + 0) % chan.uiCellCnt := by
      rw [same, Nat.add_zero, Nat.mod_eq_of_lt readPos]
    have stuck := position_injective (by omega) holds.layout.populated start
    omega
  · intro full
    rw [full, Nat.add_mod_right, Nat.mod_eq_of_lt readPos]

end Queue

section Steps

variable {nont : Links Nat} {cell : Nat → Nat} {chan : Chan} {batches : List (List Nat)}
  {waiting : List Nat}

/-- A splice of two rings that are not in the queue keeps the queue. -/
theorem holds_splice (holds : Holds nont cell chan batches waiting) {list head : Nat}
    {front back : List Nat} (first : Batch nont head front) (second : Batch nont list back)
    (apart : List.Disjoint (batches.flatten ++ waiting) front)
    (apart' : List.Disjoint (batches.flatten ++ waiting) back) :
    Holds (nont.splice list head) cell chan batches waiting := by
  refine ⟨holds.layout, holds.readPos, holds.room, holds.writePos, ?_, ?_, holds.distinct⟩
  · intro index batch found
    refine batch_splice_frame (holds.cells index batch found) first second ?_ ?_
    · exact fun node member =>
        apart (List.mem_append_left _ (batch_mem_flatten found member))
    · exact fun node member =>
        apart' (List.mem_append_left _ (batch_mem_flatten found member))
  · rcases holds.buffer with empty | full
    · exact Or.inl empty
    · refine Or.inr (batch_splice_frame full first second ?_ ?_)
      · exact fun node member => apart (List.mem_append_right _ member)
      · exact fun node member => apart' (List.mem_append_right _ member)

theorem buffer_spec {shm : MemsInfo} (holds : Holds shm.nont cell chan batches waiting)
    {offset : Nat} {nodes : List Nat} (ring : Batch shm.nont offset nodes)
    (apart : List.Disjoint (batches.flatten ++ waiting) nodes) :
    Holds (cifoBuffer shm chan offset).1.nont cell (cifoBuffer shm chan offset).2 batches
        (waiting ++ nodes) ∧
      (cifoBuffer shm chan offset).2.wOffset ≠ 0 ∧
      (cifoBuffer shm chan offset).2.uiWCnt = u32 (chan.uiWCnt + 1) ∧
      (cifoBuffer shm chan offset).2.uiWBuffCnt = chan.uiWBuffCnt := by
  have distinct : (batches.flatten ++ (waiting ++ nodes)).Nodup := by
    rw [← List.append_assoc]
    exact List.nodup_append'.mpr ⟨holds.distinct, ring.ring.2.1, apart⟩
  rcases holds.buffer with ⟨rfl, empty⟩ | full
  · have idle : ¬0 < chan.wOffset := by omega
    simp only [cifoBuffer, if_neg idle]
    refine ⟨⟨?_, holds.readPos, holds.room, holds.writePos, holds.cells, Or.inr ring, distinct⟩,
      ring.some, trivial, trivial⟩
    exact ⟨holds.layout.populated, holds.layout.wide, holds.layout.inside⟩
  · have busy : 0 < chan.wOffset := Nat.pos_of_ne_zero full.some
    simp only [cifoBuffer, if_pos busy, nifoSpliceNont]
    have apartWaiting : List.Disjoint waiting nodes :=
      fun node member => apart (List.mem_append_right _ member)
    have joined := batch_splice full ring apartWaiting
    refine ⟨⟨?_, holds.readPos, holds.room, holds.writePos, ?_, Or.inr joined, distinct⟩,
      full.some, trivial, trivial⟩
    · exact ⟨holds.layout.populated, holds.layout.wide, holds.layout.inside⟩
    · intro index batch found
      refine batch_splice_frame (holds.cells index batch found) full ring ?_ ?_
      · exact fun node member member' =>
          (List.nodup_append'.mp holds.distinct).2.2 (batch_mem_flatten found member) member'
      · exact fun node member =>
          apart (List.mem_append_left _ (batch_mem_flatten found member))

/-- A full batch moves from `wOffset` to the cell at the write position. -/
theorem flush_spec {cifo : StCifo} {uiChID : Nat} (listed : uiChID < cifo.stCHAN.length)
    (holds : Holds nont cifo.cell chan batches waiting) (waits : chan.wOffset ≠ 0)
    (room : chan.uiWCnt ≥ chan.uiWBuffCnt → batches.length + 1 < chan.uiCellCnt) :
    ∃ cifo' chan' batches' waiting',
      cifoFlush cifo uiChID chan chan.wCellPos (chan.nextPos chan.wCellPos) = some cifo' ∧
        cifo'.stCHAN[uiChID]? = some chan' ∧
        Holds nont cifo'.cell chan' batches' waiting' ∧
        batches'.flatten ++ waiting' = batches.flatten ++ waiting := by
  have layout : Layout chan := holds.layout
  have full : Batch nont chan.wOffset waiting :=
    holds.buffer.resolve_left (fun idle => waits idle.2)
  by_cases enough : chan.uiWCnt ≥ chan.uiWBuffCnt
  · have more := room enough
    have writeBound : chan.wCellPos < chan.uiCellCnt := by
      rw [holds.writePos]
      exact Nat.mod_lt _ layout.populated
    have inside := (layout_cell layout writeBound).2
    simp only [cifoFlush, if_pos enough, if_pos (Nat.pos_of_ne_zero waits), if_pos inside]
    refine ⟨_, { chan with
        wOffset := 0
        uiWCnt := 0
        wCellPos := chan.nextPos chan.wCellPos }, batches ++ [waiting], [], rfl, ?_, ?_, ?_⟩
    · simp [listed]
    · refine ⟨⟨layout.populated, layout.wide, layout.inside⟩, holds.readPos, ?_, ?_, ?_,
        Or.inl ⟨rfl, rfl⟩, ?_⟩
      · simpa using more
      · show chan.nextPos chan.wCellPos = _
        rw [layout_next_pos layout writeBound, holds.writePos, Nat.mod_add_mod,
          List.length_append, List.length_singleton, Nat.add_assoc]
      · intro index batch found
        show Batch nont (Function.update cifo.cell (chan.getCell chan.wCellPos) chan.wOffset
          (chan.getCell ((chan.rCellPos + index) % chan.uiCellCnt))) batch
        rw [List.getElem?_append] at found
        split at found
        · next old =>
            -- an unread cell is not the one written, since not all cells are unread
            have apart : chan.getCell ((chan.rCellPos + index) % chan.uiCellCnt) ≠
                chan.getCell chan.wCellPos := by
              intro same
              have samePos := layout_cell_injective layout
                (Nat.mod_lt _ layout.populated) writeBound same
              rw [holds.writePos] at samePos
              have sameIndex := position_injective (by omega) holds.room samePos
              omega
            rw [Function.update_of_ne apart]
            exact holds.cells index batch found
        · next new =>
            have last : index = batches.length ∧ waiting = batch := by
              have small : index - batches.length < 1 := by
                simpa using (List.getElem?_eq_some_iff.mp found).1
              have zero : index - batches.length = 0 := by omega
              rw [zero] at found
              exact ⟨by omega, by simpa using found⟩
            rw [last.1, ← holds.writePos, Function.update_self, ← last.2]
            exact full
      · simpa using holds.distinct
    · simp
  · simp only [cifoFlush, if_neg enough]
    exact ⟨_, chan, batches, waiting, rfl, by simp [StCifo.setChan, listed], holds, rfl⟩

theorem write_spec {shm : MemsInfo} {cifo : StCifo} {uiChID offset : Nat} {nodes : List Nat}
    (found : cifo.stCHAN[uiChID]? = some chan)
    (holds : Holds shm.nont cifo.cell chan batches waiting) (ring : Batch shm.nont offset nodes)
    (apart : List.Disjoint (batches.flatten ++ waiting) nodes) :
    cifoWrite shm cifo uiChID offset = some (-2, shm, cifo) ∨
      ∃ shm' cifo' chan' batches' waiting',
        cifoWrite shm cifo uiChID offset = some (1, shm', cifo') ∧
          cifo'.stCHAN[uiChID]? = some chan' ∧
          Holds shm'.nont cifo'.cell chan' batches' waiting' ∧
          batches'.flatten ++ waiting' = batches.flatten ++ waiting ++ nodes := by
  by_cases full : chan.nextPos chan.wCellPos = chan.rCellPos ∧
      u32 (chan.uiWCnt + 1) ≥ chan.uiWBuffCnt
  · left
    simp only [cifoWrite, found, if_pos full]
  · right
    obtain ⟨buffered, waits, counted, same⟩ := buffer_spec holds ring apart
    have listed : uiChID < cifo.stCHAN.length := (List.getElem?_eq_some_iff.mp found).1
    have kept : (cifoBuffer shm chan offset).2.wCellPos = chan.wCellPos ∧
        (cifoBuffer shm chan offset).2.nextPos chan.wCellPos = chan.nextPos chan.wCellPos ∧
        (cifoBuffer shm chan offset).2.uiCellCnt = chan.uiCellCnt := by
      unfold cifoBuffer
      split <;> exact ⟨rfl, rfl, rfl⟩
    have room : (cifoBuffer shm chan offset).2.uiWCnt ≥
        (cifoBuffer shm chan offset).2.uiWBuffCnt →
          batches.length + 1 < (cifoBuffer shm chan offset).2.uiCellCnt := by
      rw [counted, same, kept.2.2]
      intro enough
      have notFull : ¬batches.length + 1 = chan.uiCellCnt := by
        rw [← holds_full_iff holds]
        exact fun atEnd => full ⟨atEnd, enough⟩
      have bound := holds.room
      omega
    obtain ⟨cifo', chan', batches', waiting', flushed, found', holds', content⟩ :=
      flush_spec listed buffered waits room
    rw [kept.1, kept.2.1] at flushed
    refine ⟨(cifoBuffer shm chan offset).1, cifo', chan', batches', waiting', ?_, found', holds',
      ?_⟩
    · simp only [cifoWrite, found, if_neg full, flushed, Option.map_some]
    · rw [content, List.append_assoc]

/-- Taking the first unread cell leaves the queue behind it. -/
theorem holds_advance {batch : List Nat}
    (holds : Holds nont cell chan (batch :: batches) waiting) :
    Batch nont (cell (chan.getCell chan.rCellPos)) batch ∧
      chan.CellInside chan.rCellPos ∧
      Holds nont cell { chan with rCellPos := chan.nextPos chan.rCellPos } batches waiting := by
  have layout := holds.layout
  have readPos := holds.readPos
  have next := layout_next_pos layout readPos
  refine ⟨?_, (layout_cell layout readPos).2, ?_⟩
  · have first := holds.cells 0 batch rfl
    rwa [Nat.add_zero, Nat.mod_eq_of_lt readPos] at first
  · refine ⟨⟨layout.populated, layout.wide, layout.inside⟩, ?_, ?_, ?_, ?_, holds.buffer, ?_⟩
    · show chan.nextPos chan.rCellPos < chan.uiCellCnt
      rw [next]
      exact Nat.mod_lt _ layout.populated
    · have room := holds.room
      rw [List.length_cons] at room
      exact Nat.lt_of_succ_lt room
    · show chan.wCellPos = (chan.nextPos chan.rCellPos + batches.length) % chan.uiCellCnt
      rw [next, Nat.mod_add_mod, holds.writePos, List.length_cons, Nat.add_assoc,
        Nat.add_comm 1]
    · intro index other found
      show Batch nont (cell (chan.getCell
        ((chan.nextPos chan.rCellPos + index) % chan.uiCellCnt))) other
      have later := holds.cells (index + 1) other found
      rwa [next, Nat.mod_add_mod, Nat.add_assoc, Nat.add_comm 1]
    · have distinct := holds.distinct
      rw [List.flatten_cons, List.append_assoc] at distinct
      exact (List.nodup_append'.mp distinct).2.1

/-- The nodes a read has joined so far: none, or the ring of `pHead`. -/
def Taken (nont : Links Nat) (pHead : Nat) (taken : List Nat) : Prop :=
  taken = [] ∧ pHead = 0 ∨ Batch nont pHead taken

theorem read_loop_spec {shm : MemsInfo} {pHead : Nat} {taken : List Nat} (rounds : Nat)
    (holds : Holds shm.nont cell chan batches waiting) (joined : Taken shm.nont pHead taken)
    (apart : List.Disjoint (batches.flatten ++ waiting) taken) :
    ∃ shm' chan' pHead' taken' batches',
      cifoReadLoop cell chan.wCellPos rounds shm chan pHead = some (shm', chan', pHead') ∧
        Holds shm'.nont cell chan' batches' waiting ∧
        Taken shm'.nont pHead' taken' ∧
        taken' ++ batches'.flatten = taken ++ batches.flatten := by
  induction rounds generalizing shm chan pHead taken batches with
  | zero => exact ⟨shm, chan, pHead, taken, batches, rfl, holds, joined, rfl⟩
  | succ rounds ih =>
      cases batches with
      | nil =>
          have empty := (holds_empty_iff holds).mpr rfl
          refine ⟨shm, chan, pHead, taken, [], ?_, holds, joined, rfl⟩
          simp only [cifoReadLoop, if_pos empty]
      | cons batch batches =>
          have busy : ¬chan.rCellPos = chan.wCellPos := by simp [holds_empty_iff holds]
          obtain ⟨first, inside, behind⟩ := holds_advance holds
          have outside : List.Disjoint (batches.flatten ++ waiting) batch := by
            have distinct := holds.distinct
            rw [List.flatten_cons, List.append_assoc] at distinct
            exact (List.nodup_append'.mp distinct).2.2.symm
          have outside' : List.Disjoint (batches.flatten ++ waiting) taken := by
            intro node member
            refine apart ?_
            rw [List.flatten_cons, List.append_assoc]
            exact List.mem_append_right _ member
          have batchApart : List.Disjoint taken batch := by
            intro node member member'
            refine apart ?_ member
            rw [List.flatten_cons, List.append_assoc]
            exact List.mem_append_left _ member'
          simp only [cifoReadLoop, if_neg busy, if_pos inside]
          rcases joined with ⟨rfl, rfl⟩ | joined
          · rw [if_pos rfl]
            obtain ⟨shm', chan', pHead', taken', batches', run, rest⟩ :=
              ih behind (Or.inr first) outside
            refine ⟨shm', chan', pHead', taken', batches', run, rest.1, rest.2.1, ?_⟩
            rw [rest.2.2, List.nil_append, List.flatten_cons]
          · rw [if_neg joined.some]
            have spliced := holds_splice behind joined first outside' outside
            have longer := batch_splice joined first batchApart
            have splicedShm : Holds (nifoSpliceNont shm (cell (chan.getCell chan.rCellPos)) pHead).nont
                cell { chan with rCellPos := chan.nextPos chan.rCellPos } batches waiting := spliced
            obtain ⟨shm', chan', pHead', taken', batches', run, rest⟩ :=
              ih splicedShm (Or.inr longer) (List.disjoint_append_right.mpr ⟨outside', outside⟩)
            refine ⟨shm', chan', pHead', taken', batches', run, rest.1, rest.2.1, ?_⟩
            rw [rest.2.2, List.flatten_cons, List.append_assoc]

theorem read_spec {shm : MemsInfo} {cifo : StCifo} {uiChID : Nat}
    (found : cifo.stCHAN[uiChID]? = some chan)
    (holds : Holds shm.nont cifo.cell chan batches waiting) :
    ∃ (pHead : Nat) (shm' : MemsInfo) (cifo' : StCifo) (chan' : Chan) (taken : List Nat)
        (batches' : List (List Nat)),
      cifoRead shm cifo uiChID = some ((pHead : Int), shm', cifo') ∧
        cifo'.stCHAN[uiChID]? = some chan' ∧
        Holds shm'.nont cifo'.cell chan' batches' waiting ∧
        Taken shm'.nont pHead taken ∧
        taken ++ batches'.flatten = batches.flatten := by
  obtain ⟨shm', chan', pHead', taken, batches', run, holds', joined, content⟩ :=
    read_loop_spec chan.uiRBuffCnt holds (Or.inl ⟨rfl, rfl⟩) (List.disjoint_nil_right _)
  have listed : uiChID < cifo.stCHAN.length := (List.getElem?_eq_some_iff.mp found).1
  refine ⟨pHead', shm', cifo.setChan uiChID chan', chan', taken, batches', ?_, ?_, holds', joined,
    content⟩
  · simp only [cifoRead, found, run, Option.map_some]
  · simp [StCifo.setChan, listed]

end Steps

section Runs

/-- Where the unread cells of a channel are, oldest first. -/
def Chan.unreadCells (chan : Chan) : List Nat :=
  (List.range ((chan.wCellPos + chan.uiCellCnt - chan.rCellPos) % chan.uiCellCnt)).map fun index =>
    chan.getCell ((chan.rCellPos + index) % chan.uiCellCnt)

noncomputable def unreadNodes (nont : Links Nat) (cell : Nat → Nat) (chan : Chan) : List Nat :=
  chan.unreadCells.flatMap fun place => nont.ringFrom (cell place)

noncomputable def waitingNodes (nont : Links Nat) (chan : Chan) : List Nat :=
  if chan.wOffset = 0 then [] else nont.ringFrom chan.wOffset

/-- The nodes of the unread cells, then those of the `wOffset` buffer. -/
noncomputable def contents (shm : MemsInfo) (cifo : StCifo) (uiChID : Nat) : List Nat :=
  match cifo.stCHAN[uiChID]? with
  | none => []
  | some chan => unreadNodes shm.nont cifo.cell chan ++ waitingNodes shm.nont chan

theorem holds_contents {shm : MemsInfo} {cifo : StCifo} {uiChID : Nat} {chan : Chan}
    {batches : List (List Nat)} {waiting : List Nat} (found : cifo.stCHAN[uiChID]? = some chan)
    (holds : Holds shm.nont cifo.cell chan batches waiting) :
    contents shm cifo uiChID = batches.flatten ++ waiting := by
  have unread : unreadNodes shm.nont cifo.cell chan = batches.flatten := by
    rw [unreadNodes, Chan.unreadCells, holds_used holds, List.flatMap_map, List.flatMap_def]
    congr 1
    apply List.ext_getElem
    · simp
    · intro index bound bound'
      have batch := holds.cells index _ (List.getElem?_eq_getElem bound')
      simpa using batch_ring_from batch
  have waits : waitingNodes shm.nont chan = waiting := by
    rcases holds.buffer with ⟨rfl, idle⟩ | full
    · simp [waitingNodes, idle]
    · rw [waitingNodes, if_neg full.some, batch_ring_from full]
  simp only [contents, found, unread, waits]

/-- The calls of the writer and the reader of a channel, and what they do to the `nont`
links of other nodes in between. -/
inductive Call where
  | write (offset : Nat)
  | read
  | setBuffcnt (uiBuffCnt : Nat) (uiRWFlag : Int)
  | relink (nont : Links Nat)

/-- A run with the nodes of its accepted writes and those its reads returned, in ring order. -/
structure Traffic where
  shm : MemsInfo
  cifo : StCifo
  accepted : List Nat
  returned : List Nat

noncomputable def Traffic.step (uiChID : Nat) (run : Traffic) : Call → Option Traffic
  | .write offset =>
      (cifoWrite run.shm run.cifo uiChID offset).map fun (ret, shm, cifo) =>
        { shm := shm
          cifo := cifo
          accepted :=
            if ret = 1 then run.accepted ++ run.shm.nont.ringFrom offset else run.accepted
          returned := run.returned }
  | .read =>
      (cifoRead run.shm run.cifo uiChID).map fun (ret, shm, cifo) =>
        { shm := shm
          cifo := cifo
          accepted := run.accepted
          returned :=
            if 0 < ret then run.returned ++ shm.nont.ringFrom ret.toNat else run.returned }
  | .setBuffcnt uiBuffCnt uiRWFlag =>
      (cifoSetBuffcnt run.cifo uiChID uiBuffCnt uiRWFlag).map fun (_, cifo) =>
        { run with cifo := cifo }
  | .relink nont => some { run with shm := { run.shm with nont := nont } }

/-- A written offset heads a ring of nodes that the channel does not hold, and the nodes
that it holds are not relinked by others. -/
def Traffic.Legal (uiChID : Nat) (run : Traffic) : Call → Prop
  | .write offset =>
      offset ≠ 0 ∧ ∃ rest, IsRing run.shm.nont (offset :: rest) ∧
        List.Disjoint (contents run.shm run.cifo uiChID) (offset :: rest)
  | .read => True
  | .setBuffcnt _ _ => True
  | .relink nont =>
      ∀ node ∈ contents run.shm run.cifo uiChID,
        nont.next node = run.shm.nont.next node ∧ nont.prev node = run.shm.nont.prev node

noncomputable def Traffic.steps (uiChID : Nat) : Traffic → List Call → Option Traffic
  | run, [] => some run
  | run, call :: calls => (run.step uiChID call).bind fun run => run.steps uiChID calls

def Traffic.LegalSteps (uiChID : Nat) : Traffic → List Call → Prop
  | _, [] => True
  | run, call :: calls =>
      run.Legal uiChID call ∧
        ∀ next, run.step uiChID call = some next → next.LegalSteps uiChID calls

/-- The channel is a queue that holds what was accepted and not yet returned. -/
def Traffic.Queued (uiChID : Nat) (run : Traffic) : Prop :=
  ∃ chan batches waiting, run.cifo.stCHAN[uiChID]? = some chan ∧
    Holds run.shm.nont run.cifo.cell chan batches waiting ∧
    run.accepted = run.returned ++ (batches.flatten ++ waiting)

theorem holds_relink {nont other : Links Nat} {cell : Nat → Nat} {chan : Chan}
    {batches : List (List Nat)} {waiting : List Nat}
    (holds : Holds nont cell chan batches waiting)
    (kept : ∀ node ∈ batches.flatten ++ waiting,
      other.next node = nont.next node ∧ other.prev node = nont.prev node) :
    Holds other cell chan batches waiting := by
  refine ⟨holds.layout, holds.readPos, holds.room, holds.writePos, ?_, ?_, holds.distinct⟩
  · intro index batch found
    have old := holds.cells index batch found
    refine ⟨old.some, old.first, ring_relink old.ring ?_⟩
    exact fun node member => kept node (List.mem_append_left _ (batch_mem_flatten found member))
  · rcases holds.buffer with idle | full
    · exact Or.inl idle
    · refine Or.inr ⟨full.some, full.first, ring_relink full.ring ?_⟩
      exact fun node member => kept node (List.mem_append_right _ member)

theorem set_buffcnt_spec {nont : Links Nat} {cifo : StCifo} {uiChID : Nat} {chan : Chan}
    {batches : List (List Nat)} {waiting : List Nat} (uiBuffCnt : Nat) (uiRWFlag : Int)
    (found : cifo.stCHAN[uiChID]? = some chan)
    (holds : Holds nont cifo.cell chan batches waiting) :
    ∃ ret cifo' chan', cifoSetBuffcnt cifo uiChID uiBuffCnt uiRWFlag = some (ret, cifo') ∧
      cifo'.stCHAN[uiChID]? = some chan' ∧ Holds nont cifo'.cell chan' batches waiting := by
  have listed : uiChID < cifo.stCHAN.length := (List.getElem?_eq_some_iff.mp found).1
  have layout : Layout chan := holds.layout
  unfold cifoSetBuffcnt
  split
  · exact ⟨-1, cifo, chan, rfl, found, holds⟩
  · rw [found]
    dsimp only
    split
    · refine ⟨1, _, { chan with uiRBuffCnt := uiBuffCnt }, rfl, by simp [StCifo.setChan, listed], ?_⟩
      exact ⟨⟨layout.populated, layout.wide, layout.inside⟩, holds.readPos, holds.room,
        holds.writePos, holds.cells, holds.buffer, holds.distinct⟩
    · split
      · refine ⟨1, _, { chan with uiWBuffCnt := uiBuffCnt }, rfl, by simp [StCifo.setChan, listed], ?_⟩
        exact ⟨⟨layout.populated, layout.wide, layout.inside⟩, holds.readPos, holds.room,
          holds.writePos, holds.cells, holds.buffer, holds.distinct⟩
      · exact ⟨0, cifo, chan, rfl, found, holds⟩

theorem queued_step {uiChID : Nat} {run : Traffic} (queued : run.Queued uiChID) (call : Call)
    (legal : run.Legal uiChID call) :
    ∃ next, run.step uiChID call = some next ∧ next.Queued uiChID := by
  obtain ⟨chan, batches, waiting, found, holds, balance⟩ := queued
  cases call with
  | write offset =>
      obtain ⟨nonzero, rest, ring, apart⟩ := legal
      rw [holds_contents found holds] at apart
      rcases write_spec found holds ⟨nonzero, rfl, ring⟩ apart with refused | accepted
      · refine ⟨run, ?_, chan, batches, waiting, found, holds, balance⟩
        simp [Traffic.step, refused]
      · obtain ⟨shm', cifo', chan', batches', waiting', wrote, found', holds', content⟩ := accepted
        refine ⟨⟨shm', cifo', run.accepted ++ (offset :: rest), run.returned⟩, ?_, chan', batches',
          waiting', found', holds', ?_⟩
        · simp [Traffic.step, wrote, ring_from ring]
        · show run.accepted ++ (offset :: rest) = run.returned ++ (batches'.flatten ++ waiting')
          rw [content, balance, List.append_assoc, List.append_assoc]
  | read =>
      obtain ⟨pHead, shm', cifo', chan', taken, batches', returned, found', holds', joined,
        content⟩ := read_spec found holds
      refine ⟨⟨shm', cifo', run.accepted, run.returned ++ taken⟩, ?_, chan', batches', waiting,
        found', holds', ?_⟩
      · rcases joined with ⟨rfl, rfl⟩ | joined
        · simp [Traffic.step, returned]
        · simp [Traffic.step, returned, batch_ring_from joined, joined.some]
      · show run.accepted = run.returned ++ taken ++ (batches'.flatten ++ waiting)
        rw [balance, ← content, List.append_assoc, List.append_assoc]
  | setBuffcnt uiBuffCnt uiRWFlag =>
      obtain ⟨ret, cifo', chan', set, found', holds'⟩ := 
        set_buffcnt_spec uiBuffCnt uiRWFlag found holds
      refine ⟨{ run with cifo := cifo' }, ?_, chan', batches, waiting, found', holds', balance⟩
      simp [Traffic.step, set]
  | relink nont =>
      refine ⟨_, rfl, chan, batches, waiting, found, holds_relink holds ?_, balance⟩
      rw [← holds_contents found holds]
      exact legal

theorem queued_steps {uiChID : Nat} {run : Traffic} (queued : run.Queued uiChID)
    (calls : List Call) (legal : run.LegalSteps uiChID calls) :
    ∃ final, run.steps uiChID calls = some final ∧ final.Queued uiChID := by
  induction calls generalizing run with
  | nil => exact ⟨run, rfl, queued⟩
  | cons call calls ih =>
      obtain ⟨next, stepped, queued'⟩ := queued_step queued call legal.1
      obtain ⟨final, ran, queued''⟩ := ih queued' (legal.2 next stepped)
      refine ⟨final, ?_, queued''⟩
      simp only [Traffic.steps, stepped, Option.bind_some, ran]

theorem cifo_chans_get (semget : Nat → Nat) {start index : Nat} {confs : List ChanConf}
    {chan : Chan} (found : (cifoChans semget start confs)[index]? = some chan) :
    chan.rCellPos = 0 ∧ chan.wCellPos = 0 ∧ chan.wOffset = 0 ∧
      chan.cellStartOffset + u32 (chan.uiCellSize * chan.uiCellCnt) ≤
        start + (confs.map fun conf => u32 (conf.uiCellSize * conf.uiCellCnt)).sum := by
  induction confs generalizing start index with
  | nil => simp [cifoChans] at found
  | cons conf rest ih =>
      cases index with
      | zero =>
          simp only [cifoChans, List.getElem?_cons_zero, Option.some.injEq] at found
          subst found
          refine ⟨rfl, rfl, rfl, ?_⟩
          show start + u32 (conf.uiCellSize * conf.uiCellCnt) ≤ _
          rw [List.map_cons, List.sum_cons, ← Nat.add_assoc]
          exact Nat.le_add_right _ _
      | succ index =>
          simp only [cifoChans, List.getElem?_cons_succ] at found
          have later := ih found
          refine ⟨later.1, later.2.1, later.2.2.1, ?_⟩
          rw [List.map_cons, List.sum_cons, ← Nat.add_assoc]
          exact later.2.2.2

/-- A new channel is an empty queue, if the size of its cells is not cut to `U32`. -/
theorem cifo_init_holds {semget : Nat → Nat} {conf : CifoConf} {cifo : StCifo}
    (init : cifoInit semget conf = some cifo) {uiChID : Nat} {chan : Chan}
    (found : cifo.stCHAN[uiChID]? = some chan) (populated : 0 < chan.uiCellCnt)
    (wide : OFFSET_SIZE ≤ chan.uiCellSize)
    (uncut : chan.uiCellCnt * chan.uiCellSize < 2 ^ 32) (nont : Links Nat) :
    Holds nont cifo.cell chan [] [] := by
  unfold cifoInit at init
  split at init
  · cases init
  · next fits =>
      cases init
      obtain ⟨readPos, writePos, idle, bound⟩ := cifo_chans_get semget found
      have exact_size : u32 (chan.uiCellSize * chan.uiCellCnt) =
          chan.uiCellCnt * chan.uiCellSize := by
        rw [Nat.mul_comm]
        exact Nat.mod_eq_of_lt uncut
      rw [exact_size] at bound
      refine ⟨⟨populated, wide, Nat.le_trans bound (Nat.le_of_not_lt fits)⟩, ?_, populated, ?_, ?_,
        Or.inl ⟨rfl, idle⟩, List.nodup_nil⟩
      · rw [readPos]
        exact populated
      · rw [readPos, writePos]
        rfl
      · intro index batch none
        cases none

theorem write_refused {shm shm' : MemsInfo} {cifo cifo' : StCifo} {uiChID offset : Nat} {ret : Int}
    (wrote : cifoWrite shm cifo uiChID offset = some (ret, shm', cifo'))
    (refused : ret = -2 ∨ ret = -1) : shm' = shm ∧ cifo' = cifo := by
  unfold cifoWrite at wrote
  split at wrote
  · cases wrote
    exact ⟨rfl, rfl⟩
  · dsimp only at wrote
    split at wrote
    · cases wrote
      exact ⟨rfl, rfl⟩
    · obtain ⟨flushed, -, same⟩ := Option.map_eq_some_iff.mp wrote
      cases same
      exact absurd refused (by decide)

/-- From `cifo_init` on, what the reads of a channel have returned is a prefix of what its
writes accepted, and the rest is in the channel; a refused write changes nothing. -/
theorem channel_fifo (semget : Nat → Nat) (conf : CifoConf) (cifo : StCifo)
    (init : cifoInit semget conf = some cifo) (uiChID : Nat) (chan : Chan)
    (found : cifo.stCHAN[uiChID]? = some chan) (populated : 2 ≤ chan.uiCellCnt)
    (wide : OFFSET_SIZE ≤ chan.uiCellSize)
    (uncut : chan.uiCellCnt * chan.uiCellSize < 2 ^ 32) (shm : MemsInfo) (calls : List Call)
    (legal : Traffic.LegalSteps uiChID ⟨shm, cifo, [], []⟩ calls) :
    ∃ final, Traffic.steps uiChID ⟨shm, cifo, [], []⟩ calls = some final ∧
      final.accepted = final.returned ++ contents final.shm final.cifo uiChID ∧
      ∀ otherID offset ret shm' cifo',
        cifoWrite final.shm final.cifo otherID offset = some (ret, shm', cifo') →
          ret = -2 ∨ ret = -1 → shm' = final.shm ∧ cifo' = final.cifo := by
  have start : Traffic.Queued uiChID ⟨shm, cifo, [], []⟩ :=
    ⟨chan, [], [], found, cifo_init_holds init found (by omega) wide uncut shm.nont, rfl⟩
  obtain ⟨final, ran, last, batches, waiting, found', holds, balance⟩ :=
    queued_steps start calls legal
  refine ⟨final, ran, ?_, fun _ _ _ _ _ wrote refused => write_refused wrote refused⟩
  rw [balance, holds_contents found' holds]

/-- One channel of `uiCellCnt` cells, a cell for each write. -/
def oneChanConf (uiCellCnt uiCellSize : Nat) : CifoConf where
  uiHeadRoomSize := 0
  stCHANCONF :=
    [{ uiChID := 0
       uiCellCnt := uiCellCnt
       uiCellSize := uiCellSize
       uiWBuffCnt := 1
       uiRBuffCnt := 1
       uiWSemFlag := 0
       uiWSemKey := 1
       uiRSemFlag := 0
       uiRSemKey := 2 }]

theorem loose_ring (node : Nat) : IsRing zeroSegment.nont [node] := by
  rw [ring_cons_iff]
  simp [zeroSegment, Links.Adj]

def pairOfCells : StCifo := (cifoInit id (oneChanConf 2 8)).get (by decide)

theorem channel_fifo_pair : ∃ final,
    Traffic.steps 0 ⟨zeroSegment, pairOfCells, [], []⟩ [.write 5000, .read] = some final ∧
      final.accepted = final.returned ++ contents final.shm final.cifo 0 ∧
      ∀ otherID offset ret shm' cifo',
        cifoWrite final.shm final.cifo otherID offset = some (ret, shm', cifo') →
          ret = -2 ∨ ret = -1 → shm' = final.shm ∧ cifo' = final.cifo := by
  refine channel_fifo id (oneChanConf 2 8) pairOfCells (Option.some_get _).symm 0 _ rfl (by decide)
    (by decide) (by decide) zeroSegment _ ?_
  refine ⟨⟨by decide, [], loose_ring 5000, ?_⟩, fun next stepped => ⟨trivial, fun _ _ => trivial⟩⟩
  have idle : contents zeroSegment pairOfCells 0 = [] := rfl
  rw [idle]
  exact List.disjoint_nil_left _

theorem idle_write_shm {shm shm' : MemsInfo} {cifo cifo' : StCifo} {uiChID offset : Nat} {ret : Int}
    {chan : Chan} (found : cifo.stCHAN[uiChID]? = some chan) (idle : chan.wOffset = 0)
    (wrote : cifoWrite shm cifo uiChID offset = some (ret, shm', cifo')) : shm' = shm := by
  have empty : ¬0 < chan.wOffset := by omega
  simp only [cifoWrite, found, cifoBuffer, if_neg empty] at wrote
  split at wrote
  · cases wrote
    rfl
  · obtain ⟨flushed, -, same⟩ := Option.map_eq_some_iff.mp wrote
    cases same
    rfl

/-- `4 * 2 ^ 30` is 0 on `U32`, so `cifo_init` accepts the channel. -/
def wrappedCells : StCifo := (cifoInit id (oneChanConf 4 (2 ^ 30))).get (by decide)

theorem wrapped_first_held {ret : Int} {shm : MemsInfo} {cifo : StCifo}
    (wrote : cifoWrite zeroSegment wrappedCells 0 5000 = some (ret, shm, cifo)) :
    shm = zeroSegment ∧ contents shm cifo 0 = [5000] := by
  obtain rfl := idle_write_shm (show wrappedCells.stCHAN[0]? = some _ from rfl) rfl wrote
  have cells : (cifoWrite zeroSegment wrappedCells 0 5000).map (fun result =>
      (result.2.2.stCHAN[0]?.map (fun chan => (chan.unreadCells, chan.wOffset)),
        result.2.2.cell 96040)) = some (some ([96040], 0), 5000) := by decide +kernel
  rw [wrote, Option.map_some, Option.some.injEq] at cells
  obtain ⟨listed, stored⟩ := Prod.mk.inj cells
  obtain ⟨chan, found, both⟩ := Option.map_eq_some_iff.mp listed
  obtain ⟨unread, idle⟩ := Prod.mk.inj both
  dsimp only at stored found
  have loose : zeroSegment.nont.ringFrom 5000 = [5000] := ring_from (loose_ring 5000)
  refine ⟨rfl, ?_⟩
  simp [contents, found, unreadNodes, waitingNodes, unread, idle, stored, loose]

/-- The second cell lies behind the end of the segment. -/
theorem wrapped_cells_fault : cifoInit id (oneChanConf 4 (2 ^ 30)) = some wrappedCells ∧
    Traffic.LegalSteps 0 ⟨zeroSegment, wrappedCells, [], []⟩ [.write 5000, .write 6000] ∧
    Traffic.steps 0 ⟨zeroSegment, wrappedCells, [], []⟩ [.write 5000, .write 6000] = none := by
  refine ⟨(Option.some_get _).symm, ⟨⟨by decide, [], loose_ring 5000, ?_⟩, ?_⟩, ?_⟩
  · have idle : contents zeroSegment wrappedCells 0 = [] := rfl
    rw [idle]
    exact List.disjoint_nil_left _
  · intro next stepped
    rw [Traffic.step] at stepped
    obtain ⟨⟨ret, shm, cifo⟩, wrote, same⟩ := Option.map_eq_some_iff.mp stepped
    cases same
    obtain ⟨rfl, held⟩ := wrapped_first_held wrote
    refine ⟨⟨by decide, [], loose_ring 6000, ?_⟩, fun _ _ => trivial⟩
    rw [held]
    simp
  · apply Option.isNone_iff_eq_none.mp
    decide +kernel

end Runs

end Upst.Cifo
