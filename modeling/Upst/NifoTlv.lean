import Upst.NifoRead

/-!
A sequence of TLV writes to a fresh head node, read back by the caller's loop. The
framing survives every cut: types, lengths and order are always as written. The
values survive only where nothing past the first piece of a cut value differs from
the bytes its later pieces restart from.
-/

namespace Upst.Nifo

open CList Mems Bytes

set_option autoImplicit false

/-- One call of `nifo_copy_tlv_cont`, its length the number of value bytes. -/
structure Tlv where
  type : Nat
  value : List UInt8
  typeWord : type < 2 ^ 32
  lenWord : value.length < 2 ^ 32

/-- Writes that all return 0. -/
def copyTlvs (shm : MemsInfo) (procID head : Nat) : List Tlv → Option MemsInfo
  | [] => some shm
  | tlv :: rest => do
      let (shm, code) ← nifoCopyTlvCont shm procID tlv.type tlv.value.length tlv.value head
      if code = 0 then copyTlvs shm procID head rest else none

section Writes

variable {shm : MemsInfo} {zoneID procID : Nat} {zone : MemsZone}

/-- Types and value bytes as they stand in the stream after `written` bytes. -/
def storedTlvs (zone : MemsZone) : Nat → List Tlv → List (Nat × List UInt8)
  | _, [] => []
  | written, tlv :: rest =>
      (tlv.type, cyclicCopy (capacity zone) (roomAfter (capacity zone) (written + TLV_SIZE))
        tlv.value.length tlv.value) ::
      storedTlvs zone (written + TLV_SIZE + tlv.value.length) rest

/-- Where a value is cut, the bytes past its first piece repeat the bytes from its
start on, once per node. -/
def ValuesRepeat (zone : MemsZone) : Nat → List Tlv → Prop
  | _, [] => True
  | written, tlv :: rest =>
      (∀ index, roomAfter (capacity zone) (written + TLV_SIZE) ≤ index →
        index < tlv.value.length →
        tlv.value.getD index 0 = tlv.value.getD
          ((index - roomAfter (capacity zone) (written + TLV_SIZE)) % capacity zone) 0) ∧
      ValuesRepeat zone (written + TLV_SIZE + tlv.value.length) rest

theorem stored_tlvs_frames (zone : MemsZone) (written : Nat) (tlvs : List Tlv) :
    (storedTlvs zone written tlvs).map (fun item => (item.1, item.2.length)) =
      tlvs.map fun tlv => (tlv.type, tlv.value.length) := by
  induction tlvs generalizing written with
  | nil => rfl
  | cons tlv rest ih => simp [storedTlvs, ih]

theorem stored_tlvs_values_iff (zone : MemsZone) (written : Nat) (tlvs : List Tlv) :
    (storedTlvs zone written tlvs).map Prod.snd = tlvs.map Tlv.value ↔
      ValuesRepeat zone written tlvs := by
  induction tlvs generalizing written with
  | nil => simp [storedTlvs, ValuesRepeat]
  | cons tlv rest ih =>
      simp only [storedTlvs, List.map_cons, List.cons.injEq, ValuesRepeat, ih, cyclic_copy_eq_iff]

theorem stored_tlvs_forall {zone : MemsZone} {tlvs : List Tlv} (holds : Nat → Nat → Prop)
    (each : ∀ tlv ∈ tlvs, holds tlv.type tlv.value.length) {written : Nat} :
    ∀ item ∈ storedTlvs zone written tlvs, holds item.1 item.2.length := by
  induction tlvs generalizing written with
  | nil => simp [storedTlvs]
  | cons tlv rest ih =>
      intro item member
      rcases List.mem_cons.mp member with rfl | member
      · simpa using each tlv (by simp)
      · exact ih (fun other inside => each other (by simp [inside])) item member

theorem copy_tlvs_spec {head : Nat} (wide : NIFO_SIZE + TLV_SIZE ≤ zone.uiMemNodeBodySize)
    (tlvs : List Tlv) : ∀ {shm shm' : MemsInfo} {rest : List Nat},
      Chain shm zoneID zone (head :: rest) → shm.uiMatrixZoneID procID = zoneID →
      copyTlvs shm procID head tlvs = some shm' →
      ∃ rest', Chain shm' zoneID zone (head :: rest') ∧
        stream shm' (head :: rest') = stream shm (head :: rest) ++
          (storedTlvs zone (stream shm (head :: rest)).length tlvs).flatMap framed ∧
        (tlvs ≠ [] ∨ Tight shm zone (head :: rest) → Tight shm' zone (head :: rest')) ∧
        ∀ tlv ∈ tlvs, tlv.value.length < 2 ^ 31 := by
  induction tlvs with
  | nil =>
      intro shm shm' rest chain _ written
      obtain rfl := Option.some.inj written
      exact ⟨rest, chain, by simp [storedTlvs], by simp, by simp⟩
  | cons tlv tlvs ih =>
      intro shm shm' rest chain mapped written
      simp only [copyTlvs, Option.bind_eq_bind] at written
      obtain ⟨⟨shm₁, code⟩, result, written⟩ := Option.bind_eq_some_iff.mp written
      dsimp only at written
      split at written
      · rename_i ok
        subst ok
        have small := copy_tlv_cont_small chain mapped wide tlv.lenWord result
        obtain ⟨_, _, result', _, success⟩ :=
          copy_tlv_cont_spec chain mapped wide tlv.type rfl small
        obtain ⟨rfl, rfl⟩ := Prod.mk.inj (Option.some.inj (result.symm.trans result'))
        obtain ⟨nodes', grown, tight⟩ := success rfl
        obtain ⟨more, nodesEq⟩ := grown.extends'
        rw [List.cons_append] at nodesEq
        subst nodesEq
        obtain ⟨rest', chain', content, tight', smalls⟩ :=
          ih grown.chain (by rw [grown.matrix, mapped]) written
        refine ⟨rest', chain', ?_, fun _ => tight' (Or.inr tight), ?_⟩
        · rw [content, grown.content, List.append_assoc]
          congr 1
          have length : (storedTlv zone (stream shm (head :: rest)).length tlv.type
              tlv.value.length tlv.value).length = TLV_SIZE + tlv.value.length := by
            simp [storedTlv, tlv_bytes_length]
          rw [List.length_append, length, ← Nat.add_assoc, storedTlvs, List.flatMap_cons, framed]
          simp [storedTlv]
        · intro other member
          rcases List.mem_cons.mp member with rfl | member
          · exact small
          · exact smalls other member
      · simp at written

/-- A node just allocated is a chain with nothing in its stream. -/
theorem alloc_fresh_chain {allocProc head : Nat} (wf : PoolWf shm)
    (mapped : shm.uiMatrixZoneID allocProc = zoneID)
    (found : shm.stMEMSZONE[zoneID]? = some zone)
    (wide : NIFO_SIZE + TLV_SIZE ≤ zone.uiMemNodeBodySize)
    (allocated : (nifoNodeAlloc shm allocProc).1 = some head) :
    Chain (nifoNodeAlloc shm allocProc).2 zoneID zone [head] ∧
      stream (nifoNodeAlloc shm allocProc).2 [head] = [] ∧
      (nifoNodeAlloc shm allocProc).2.uiMatrixZoneID = shm.uiMatrixZoneID := by
  obtain ⟨shm', result⟩ : ∃ shm', nifoNodeAlloc shm allocProc = (some head, shm') :=
    ⟨_, Prod.ext allocated rfl⟩
  have step := nifo_node_alloc_spec wf mapped found result
  rw [result]
  dsimp only
  have fresh : shm'.nifo head =
      { nodeFrom := 0, nodeTo := 0, cnt := 0, lastoffset := NIFO_SIZE,
        maxoffset := zone.uiMemNodeBodySize } := by
    rw [step.nifo, Function.update_self]
  refine ⟨⟨step.pool, by rw [step.zones, found], ?_, ?_, ?_, ?_, ?_, ?_, by simp⟩, ?_, step.matrix⟩
  · rw [step.cont]
    exact ring_init _ _
  · simpa using node_in_zones step.zones step.place
  · simpa using step.inUse
  · simp [fresh]
  · simp [fresh]
  · simp only [List.mem_singleton, forall_eq, fresh]
    omega
  · simp [stream, nodeData, fresh, readBytes]

end Writes

section Samples

/-- Four nodes of 72 bytes, the smallest body that holds a TLV header. -/
def smallConf : MemsConf where
  uiHeadRoomSize := 0
  stMEMSZONECONF := [⟨0, 72, 4⟩]
  uiMatrixZoneID := fun _ => 0

def smallPool : MemsInfo := (memsInit smallConf zeroSegment).get (by decide)

theorem small_pool_wf : PoolWf smallPool := by
  apply mems_init_wf smallConf zeroSegment _ (Option.some_get _).symm
  refine ⟨?_, by decide⟩
  intro index zone found
  cases index with
  | zero => simpa [smallConf] using (congrArg (Option.map MemsZoneConf.uiZoneID) found).symm
  | succ index => simp [smallConf] at found

/-- Nine different bytes: the header fills the head node and the value takes two more. -/
def nineBytes : Tlv where
  type := 7
  value := [10, 11, 12, 13, 14, 15, 16, 17, 18]
  typeWord := by decide
  lenWord := by decide

def nineWritten : MemsInfo :=
  (copyTlvs (nifoNodeAlloc smallPool 0).2 0 4796 [nineBytes]).get (by decide +kernel)

theorem nine_bytes_written : (nifoNodeAlloc smallPool 0).1 = some 4796 ∧
    copyTlvs (nifoNodeAlloc smallPool 0).2 0 4796 [nineBytes] = some nineWritten :=
  ⟨by decide +kernel, (Option.some_get _).symm⟩

end Samples

section RoundTrip

variable {shm shm' : MemsInfo} {zoneID procID allocProc head : Nat} {zone : MemsZone}
  {malloc : Nat → Bool}

/-- As many turns of the caller's loop as TLVs were written return their values. -/
def ReadsBack (shm : MemsInfo) (malloc : Nat → Bool) (head : Nat) (tlvs : List Tlv) : Prop :=
  (readTlvs shm malloc head tlvs.length (some head)).map
    (fun result => result.1.map (TlvRead.bytes shm)) = some (tlvs.map Tlv.value)

instance (shm : MemsInfo) (malloc : Nat → Bool) (head : Nat) (tlvs : List Tlv) :
    Decidable (ReadsBack shm malloc head tlvs) :=
  inferInstanceAs (Decidable (_ = _))

/-- What the loop returns after at least one write, whatever the alignments. -/
theorem read_written_tlvs (wf : PoolWf shm) (found : shm.stMEMSZONE[zoneID]? = some zone)
    (wide : NIFO_SIZE + TLV_SIZE ≤ zone.uiMemNodeBodySize)
    (mappedHead : shm.uiMatrixZoneID allocProc = zoneID)
    (mapped : shm.uiMatrixZoneID procID = zoneID)
    (allocated : (nifoNodeAlloc shm allocProc).1 = some head) {tlvs : List Tlv}
    (nonempty : tlvs ≠ [])
    (written : copyTlvs (nifoNodeAlloc shm allocProc).2 procID head tlvs = some shm')
    (memory : ∀ tlv ∈ tlvs, malloc (tlv.value.length + 1) = true) {turns : Nat}
    (enough : tlvs.length ≤ turns) :
    ∃ rest reads, IsRing shm'.cont (head :: rest) ∧
      readTlvs shm' malloc head turns (some head) = some (reads, none) ∧
      reads.map (fun read => (read.type, read.len, read.bytes shm')) =
        (storedTlvs zone 0 tlvs).map (fun item => (item.1, item.2.length, item.2)) ∧
      (∀ read ∈ reads, ∀ access ∈ read.accesses, Within shm' (head :: rest) access) ∧
      ∀ index read, reads[index]? = some read →
        (read.nexttlv = none ↔ index + 1 = reads.length) := by
  obtain ⟨chain, empty, matrix⟩ := alloc_fresh_chain wf mappedHead found wide allocated
  obtain ⟨rest, chain', content, tight, smalls⟩ :=
    copy_tlvs_spec wide tlvs chain (by rw [matrix, mapped]) written
  rw [empty, List.nil_append, List.length_nil] at content
  have frames := stored_tlvs_frames zone 0 tlvs
  have count : (storedTlvs zone 0 tlvs).length = tlvs.length := by
    simpa using congrArg List.length frames
  have follows : Follows shm' zone (head :: rest) 0 (some head) := by
    have positive : 0 < (stream shm' (head :: rest)).length := by
      have holds := tight (Or.inl nonempty)
      simp only [Tight, List.length_cons, Nat.add_mul, Nat.one_mul] at holds
      omega
    rw [Follows, if_neg (by omega)]
    exact ⟨head, rfl, points_head (by simp only [NIFO_SIZE, TLV_SIZE] at wide ⊢; omega)⟩
  obtain ⟨reads, result, same, seen, null⟩ := read_tlvs_spec malloc chain'
    (tight (Or.inl nonempty)) wide (storedTlvs zone 0 tlvs)
    (stored_tlvs_forall (fun type _ => type < 2 ^ 32) fun tlv _ => tlv.typeWord)
    (stored_tlvs_forall (fun _ len => len < 2 ^ 31) smalls)
    (stored_tlvs_forall (fun _ len => malloc (len + 1) = true) memory)
    (Nat.zero_le _) (by simpa using content) follows
    (show (storedTlvs zone 0 tlvs).length ≤ turns by rw [count]; exact enough)
  exact ⟨rest, reads, chain'.ring, result, same, seen, null⟩

theorem reads_back_iff (wf : PoolWf shm) (found : shm.stMEMSZONE[zoneID]? = some zone)
    (wide : NIFO_SIZE + TLV_SIZE ≤ zone.uiMemNodeBodySize)
    (mappedHead : shm.uiMatrixZoneID allocProc = zoneID)
    (mapped : shm.uiMatrixZoneID procID = zoneID)
    (allocated : (nifoNodeAlloc shm allocProc).1 = some head) (tlvs : List Tlv)
    (written : copyTlvs (nifoNodeAlloc shm allocProc).2 procID head tlvs = some shm')
    (memory : ∀ tlv ∈ tlvs, malloc (tlv.value.length + 1) = true) :
    ReadsBack shm' malloc head tlvs ↔ ValuesRepeat zone 0 tlvs := by
  rcases List.eq_nil_or_concat tlvs with rfl | ⟨front, last, split⟩
  · simp [ReadsBack, readTlvs, ValuesRepeat]
  · have nonempty : tlvs ≠ [] := by simp [split]
    obtain ⟨_, reads, -, result, same, -, -⟩ := read_written_tlvs wf found wide mappedHead mapped
      allocated nonempty written memory (Nat.le_refl _)
    have bytes : reads.map (TlvRead.bytes shm') = (storedTlvs zone 0 tlvs).map Prod.snd := by
      have third := congrArg (List.map fun triple => triple.2.2) same
      simpa [Function.comp_def] using third
    simp only [ReadsBack, result, Option.map_some, Option.some.injEq, bytes,
      stored_tlvs_values_iff]

theorem reads_back_nine_bytes : ReadsBack nineWritten (fun _ => true) 4796 [nineBytes] ↔
    ValuesRepeat ⟨0, 72, 4, 4760, 5192⟩ 0 [nineBytes] :=
  reads_back_iff small_pool_wf (by decide) (by decide) rfl rfl nine_bytes_written.1 [nineBytes]
    nine_bytes_written.2 (by decide)

/-- The ninth byte of the value comes back as the first. -/
theorem nine_bytes_not_read_back : (nifoNodeAlloc smallPool 0).1 = some 4796 ∧
    copyTlvs (nifoNodeAlloc smallPool 0).2 0 4796 [nineBytes] = some nineWritten ∧
    ¬ReadsBack nineWritten (fun _ => true) 4796 [nineBytes] :=
  ⟨nine_bytes_written.1, nine_bytes_written.2, by decide +kernel⟩

end RoundTrip

end Upst.Nifo
