import Upst.NifoTlv
import Upst.MemsRun

/-!
What a call of `nifo_copy_tlv_cont` that runs out of nodes leaves behind. It has stored what it
could before it asked for a node, and linked the nodes that it was given.
-/

namespace Upst.Nifo

open CList Mems Bytes

set_option autoImplicit false

section Atomic

/-- The TLVs that the caller's loop returns, and where it stands after them. -/
def readBack (shm : MemsInfo) (malloc : Nat → Bool) (head turns : Nat) :
    Option (List (Nat × Nat × List UInt8) × Option Nat) :=
  (readTlvs shm malloc head turns (some head)).map fun result =>
    (result.1.map fun read => (read.type, read.len, read.bytes shm), result.2)

/-- The chain is read back as before, and its nodes have the `lastoffset` they had. -/
structure Atomic (shm shm' : MemsInfo) (head : Nat) : Prop where
  readBack : ∀ malloc turns, readBack shm' malloc head turns = readBack shm malloc head turns
  lastoffsets : (shm'.cont.ringFrom head).map (fun node => (shm'.nifo node).lastoffset) =
    (shm.cont.ringFrom head).map fun node => (shm.nifo node).lastoffset

end Atomic

section Runs

variable {shm shm' shm'' : MemsInfo} {procID writerID : Nat} {writerZone : MemsZone}
  {front nodes nodes' nodes'' : List Nat} {node : Nat}

/-- A ring of nodes in use, in a pool. -/
structure Ringed (shm : MemsInfo) (nodes : List Nat) : Prop where
  pool : PoolWf shm
  ring : IsRing shm.cont nodes
  inUse : ∀ node ∈ nodes, InUse shm node

/-- What the steps of a writer do: nodes are added behind the ring, and no node in use is given
back or cut. -/
structure Runs (shm : MemsInfo) (nodes : List Nat) (shm' : MemsInfo) (nodes' : List Nat) :
    Prop where
  ringed : Ringed shm' nodes'
  extends' : nodes <+: nodes'
  zones : shm'.stMEMSZONE = shm.stMEMSZONE
  matrix : shm'.uiMatrixZoneID = shm.uiMatrixZoneID
  grows : ∀ node, InUse shm node →
    InUse shm' node ∧ (shm.nifo node).lastoffset ≤ (shm'.nifo node).lastoffset

theorem runs_refl (ringed : Ringed shm nodes) : Runs shm nodes shm nodes :=
  ⟨ringed, List.prefix_rfl, rfl, rfl, fun _ used => ⟨used, Nat.le_refl _⟩⟩

theorem Runs.trans (first : Runs shm nodes shm' nodes') (second : Runs shm' nodes' shm'' nodes'') :
    Runs shm nodes shm'' nodes'' := by
  refine ⟨second.ringed, first.extends'.trans second.extends', second.zones.trans first.zones,
    second.matrix.trans first.matrix, ?_⟩
  intro node used
  obtain ⟨used', grown⟩ := first.grows node used
  obtain ⟨used'', grown'⟩ := second.grows node used'
  exact ⟨used'', Nat.le_trans grown grown'⟩

theorem append_some {src : List UInt8} {size : Int}
    (appended : nifoAppend shm node src size = some shm') :
    shm' = { shm with
      byteAt := writeBytes shm.byteAt (node + (shm.nifo node).lastoffset) (src.take size.toNat)
      nifo := Function.update shm.nifo node
        { shm.nifo node with lastoffset := (shm.nifo node).lastoffset + size.toNat } } := by
  unfold nifoAppend at appended
  dsimp only at appended
  split at appended
  · exact (Option.some.inj appended).symm
  · cases appended

theorem append_runs (ringed : Ringed shm nodes) {src : List UInt8} {size : Int}
    (appended : nifoAppend shm node src size = some shm') : Runs shm nodes shm' nodes := by
  obtain rfl := append_some appended
  refine ⟨⟨pool_wf_congr ringed.pool rfl rfl rfl, ringed.ring, ringed.inUse⟩, List.prefix_rfl, rfl,
    rfl, ?_⟩
  intro other used
  refine ⟨used, ?_⟩
  by_cases same : other = node
  · subst same
    simp
  · simp [same]

theorem mems_alloc_none {uiSize zoneID : Nat} (refused : memsAlloc shm uiSize zoneID = (none, shm')) :
    ∃ freeList, shm' = { shm with offsetFreeList := freeList } := by
  unfold memsAlloc at refused
  split at refused
  · cases refused
    exact ⟨shm.offsetFreeList, rfl⟩
  · split at refused
    · cases refused
      exact ⟨shm.offsetFreeList, rfl⟩
    · split at refused
      · cases refused
        exact ⟨_, rfl⟩
      · cases refused

/-- A refused allocation moves the place where the next one looks first, and nothing else. -/
theorem alloc_none (wf : PoolWf shm) (refused : nifoNodeAlloc shm procID = (none, shm')) :
    PoolWf shm' ∧ ∃ freeList, shm' = { shm with offsetFreeList := freeList } := by
  have same : PoolWf shm ∧ ∃ freeList, shm = { shm with offsetFreeList := freeList } :=
    ⟨wf, shm.offsetFreeList, rfl⟩
  unfold nifoNodeAlloc at refused
  dsimp only at refused
  split at refused
  · split at refused
    · cases refused
      exact same
    · next zone found =>
      have step := mems_alloc_spec wf zone.uiMemNodeBodySize (shm.uiMatrixZoneID procID)
      split at refused
      next allocated =>
        cases refused
        rw [allocated] at step
        exact ⟨step.wf, mems_alloc_none allocated⟩
      next => cases refused
  · cases refused
    exact same

/-- The pool of the writer refuses exactly when none of its nodes is free. -/
theorem node_alloc_none_iff (wf : PoolWf shm) (mapped : shm.uiMatrixZoneID procID = writerID)
    (valid : writerID ≠ INVALID_ID) (found : shm.stMEMSZONE[writerID]? = some writerZone) :
    (nifoNodeAlloc shm procID).1 = none ↔ ∀ node, NodeIn shm writerID node → InUse shm node := by
  have same : (nifoNodeAlloc shm procID).1 =
      (memsAlloc shm writerZone.uiMemNodeBodySize writerID).1 := by
    simp only [nifoNodeAlloc, mapped, found]
    rw [if_pos valid]
    cases memsAlloc shm writerZone.uiMemNodeBodySize writerID with
    | mk result after => cases result <;> rfl
  rw [same, mems_alloc_none_iff wf found]
  exact or_iff_right (Nat.lt_irrefl _)

theorem alloc_some_runs (ringed : Ringed shm (front ++ [node]))
    (mapped : shm.uiMatrixZoneID procID = writerID)
    (found : shm.stMEMSZONE[writerID]? = some writerZone) {sub : Nat}
    (allocated : nifoNodeAlloc shm procID = (some sub, shm')) :
    Runs shm (front ++ [node]) (nifoNodeLinkContNext shm' node sub) (front ++ [node] ++ [sub]) := by
  have step := nifo_node_alloc_spec ringed.pool mapped found allocated
  have fresh : sub ∉ front ++ [node] := fun member => step.wasFree (ringed.inUse sub member)
  have keeps : ∀ other, InUse shm other → InUse shm' other := by
    intro other used
    have apart : other - stMEMSNODEHDR_SIZE ≠ sub - stMEMSNODEHDR_SIZE := by
      intro same
      apply step.wasFree
      rw [InUse, ← same]
      exact used
    rw [InUse, step.others _ apart]
    exact used
  have linked : IsRing (nifoNodeLinkContNext shm' node sub).cont (front ++ [node] ++ [sub]) := by
    refine link_ring ?_ fresh
    rw [step.cont]
    exact ring_init_frame ringed.ring fresh
  refine ⟨⟨pool_wf_congr step.pool rfl rfl rfl, linked, ?_⟩, List.prefix_append _ _, step.zones,
    step.matrix, ?_⟩
  · intro other member
    rcases List.mem_append.mp member with old | new
    · exact keeps other (ringed.inUse other old)
    · rw [List.mem_singleton.mp new]
      exact step.inUse
  · intro other used
    have different : other ≠ sub := fun same => step.wasFree (same ▸ used)
    refine ⟨keeps other used, ?_⟩
    show _ ≤ (shm'.nifo other).lastoffset
    rw [step.nifo, Function.update_of_ne different]

theorem alloc_none_runs (ringed : Ringed shm nodes)
    (refused : nifoNodeAlloc shm procID = (none, shm')) : Runs shm nodes shm' nodes := by
  obtain ⟨pool, freeList, rfl⟩ := alloc_none ringed.pool refused
  exact ⟨⟨pool, ringed.ring, ringed.inUse⟩, List.prefix_rfl, rfl, rfl,
    fun _ used => ⟨used, Nat.le_refl _⟩⟩

theorem loop_runs {len : Nat} {value : List UInt8} (fuel : Nat) :
    ∀ {shm : MemsInfo} {front : List Nat} {pNode oldLen : Nat} {code : Int},
      Ringed shm (front ++ [pNode]) → shm.uiMatrixZoneID procID = writerID →
      shm.stMEMSZONE[writerID]? = some writerZone →
      copyTlvLoop procID len value fuel shm pNode oldLen = some (shm', code) →
      ∃ nodes', Runs shm (front ++ [pNode]) shm' nodes' := by
  induction fuel with
  | zero => exact nofun
  | succ fuel ih =>
      intro shm front pNode oldLen code ringed mapped found ran
      rw [copyTlvLoop] at ran
      split at ran
      · dsimp only at ran
        split at ran
        · cases ran
        · obtain ⟨shm₁, appended, ran⟩ := Option.bind_eq_some_iff.mp ran
          have first := append_runs ringed appended
          split at ran
          · split at ran
            next shm₂ refused =>
              cases ran
              exact ⟨_, first.trans (alloc_none_runs first.ringed refused)⟩
            next sub shm₂ allocated =>
              have second := alloc_some_runs first.ringed (by rw [first.matrix, mapped])
                (by rw [first.zones, found]) allocated
              obtain ⟨nodes', rest⟩ := ih second.ringed
                (by rw [second.matrix, first.matrix, mapped])
                (by rw [second.zones, first.zones, found]) ran
              exact ⟨nodes', first.trans (second.trans rest)⟩
          · obtain ⟨nodes', rest⟩ := ih first.ringed (by rw [first.matrix, mapped])
              (by rw [first.zones, found]) ran
            exact ⟨nodes', first.trans rest⟩
      · cases ran
        exact ⟨_, runs_refl ringed⟩

end Runs

section Failure

variable {shm shm' : MemsInfo} {zoneID procID writerID : Nat} {zone writerZone : MemsZone}
  {front nodes : List Nat} {node : Nat} {type len : Nat} {value : List UInt8} {code : Int}

theorem value_runs (ringed : Ringed shm (front ++ [node]))
    (mapped : shm.uiMatrixZoneID procID = writerID)
    (found : shm.stMEMSZONE[writerID]? = some writerZone)
    (ran : copyTlvValue shm procID len value node = some (shm', code)) :
    ∃ nodes', Runs shm (front ++ [node]) shm' nodes' := by
  unfold copyTlvValue at ran
  dsimp only at ran
  split at ran
  · exact loop_runs (len + 2) ringed mapped found ran
  · obtain ⟨shm₁, appended, ran⟩ := Option.bind_eq_some_iff.mp ran
    cases ran
    exact ⟨_, append_runs ringed appended⟩

/-- How a call fails: it stops before it has done anything, at a full node; or it has stored bytes
in the last node; or it has linked a node that was free. -/
inductive Failed (shm : MemsInfo) (procID writerID : Nat) (front : List Nat) (node : Nat)
    (shm' : MemsInfo) : Prop where
  | stopped (full : (shm.nifo node).lastoffset = (shm.nifo node).maxoffset)
      (refused : nifoNodeAlloc shm procID = (none, shm'))
  | stored (room : (shm.nifo node).lastoffset < (shm.nifo node).maxoffset) (nodes' : List Nat)
      (runs : Runs shm (front ++ [node]) shm' nodes')
      (longer : (shm.nifo node).lastoffset < (shm'.nifo node).lastoffset)
  | linked (sub : Nat) (place : NodeIn shm writerID sub) (wasFree : ¬InUse shm sub)
      (nodes' : List Nat) (runs : Runs shm (front ++ [node]) shm' nodes')
      (more : front ++ [node] ++ [sub] <+: nodes')

theorem append_nothing {src : List UInt8} (appended : nifoAppend shm node src 0 = some shm') :
    shm' = shm := by
  obtain rfl := append_some appended
  have nothing : ∀ ptr, writeBytes shm.byteAt ptr [] = shm.byteAt := by
    intro ptr
    funext place
    apply if_neg
    rw [List.length_nil]
    omega
  rw [Int.toNat_zero, List.take_zero, nothing]
  simp

theorem append_longer {src : List UInt8} {size : Nat}
    (appended : nifoAppend shm node src size = some shm') :
    (shm'.nifo node).lastoffset = (shm.nifo node).lastoffset + size := by
  obtain rfl := append_some appended
  simp

theorem failed_copy_cases {head : Nat} {rest : List Nat}
    (chain : Chain shm zoneID zone (head :: rest)) (split : head :: rest = front ++ [node])
    (mapped : shm.uiMatrixZoneID procID = writerID)
    (found : shm.stMEMSZONE[writerID]? = some writerZone)
    (failed : nifoCopyTlvCont shm procID type len value head = some (shm', code))
    (negative : code ≠ 0) : Failed shm procID writerID front node shm' := by
  have last : shm.cont.prev head = node := by
    rw [ring_prev_head chain.ring]
    simp [split]
  rw [split] at chain
  have ringed : Ringed shm (front ++ [node]) := ⟨chain.pool, chain.ring, chain.inUse⟩
  have member : node ∈ front ++ [node] := by simp
  have used := chain.inUse node member
  have upper := chain.bounded node member
  have maxoffset := chain.maxoffset node member
  have body := zone_body_small (chain.pool.zone zoneID zone chain.found)
  simp only [MEMS_SHM_SIZE] at body
  obtain ⟨left, leftEq⟩ := Nat.exists_eq_add_of_le upper
  have copySize : s32 (((shm.nifo node).maxoffset : Int) - (shm.nifo node).lastoffset) = left := by
    rw [maxoffset, s32_small (by omega) (by omega)]
    omega
  unfold nifoCopyTlvCont at failed
  dsimp only at failed
  rw [last, copySize] at failed
  split at failed
  · split at failed
    next cut =>
      obtain ⟨shm₁, appended, failed⟩ := Option.bind_eq_some_iff.mp failed
      have first := append_runs ringed appended
      split at failed
      next shm₂ refused =>
        cases failed
        rcases Nat.eq_zero_or_pos left with rfl | positive
        · obtain rfl := append_nothing appended
          exact .stopped (by omega) refused
        · have second := alloc_none_runs first.ringed refused
          have longer := append_longer appended
          have kept := (second.grows node (first.grows node used).1).2
          exact .stored (by omega) _ (first.trans second) (by omega)
      next sub shm₂ allocated =>
        have second := alloc_some_runs first.ringed (by rw [first.matrix, mapped])
          (by rw [first.zones, found]) allocated
        have step := nifo_node_alloc_spec first.ringed.pool (by rw [first.matrix, mapped])
          (by rw [first.zones, found]) allocated
        obtain ⟨shm₃, appended', failed⟩ := Option.bind_eq_some_iff.mp failed
        have third := append_runs second.ringed appended'
        obtain ⟨nodes', rest⟩ := value_runs third.ringed
          (by rw [third.matrix, second.matrix, first.matrix, mapped])
          (by rw [third.zones, second.zones, first.zones, found]) failed
        have free : NodeIn shm writerID sub ∧ ¬InUse shm sub := by
          obtain rfl := append_some appended
          exact ⟨step.place, step.wasFree⟩
        exact .linked sub free.1 free.2 nodes'
          (first.trans (second.trans (third.trans rest))) rest.extends'
    next fits =>
      obtain ⟨shm₁, appended, failed⟩ := Option.bind_eq_some_iff.mp failed
      have first := append_runs ringed appended
      have longer := append_longer appended
      obtain ⟨nodes', rest⟩ := value_runs first.ringed (by rw [first.matrix, mapped])
        (by rw [first.zones, found]) failed
      have kept := (rest.grows node (first.grows node used).1).2
      simp only [TLV_SIZE] at longer fits
      exact .stored (by omega) nodes' (first.trans rest) (by omega)
  · obtain ⟨shm₁, -, failed⟩ := Option.bind_eq_some_iff.mp failed
    obtain ⟨shm₂, -, failed⟩ := Option.bind_eq_some_iff.mp failed
    cases failed
    exact absurd rfl negative

end Failure

section Reading

variable (shm : MemsInfo) (freeList : Nat → Nat)

/-- The reader does not look at where the allocator is. -/
theorem join_loop_free_list (body dLen fuel : Nat) : ∀ cursor,
    joinLoop { shm with offsetFreeList := freeList } body dLen fuel cursor =
      joinLoop shm body dLen fuel cursor := by
  induction fuel with
  | zero => exact fun _ => rfl
  | succ fuel ih =>
      intro cursor
      have copy : ∀ size, cursor.copy { shm with offsetFreeList := freeList } size =
          cursor.copy shm size := fun _ => rfl
      simp only [joinLoop, ih, copy]

theorem read_tlv_free_list (malloc : Nat → Bool) (pHEAD nexttlv : Nat) :
    nifoReadTlvCont { shm with offsetFreeList := freeList } malloc pHEAD nexttlv =
      nifoReadTlvCont shm malloc pHEAD nexttlv := by
  have header : ∀ body start,
      readTlvHeader { shm with offsetFreeList := freeList } body start =
        readTlvHeader shm body start := by
    intro body start
    rw [readTlvHeader, join_loop_free_list]
    rfl
  have value : ∀ body cursor,
      readTlvValue { shm with offsetFreeList := freeList } malloc pHEAD body cursor =
        readTlvValue shm malloc pHEAD body cursor := by
    intro body cursor
    simp only [readTlvValue, join_loop_free_list]
    rfl
  simp only [nifoReadTlvCont, header, value]
  rfl

theorem read_tlvs_free_list (malloc : Nat → Bool) (pHEAD turns : Nat) : ∀ nexttlv,
    readTlvs { shm with offsetFreeList := freeList } malloc pHEAD turns nexttlv =
      readTlvs shm malloc pHEAD turns nexttlv := by
  induction turns with
  | zero =>
      intro nexttlv
      cases nexttlv <;> rfl
  | succ turns ih =>
      intro nexttlv
      cases nexttlv with
      | none => rfl
      | some ptr => simp only [readTlvs, read_tlv_free_list, ih]

theorem free_list_atomic (head : Nat) : Atomic shm { shm with offsetFreeList := freeList } head := by
  refine ⟨?_, rfl⟩
  intro malloc turns
  rw [readBack, read_tlvs_free_list]
  rfl

end Reading

section Claim

variable {shm shm' : MemsInfo} {zoneID procID writerID head type len : Nat}
  {zone writerZone : MemsZone} {rest : List Nat} {value : List UInt8} {code : Int}

/-- Where a writer has left all as it was, the ring is the same and no node has grown. -/
theorem atomic_same {nodes' : List Nat} (ring : IsRing shm.cont (head :: rest))
    (runs : Runs shm (head :: rest) shm' nodes') (atomic : Atomic shm shm' head) :
    nodes' = head :: rest ∧ ∀ node ∈ head :: rest,
      (shm'.nifo node).lastoffset = (shm.nifo node).lastoffset := by
  obtain ⟨more, rfl⟩ := runs.extends'
  have before := ring_from ring
  have after := ring_from runs.ringed.ring
  have offsets := atomic.lastoffsets
  rw [before, show shm'.cont.ringFrom head = head :: rest ++ more from after] at offsets
  have length := congrArg List.length offsets
  rw [List.length_map, List.length_map, List.length_append] at length
  obtain rfl : more = [] := List.eq_nil_of_length_eq_zero (by omega)
  rw [List.append_nil] at offsets
  exact ⟨List.append_nil _, List.map_eq_map_iff.mp offsets⟩

/-- A call that runs out of nodes leaves the chain as it was if and only if the last node was full
and the writer's zone had no free node at all. -/
theorem failed_copy_atomic_iff (chain : Chain shm zoneID zone (head :: rest))
    (mapped : shm.uiMatrixZoneID procID = writerID) (valid : writerID ≠ INVALID_ID)
    (found : shm.stMEMSZONE[writerID]? = some writerZone)
    (failed : nifoCopyTlvCont shm procID type len value head = some (shm', code))
    (negative : code ≠ 0) :
    Atomic shm shm' head ↔
      (shm.nifo (shm.cont.prev head)).lastoffset = (shm.nifo (shm.cont.prev head)).maxoffset ∧
        ∀ node, NodeIn shm writerID node → InUse shm node := by
  obtain ⟨front, node, split⟩ : ∃ front node, head :: rest = front ++ [node] :=
    ⟨_, _, (List.dropLast_append_getLast (by simp)).symm⟩
  have last : shm.cont.prev head = node := by
    rw [ring_prev_head chain.ring]
    simp [split]
  have none_free := node_alloc_none_iff chain.pool mapped valid found
  rw [last]
  cases failed_copy_cases chain split mapped found failed negative with
  | stopped full refused =>
      obtain ⟨-, freeList, rfl⟩ := alloc_none chain.pool refused
      refine iff_of_true (free_list_atomic shm freeList head) ⟨full, ?_⟩
      rw [← none_free, refused]
  | stored room nodes' runs longer =>
      refine iff_of_false ?_ ?_
      · intro atomic
        rw [← split] at runs
        have same := (atomic_same chain.ring runs atomic).2 node (by rw [split]; simp)
        exact Nat.lt_irrefl _ (same ▸ longer)
      · rintro ⟨full, -⟩
        omega
  | linked sub place wasFree nodes' runs more =>
      refine iff_of_false ?_ ?_
      · intro atomic
        rw [← split] at runs more
        obtain ⟨rfl, -⟩ := atomic_same chain.ring runs atomic
        have length := more.length_le
        simp only [List.length_append, List.length_cons, List.length_nil] at length
        omega
      · rintro ⟨-, used⟩
        exact wasFree (used sub place)

end Claim

section Samples

theorem pair_of_code {Value : Type} {result : Option (Value × Int)} (returned : result.isSome)
    {code : Int} (coded : result.map Prod.snd = some code) :
    result = some ((result.get returned).1, code) := by
  cases result with
  | none => cases coded
  | some pair =>
      obtain rfl := Option.some.inj coded
      rfl

/-- A second write of nine bytes behind the first one: the pool has one node left for it. -/
def nineAgain : MemsInfo :=
  ((nifoCopyTlvCont nineWritten 0 8 9 nineBytes.value 4796).get (by decide +kernel)).1

theorem nine_again_fails :
    nifoCopyTlvCont nineWritten 0 8 9 nineBytes.value 4796 = some (nineAgain, -2) :=
  pair_of_code _ (by decide +kernel)

theorem nine_written_chain :
    ∃ rest, Chain nineWritten 0 ⟨0, 72, 4, 4760, 5192⟩ (4796 :: rest) := by
  have fresh := alloc_fresh_chain small_pool_wf (by rfl : smallPool.uiMatrixZoneID 0 = 0)
    (by decide : smallPool.stMEMSZONE[0]? = some ⟨0, 72, 4, 4760, 5192⟩) (by decide)
    nine_bytes_written.1
  obtain ⟨rest, chain, -⟩ := copy_tlvs_spec (by decide) [nineBytes] fresh.1 rfl nine_bytes_written.2
  exact ⟨rest, chain⟩

theorem failed_copy_atomic_iff_nine :
    Atomic nineWritten nineAgain 4796 ↔
      (nineWritten.nifo (nineWritten.cont.prev 4796)).lastoffset =
          (nineWritten.nifo (nineWritten.cont.prev 4796)).maxoffset ∧
        ∀ node, NodeIn nineWritten 0 node → InUse nineWritten node := by
  obtain ⟨rest, chain⟩ := nine_written_chain
  have mapped : nineWritten.uiMatrixZoneID 0 = 0 := by decide +kernel
  exact failed_copy_atomic_iff chain mapped (by decide) chain.found nine_again_fails (by decide)

/-- Behind the one TLV of the chain the failed call leaves another one to read, and the last node
goes from `lastoffset` 65 to 72. -/
theorem failed_copy_read_back :
    nifoCopyTlvCont nineWritten 0 8 9 nineBytes.value 4796 = some (nineAgain, -2) ∧
      (readBack nineWritten (fun _ => true) 4796 2).map (fun result => result.1.length) = some 1 ∧
      (readBack nineAgain (fun _ => true) 4796 2).map (fun result => result.1.length) = some 2 ∧
      (nineWritten.nifo 5012).lastoffset = 65 ∧ (nineAgain.nifo 5012).lastoffset = 72 ∧
      ¬Atomic nineWritten nineAgain 4796 := by
  have before : (readBack nineWritten (fun _ => true) 4796 2).map
      (fun result => result.1.length) = some 1 := by decide +kernel
  have after : (readBack nineAgain (fun _ => true) 4796 2).map
      (fun result => result.1.length) = some 2 := by decide +kernel
  refine ⟨nine_again_fails, before, after, by decide +kernel, by decide +kernel, ?_⟩
  intro atomic
  rw [atomic.readBack, before] at after
  exact absurd after (by decide)

end Samples

end Upst.Nifo
