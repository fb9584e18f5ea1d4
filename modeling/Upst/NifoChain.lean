import Upst.Nifo

/-!
What a chain of NIFO nodes holds. The data of a node is what lies between its
NIFO header and `lastoffset`; the stream of a chain is the data of its nodes in
ring order. Every node but the last is full, so the stream is cut into pieces of
one fixed capacity, and a place in the stream determines its node and offset.
-/

namespace Upst.Nifo

open CList Mems Bytes

set_option autoImplicit false

section Allocation

/-- Everything `nifo_node_alloc` does when it returns a node. -/
structure Allocated (shm : MemsInfo) (zoneID : Nat) (zone : MemsZone) (node : Nat)
    (shm' : MemsInfo) : Prop where
  pool : PoolWf shm'
  zones : shm'.stMEMSZONE = shm.stMEMSZONE
  matrix : shm'.uiMatrixZoneID = shm.uiMatrixZoneID
  place : NodeIn shm zoneID node
  wasFree : ¬InUse shm node
  inUse : InUse shm' node
  others : ∀ hdr, hdr ≠ node - stMEMSNODEHDR_SIZE → shm'.nodeHdr hdr = shm.nodeHdr hdr
  nont : shm'.nont = shm.nont.init node
  cont : shm'.cont = shm.cont.init node
  bytes : shm'.byteAt = shm.byteAt
  nifo : shm'.nifo = Function.update shm.nifo node
    { nodeFrom := 0
      nodeTo := 0
      cnt := 0
      lastoffset := NIFO_SIZE
      maxoffset := zone.uiMemNodeBodySize }

theorem nifo_node_alloc_spec {shm shm' : MemsInfo} {procID zoneID node : Nat} {zone : MemsZone}
    (wf : PoolWf shm) (mapped : shm.uiMatrixZoneID procID = zoneID)
    (found : shm.stMEMSZONE[zoneID]? = some zone)
    (allocated : nifoNodeAlloc shm procID = (some node, shm')) :
    Allocated shm zoneID zone node shm' := by
  have step := mems_alloc_spec wf zone.uiMemNodeBodySize zoneID
  simp only [nifoNodeAlloc, mapped, found] at allocated
  split at allocated
  · generalize memsAlloc shm zone.uiMemNodeBodySize zoneID = result at step allocated
    obtain ⟨_ | fresh, after⟩ := result
    · simp at allocated
    · simp only [Prod.mk.injEq, Option.some.injEq] at allocated
      obtain ⟨rfl, rfl⟩ := allocated
      obtain ⟨place, wasFree, inUse, others⟩ := step.taken fresh rfl
      refine ⟨pool_wf_congr step.wf rfl rfl rfl, step.zones, step.matrix, place,
        wasFree, inUse, others, ?_, ?_, step.bytes, ?_⟩
      · exact congrArg (fun links => Links.init links fresh) step.nont
      · exact congrArg (fun links => Links.init links fresh) step.cont
      · exact congrArg (fun nifo => Function.update nifo fresh _) step.nifo
  · simp at allocated

theorem body_size_node_in {shm : MemsInfo} {zoneID node : Nat} {zone : MemsZone}
    (wf : PoolWf shm) (found : shm.stMEMSZONE[zoneID]? = some zone)
    (member : NodeIn shm zoneID node) : bodySize shm node = zone.uiMemNodeBodySize := by
  obtain ⟨zone', index, found', bound, rfl⟩ := member
  have header := wf.header zoneID zone' found' index bound
  simp only [bodySize, Nat.add_sub_cancel, header.2, found]

theorem node_in_zones {shm shm' : MemsInfo} {zoneID node : Nat}
    (zones : shm'.stMEMSZONE = shm.stMEMSZONE) (member : NodeIn shm zoneID node) :
    NodeIn shm' zoneID node := by
  simpa [NodeIn, zones] using member

end Allocation

section Chain

def nodeData (shm : MemsInfo) (node : Nat) : List UInt8 :=
  readBytes shm.byteAt (node + NIFO_SIZE) ((shm.nifo node).lastoffset - NIFO_SIZE)

def stream (shm : MemsInfo) (nodes : List Nat) : List UInt8 :=
  nodes.flatMap (nodeData shm)

/-- The data bytes one node can hold. -/
def capacity (zone : MemsZone) : Nat := zone.uiMemNodeBodySize - NIFO_SIZE

/-- `nodes` is a `cont` ring of allocated nodes of one zone, full up to the last. -/
structure Chain (shm : MemsInfo) (zoneID : Nat) (zone : MemsZone) (nodes : List Nat) : Prop where
  pool : PoolWf shm
  found : shm.stMEMSZONE[zoneID]? = some zone
  ring : IsRing shm.cont nodes
  place : ∀ node ∈ nodes, NodeIn shm zoneID node
  inUse : ∀ node ∈ nodes, InUse shm node
  maxoffset : ∀ node ∈ nodes, (shm.nifo node).maxoffset = zone.uiMemNodeBodySize
  started : ∀ node ∈ nodes, NIFO_SIZE ≤ (shm.nifo node).lastoffset
  bounded : ∀ node ∈ nodes, (shm.nifo node).lastoffset ≤ zone.uiMemNodeBodySize
  full : ∀ node ∈ nodes.dropLast, (shm.nifo node).lastoffset = zone.uiMemNodeBodySize

theorem node_data_length (shm : MemsInfo) (node : Nat) :
    (nodeData shm node).length = (shm.nifo node).lastoffset - NIFO_SIZE := by
  simp [nodeData]

theorem chain_apart {shm : MemsInfo} {zoneID : Nat} {zone : MemsZone} {nodes : List Nat}
    (chain : Chain shm zoneID zone nodes) {node other : Nat} (member : node ∈ nodes)
    (member' : other ∈ nodes) (distinct : node ≠ other) :
    node + zone.uiMemNodeBodySize ≤ other ∨ other + zone.uiMemNodeBodySize ≤ node := by
  have apart := node_in_apart chain.found (chain.place node member) (chain.place other member')
    distinct
  simp only [MemsZone.stride] at apart
  omega

/-- Full nodes in front fill whole pieces of the stream. -/
theorem stream_full_length {shm : MemsInfo} {zone : MemsZone} {nodes : List Nat}
    (full : ∀ node ∈ nodes, (shm.nifo node).lastoffset = zone.uiMemNodeBodySize) :
    (stream shm nodes).length = nodes.length * capacity zone := by
  induction nodes with
  | nil => simp [stream]
  | cons node rest ih =>
      have head := full node (by simp)
      have tail := ih fun other member => full other (by simp [member])
      simp only [stream, List.flatMap_cons, List.length_append, node_data_length] at tail ⊢
      rw [tail, head, List.length_cons, Nat.add_mul, capacity]
      omega

theorem stream_append (shm : MemsInfo) (front back : List Nat) :
    stream shm (front ++ back) = stream shm front ++ stream shm back := by
  simp [stream]

theorem stream_snoc_length {shm : MemsInfo} {zoneID : Nat} {zone : MemsZone}
    {front : List Nat} {node : Nat} (chain : Chain shm zoneID zone (front ++ [node])) :
    (stream shm (front ++ [node])).length =
      front.length * capacity zone + ((shm.nifo node).lastoffset - NIFO_SIZE) := by
  have front_full : ∀ other ∈ front, (shm.nifo other).lastoffset = zone.uiMemNodeBodySize := by
    simpa using chain.full
  have full := stream_full_length front_full
  rw [stream_append, List.length_append, full]
  simp [stream, node_data_length]

theorem node_data_congr {shm shm' : MemsInfo} {node : Nat} (body : Nat)
    (same : shm'.nifo node = shm.nifo node) (bound : (shm.nifo node).lastoffset ≤ body)
    (bytes : ∀ place, node ≤ place → place < node + body → shm'.byteAt place = shm.byteAt place) :
    nodeData shm' node = nodeData shm node := by
  unfold nodeData
  rw [same]
  apply read_bytes_congr
  intro place after before
  simp only [NIFO_SIZE] at after before
  exact bytes place (by omega) (by omega)

end Chain

section Append

variable {shm : MemsInfo} {zoneID : Nat} {zone : MemsZone} {front : List Nat} {node : Nat}

/-- Appending to the last node with room left extends the stream by what is copied. -/
theorem append_chain (chain : Chain shm zoneID zone (front ++ [node])) (src : List UInt8)
    {size : Nat} (enough : size ≤ src.length)
    (room : (shm.nifo node).lastoffset + size ≤ zone.uiMemNodeBodySize) :
    ∃ shm', nifoAppend shm node src size = some shm' ∧
      Chain shm' zoneID zone (front ++ [node]) ∧
      stream shm' (front ++ [node]) = stream shm (front ++ [node]) ++ src.take size ∧
      (shm'.nifo node).lastoffset = (shm.nifo node).lastoffset + size ∧
      shm'.uiMatrixZoneID = shm.uiMatrixZoneID := by
  have member : node ∈ front ++ [node] := by simp
  have started := chain.started node member
  have body := body_size_node_in chain.pool chain.found (chain.place node member)
  have fresh : node ∉ front := by
    have distinct := chain.ring.2.1
    simp only [List.nodup_append, List.mem_singleton] at distinct
    exact fun inside => distinct.2.2 node inside node rfl rfl
  have taken : (src.take size).length = size := by simpa using enough
  have guard : (0 : Int) ≤ size ∧ (size : Int) ≤ src.length ∧
      NIFO_SIZE ≤ (shm.nifo node).lastoffset ∧
      ((shm.nifo node).lastoffset : Int) + size ≤ bodySize shm node := by
    rw [body]
    omega
  refine ⟨_, if_pos guard, ?_, ?_, ?_, rfl⟩
  · refine ⟨pool_wf_congr chain.pool rfl rfl rfl, chain.found, chain.ring, chain.place, chain.inUse, ?_, ?_, ?_, ?_⟩
    · intro other inside
      by_cases same : other = node
      · subst same
        simpa using chain.maxoffset other inside
      · simpa [same] using chain.maxoffset other inside
    · intro other inside
      by_cases same : other = node
      · subst same
        simpa using Nat.le_add_right_of_le started
      · simpa [same] using chain.started other inside
    · intro other inside
      by_cases same : other = node
      · subst same
        simpa using room
      · simpa [same] using chain.bounded other inside
    · intro other inside
      have other_ne : other ≠ node := by
        rintro rfl
        exact fresh (by simpa using inside)
      simpa [other_ne] using chain.full other inside
  · simp only [stream_append, List.append_assoc]
    congr 1
    · apply List.flatMap_congr
      intro other inside
      have other_ne : other ≠ node := fun same => fresh (same ▸ inside)
      have apart := chain_apart chain (by simp [inside]) member other_ne
      refine node_data_congr zone.uiMemNodeBodySize (by simp [other_ne])
        (chain.bounded other (by simp [inside])) ?_
      intro place after before
      simp only [writeBytes]
      rw [if_neg (by rw [Int.toNat_natCast, taken]; omega)]
    · simp only [stream, List.flatMap_cons, List.flatMap_nil, List.append_nil, nodeData,
        Function.update_self, Int.toNat_natCast]
      obtain ⟨used, usedEq⟩ := Nat.exists_eq_add_of_le started
      rw [usedEq, show NIFO_SIZE + used + size - NIFO_SIZE = used + size by omega,
        Nat.add_sub_cancel_left, read_bytes_append, ← Nat.add_assoc]
      congr 1
      · exact read_write_apart _ _ _ _ _ (by omega)
      · have written := read_write_same shm.byteAt (node + NIFO_SIZE + used) (src.take size)
        rwa [taken] at written
  · simp

/-- A node outside the ring, linked behind its last one. -/
theorem link_ring {sub : Nat} (ring : IsRing shm.cont (front ++ [node]))
    (outside : sub ∉ front ++ [node]) :
    IsRing (nifoNodeLinkContNext shm node sub).cont (front ++ [node] ++ [sub]) := by
  have turned : IsRing shm.cont (node :: front) := ring_append_comm ring
  have inserted := ring_addHead sub turned (by
    simp only [List.mem_append, List.mem_cons] at outside ⊢
    tauto)
  have back : IsRing (nifoNodeLinkContNext shm node sub).cont ([node, sub] ++ front) := inserted
  simpa using ring_append_comm back

/-- A full chain grows by a fresh empty node behind its last one. -/
theorem alloc_chain {procID sub : Nat} {shm' : MemsInfo}
    (chain : Chain shm zoneID zone (front ++ [node]))
    (mapped : shm.uiMatrixZoneID procID = zoneID)
    (exhausted : (shm.nifo node).lastoffset = zone.uiMemNodeBodySize)
    (wide : NIFO_SIZE ≤ zone.uiMemNodeBodySize)
    (allocated : nifoNodeAlloc shm procID = (some sub, shm')) :
    Chain (nifoNodeLinkContNext shm' node sub) zoneID zone (front ++ [node] ++ [sub]) ∧
      stream (nifoNodeLinkContNext shm' node sub) (front ++ [node] ++ [sub]) =
        stream shm (front ++ [node]) ∧
      ((nifoNodeLinkContNext shm' node sub).nifo sub).lastoffset = NIFO_SIZE ∧
      (nifoNodeLinkContNext shm' node sub).uiMatrixZoneID = shm.uiMatrixZoneID := by
  have step := nifo_node_alloc_spec chain.pool mapped chain.found allocated
  have outside : sub ∉ front ++ [node] := fun inside => step.wasFree (chain.inUse sub inside)
  have apartHdr : ∀ other ∈ front ++ [node], other - stMEMSNODEHDR_SIZE ≠
      sub - stMEMSNODEHDR_SIZE := by
    intro other inside same
    obtain ⟨_, _, _, _, otherEq⟩ := chain.place other inside
    obtain ⟨_, _, _, _, subEq⟩ := step.place
    have : other = sub := by omega
    exact outside (this ▸ inside)
  have keeps : ∀ other ∈ front ++ [node], shm'.nifo other = shm.nifo other := by
    intro other inside
    rw [step.nifo, Function.update_of_ne]
    exact fun same => outside (same ▸ inside)
  have nifoSub : shm'.nifo sub =
      { nodeFrom := 0, nodeTo := 0, cnt := 0, lastoffset := NIFO_SIZE,
        maxoffset := zone.uiMemNodeBodySize } := by
    rw [step.nifo, Function.update_self]
  have linked : IsRing (nifoNodeLinkContNext shm' node sub).cont (front ++ [node] ++ [sub]) := by
    refine link_ring ?_ outside
    rw [step.cont]
    exact ring_init_frame chain.ring outside
  refine ⟨⟨pool_wf_congr step.pool rfl rfl rfl,
    by simpa [nifoNodeLinkContNext, step.zones] using chain.found, linked, ?_, ?_, ?_, ?_, ?_, ?_⟩,
    ?_, ?_, step.matrix⟩
  · intro other inside
    change NodeIn shm' zoneID other
    refine node_in_zones step.zones ?_
    rcases List.mem_append.mp inside with inside | inside
    · exact chain.place other inside
    · obtain rfl := List.mem_singleton.mp inside
      exact step.place
  · intro other inside
    rcases List.mem_append.mp inside with inside | inside
    · have used := chain.inUse other inside
      simpa [InUse, nifoNodeLinkContNext, step.others _ (apartHdr other inside)] using used
    · obtain rfl := List.mem_singleton.mp inside
      exact step.inUse
  · intro other inside
    rcases List.mem_append.mp inside with inside | inside
    · simpa [nifoNodeLinkContNext, keeps other inside] using chain.maxoffset other inside
    · obtain rfl := List.mem_singleton.mp inside
      simp [nifoNodeLinkContNext, nifoSub]
  · intro other inside
    rcases List.mem_append.mp inside with inside | inside
    · simpa [nifoNodeLinkContNext, keeps other inside] using chain.started other inside
    · obtain rfl := List.mem_singleton.mp inside
      simp [nifoNodeLinkContNext, nifoSub]
  · intro other inside
    rcases List.mem_append.mp inside with inside | inside
    · simpa [nifoNodeLinkContNext, keeps other inside] using chain.bounded other inside
    · obtain rfl := List.mem_singleton.mp inside
      simpa [nifoNodeLinkContNext, nifoSub] using wide
  · intro other inside
    rw [List.dropLast_concat] at inside
    simp only [nifoNodeLinkContNext, keeps other inside]
    rcases List.mem_append.mp inside with earlier | last
    · exact chain.full other (by simpa using earlier)
    · obtain rfl := List.mem_singleton.mp last
      exact exhausted
  · rw [stream_append]
    have tail : stream (nifoNodeLinkContNext shm' node sub) [sub] = [] := by
      simp [stream, nodeData, nifoNodeLinkContNext, nifoSub, readBytes]
    rw [tail, List.append_nil]
    apply List.flatMap_congr
    intro other inside
    simp only [nodeData, nifoNodeLinkContNext, keeps other inside, step.bytes]
  · simp [nifoNodeLinkContNext, nifoSub]

end Append

end Upst.Nifo
