import Upst.MemsRun

/-!
`nifo_node_delete`: all nodes of a structure go back to the pool, a `nont` ring of heads of
which each heads a `cont` ring. The loops unlink the nodes they stand on, so each reads where it
goes next before it does.
-/

namespace Upst.Nifo

open CList Mems

set_option autoImplicit false

section Code

/-- The program exits where `mems_free` refuses the node. -/
def nifoNodeFree (pool : MemsPool) (pFree : Nat) : Option MemsPool :=
  if (pool.free pFree).1 ≠ 0 then none else some (pool.free pFree).2

def nifoNodeUnlinkCont (pool : MemsPool) (pDel : Nat) : MemsPool :=
  { pool with shm := { pool.shm with cont := pool.shm.cont.delInit pDel } }

def nifoNodeUnlinkNont (pool : MemsPool) (pDel : Nat) : MemsPool :=
  { pool with shm := { pool.shm with nont := pool.shm.nont.delInit pDel } }

/-- `none` stands for NULL in the next node. -/
def nifoContDelete (pool : MemsPool) (pDel : Nat) : Option (Option Nat × MemsPool) := do
  let pNext := pool.shm.cont.next pDel
  let pool ← nifoNodeFree (nifoNodeUnlinkCont pool pDel) pDel
  some (if pNext = pDel then none else some pNext, pool)

def nifoNontDelete (pool : MemsPool) (pDel : Nat) : Option Nat × MemsPool :=
  let pNext := pool.shm.nont.next pDel
  (if pNext = pDel then none else some pNext, nifoNodeUnlinkNont pool pDel)

/-- The inner loop of `nifo_node_delete`, as far as the fuel goes. -/
def contDeleteLoop : Nat → MemsPool → Option Nat → Option MemsPool
  | _, pool, none => some pool
  | 0, _, some _ => none
  | fuel + 1, pool, some pNode => do
      let (pNode, pool) ← nifoContDelete pool pNode
      contDeleteLoop fuel pool pNode

/-- The outer loop of `nifo_node_delete`. -/
def nifoNodeDelete : Nat → MemsPool → Nat → Option MemsPool
  | 0, _, _ => none
  | fuel + 1, pool, pNode => do
      let (pNext, pool) := nifoNontDelete pool pNode
      let pool ← contDeleteLoop fuel pool (some pNode)
      match pNext with
      | none => some pool
      | some pNode => nifoNodeDelete fuel pool pNode

end Code

section Freed

/-- The links of all other nodes are the same. -/
def LinksKept (links links' : Links Nat) (nodes : List Nat) : Prop :=
  ∀ node, node ∉ nodes → links'.next node = links.next node ∧ links'.prev node = links.prev node

/-- The nodes are FREE, each counted once for its zone, and nothing else has changed but links. -/
structure Freed (pool pool' : MemsPool) (nodes : List Nat) : Prop where
  marked : ∀ node ∈ nodes, pool'.shm.nodeHdr (node - stMEMSNODEHDR_SIZE) =
    { pool.shm.nodeHdr (node - stMEMSNODEHDR_SIZE) with ucIsFree := .free }
  others : ∀ hdr, (∀ node ∈ nodes, hdr ≠ node - stMEMSNODEHDR_SIZE) →
    pool'.shm.nodeHdr hdr = pool.shm.nodeHdr hdr
  deleted : ∀ zoneID, pool'.delCnt zoneID = pool.delCnt zoneID + BitVec.ofNat 64
    (nodes.countP fun node =>
      (pool.shm.nodeHdr (node - stMEMSNODEHDR_SIZE)).uiZoneID = zoneID)
  created : pool'.createCnt = pool.createCnt
  rest : pool'.shm = { pool.shm with
    nodeHdr := pool'.shm.nodeHdr
    nont := pool'.shm.nont
    cont := pool'.shm.cont }

/-- A node of the pool that is in use. -/
structure Taken (pool : MemsPool) (node : Nat) : Prop where
  place : stMEMSNODEHDR_SIZE ≤ node
  known : (pool.shm.nodeHdr (node - stMEMSNODEHDR_SIZE)).uiID = MEMS_ID
  alloced : InUse pool.shm node

variable {pool pool' pool'' : MemsPool} {node : Nat} {nodes others : List Nat}

theorem links_kept_trans {links links' links'' : Links Nat} (first : LinksKept links links' nodes)
    (second : LinksKept links' links'' nodes) : LinksKept links links'' nodes := by
  intro node outside
  obtain ⟨next, prev⟩ := first node outside
  obtain ⟨next', prev'⟩ := second node outside
  exact ⟨next'.trans next, prev'.trans prev⟩

theorem links_kept_mono {links links' : Links Nat} (kept : LinksKept links links' nodes)
    (subset : ∀ node ∈ nodes, node ∈ others) : LinksKept links links' others :=
  fun node outside => kept node fun member => outside (subset node member)

theorem freed_nil (pool : MemsPool) : Freed pool pool [] :=
  ⟨by simp, fun _ _ => rfl, by simp, rfl, rfl⟩

theorem hdr_apart (first : stMEMSNODEHDR_SIZE ≤ node) {other : Nat}
    (second : stMEMSNODEHDR_SIZE ≤ other) (apart : node ≠ other) :
    node - stMEMSNODEHDR_SIZE ≠ other - stMEMSNODEHDR_SIZE := by
  omega

theorem freed_append (first : Freed pool pool' nodes) (second : Freed pool' pool'' others)
    (placed : ∀ node ∈ nodes, stMEMSNODEHDR_SIZE ≤ node)
    (placed' : ∀ node ∈ others, stMEMSNODEHDR_SIZE ≤ node) (apart : List.Disjoint nodes others) :
    Freed pool pool'' (nodes ++ others) := by
  have kept : ∀ node ∈ others, pool'.shm.nodeHdr (node - stMEMSNODEHDR_SIZE) =
      pool.shm.nodeHdr (node - stMEMSNODEHDR_SIZE) := by
    intro node member
    apply first.others
    intro other member'
    apply hdr_apart (placed' node member) (placed other member')
    rintro rfl
    exact apart member' member
  constructor
  · intro node member
    rcases List.mem_append.mp member with early | late
    · have same : pool''.shm.nodeHdr (node - stMEMSNODEHDR_SIZE) =
          pool'.shm.nodeHdr (node - stMEMSNODEHDR_SIZE) := by
        apply second.others
        intro other member'
        apply hdr_apart (placed node early) (placed' other member')
        rintro rfl
        exact apart early member'
      rw [same, first.marked node early]
    · rw [second.marked node late, kept node late]
  · intro hdr outside
    rw [second.others hdr fun node member => outside node (List.mem_append_right _ member),
      first.others hdr fun node member => outside node (List.mem_append_left _ member)]
  · intro zoneID
    have count : (others.countP fun node =>
        (pool'.shm.nodeHdr (node - stMEMSNODEHDR_SIZE)).uiZoneID = zoneID) =
          others.countP fun node =>
            (pool.shm.nodeHdr (node - stMEMSNODEHDR_SIZE)).uiZoneID = zoneID := by
      apply List.countP_congr
      intro node member
      rw [kept node member]
    rw [second.deleted, first.deleted, count, List.countP_append, BitVec.ofNat_add,
      BitVec.add_assoc]
  · exact second.created.trans first.created
  · rw [second.rest, first.rest]

theorem taken_kept (taken : Taken pool node)
    (same : pool'.shm.nodeHdr (node - stMEMSNODEHDR_SIZE) =
      pool.shm.nodeHdr (node - stMEMSNODEHDR_SIZE)) : Taken pool' node := by
  refine ⟨taken.place, ?_, ?_⟩
  · rw [same]
    exact taken.known
  · rw [InUse, same]
    exact taken.alloced

/-- A node in use is freed, and `mems_free` does not refuse it. -/
theorem node_free_freed (taken : Taken pool node) : ∃ pool', nifoNodeFree pool node = some pool' ∧
    Freed pool pool' [node] ∧ pool'.shm.nont = pool.shm.nont ∧ pool'.shm.cont = pool.shm.cont := by
  have accepted : ¬((pool.shm.nodeHdr (node - stMEMSNODEHDR_SIZE)).uiID ≠ MEMS_ID ∨
      (pool.shm.nodeHdr (node - stMEMSNODEHDR_SIZE)).ucIsFree ≠ .alloced) := by
    rw [taken.known, show (pool.shm.nodeHdr _).ucIsFree = .alloced from taken.alloced]
    simp
  have free : memsFree pool.shm node =
      some (pool.shm.setUse (node - stMEMSNODEHDR_SIZE) .free) := by
    rw [memsFree]
    exact if_neg accepted
  refine ⟨{ pool with
    shm := pool.shm.setUse (node - stMEMSNODEHDR_SIZE) .free
    delCnt := Function.update pool.delCnt
      (pool.shm.nodeHdr (node - stMEMSNODEHDR_SIZE)).uiZoneID
      (pool.delCnt (pool.shm.nodeHdr (node - stMEMSNODEHDR_SIZE)).uiZoneID + 1) }, ?_, ?_, rfl, rfl⟩
  · rw [nifoNodeFree, MemsPool.free, free]
    rfl
  · constructor
    · intro other member
      rw [List.mem_singleton.mp member]
      simp [MemsInfo.setUse]
    · intro hdr outside
      have apart := outside node List.mem_cons_self
      simp [MemsInfo.setUse, apart]
    · intro zoneID
      by_cases own : (pool.shm.nodeHdr (node - stMEMSNODEHDR_SIZE)).uiZoneID = zoneID
      · simp [own]
      · simp [own, Ne.symm own]
    · rfl
    · rfl

end Freed

section Loops

variable {pool : MemsPool} {node : Nat} {nodes : List Nat}

theorem join_kept (links : Links Nat) {before after : Nat} (inside : before ∈ nodes)
    (inside' : after ∈ nodes) : LinksKept links (links.join before after) nodes := by
  intro node outside
  have apart : node ≠ before := by
    rintro rfl
    exact outside inside
  have apart' : node ≠ after := by
    rintro rfl
    exact outside inside'
  simp [Links.join, apart, apart']

theorem ring_next_mem {links : Links Nat} {rest : List Nat} (ring : IsRing links (node :: rest)) :
    links.next node = (rest ++ [node]).head (by simp) := by
  obtain ⟨-, chain⟩ := (ring_cons_iff node rest).mp ring
  cases rest with
  | nil => exact (List.isChain_cons_cons.mp chain).1.1
  | cons follower others => exact (List.isChain_cons_cons.mp chain).1.1

/-- Only the links of the ring change where a node of it is unlinked. -/
theorem del_init_kept {links : Links Nat} {rest : List Nat} (ring : IsRing links (node :: rest)) :
    LinksKept links (links.delInit node) (node :: rest) := by
  have next : links.next node ∈ node :: rest := by
    rw [ring_next_mem ring]
    have member : (rest ++ [node]).head (by simp) ∈ rest ++ [node] := List.head_mem _
    rcases List.mem_append.mp member with inner | last
    · exact List.mem_cons_of_mem _ inner
    · rw [List.mem_singleton.mp last]
      exact List.mem_cons_self
  have prev : links.prev node ∈ node :: rest := by
    rw [ring_prev_head ring]
    exact List.getLast_mem _
  exact links_kept_trans (join_kept links prev next)
    (join_kept _ List.mem_cons_self List.mem_cons_self)

/-- The node after the first of a ring, NULL where there is none. -/
theorem next_of_ring {links : Links Nat} {rest : List Nat} (ring : IsRing links (node :: rest)) :
    (if links.next node = node then none else some (links.next node)) = rest.head? := by
  have distinct := ring.2.1
  rw [ring_next_mem ring]
  cases rest with
  | nil => simp
  | cons follower others =>
      have apart : follower ≠ node := by
        rintro rfl
        exact (List.nodup_cons.mp distinct).1 List.mem_cons_self
      simp [apart]

/-- The inner loop frees the nodes of a ring, and ends after as many turns. -/
theorem cont_loop_freed {nodes : List Nat} : ∀ {pool : MemsPool},
    (nodes ≠ [] → IsRing pool.shm.cont nodes) → (∀ node ∈ nodes, Taken pool node) →
      ∃ pool', (∀ fuel, nodes.length ≤ fuel →
          contDeleteLoop fuel pool nodes.head? = some pool') ∧
        Freed pool pool' nodes ∧ pool'.shm.nont = pool.shm.nont ∧
        LinksKept pool.shm.cont pool'.shm.cont nodes := by
  induction nodes with
  | nil =>
      intro pool _ _
      refine ⟨pool, ?_, freed_nil pool, rfl, fun _ _ => ⟨rfl, rfl⟩⟩
      intro fuel _
      cases fuel with
      | zero => rfl
      | succ fuel => rfl
  | cons node rest ih =>
      intro pool ring taken
      have whole : IsRing pool.shm.cont (node :: rest) := ring (by simp)
      have distinct := List.nodup_cons.mp whole.2.1
      have own : Taken (nifoNodeUnlinkCont pool node) node :=
        taken_kept (taken node List.mem_cons_self) rfl
      obtain ⟨pool₁, free, freed, nont, cont⟩ := node_free_freed own
      have freed₁ : Freed pool pool₁ [node] :=
        ⟨freed.marked, freed.others, freed.deleted, freed.created, freed.rest⟩
      have kept₁ : LinksKept pool.shm.cont pool₁.shm.cont (node :: rest) := by
        rw [cont]
        exact del_init_kept whole
      have later : rest ≠ [] → IsRing pool₁.shm.cont rest := by
        intro more
        rw [cont]
        exact ring_delInit whole more
      have taken₁ : ∀ other ∈ rest, Taken pool₁ other := by
        intro other member
        have old := taken other (List.mem_cons_of_mem _ member)
        apply taken_kept old
        apply freed₁.others
        intro same member'
        rw [List.mem_singleton.mp member']
        apply hdr_apart old.place own.place
        rintro rfl
        exact distinct.1 member
      obtain ⟨pool₂, ran, freed₂, nont₂, kept₂⟩ := ih later taken₁
      have loose : List.Disjoint [node] rest := by
        rw [List.singleton_disjoint]
        exact distinct.1
      refine ⟨pool₂, ?_, ?_, nont₂.trans nont, ?_⟩
      · intro fuel enough
        obtain ⟨fuel, rfl⟩ := Nat.exists_eq_add_one_of_ne_zero (Nat.ne_zero_of_lt enough)
        rw [List.head?_cons, contDeleteLoop, nifoContDelete, free]
        simp only [Option.bind_eq_bind, Option.bind_some, next_of_ring whole]
        exact ran fuel (Nat.le_of_succ_le_succ enough)
      · apply freed_append freed₁ freed₂ _ _ loose
        · intro other member
          rw [List.mem_singleton.mp member]
          exact own.place
        · exact fun other member => (taken₁ other member).place
      · exact links_kept_trans kept₁
          (links_kept_mono kept₂ fun other member => List.mem_cons_of_mem _ member)

/-- The nodes of a structure: heads, each with the nodes after it on its `cont` ring. -/
def structureNodes (groups : List (Nat × List Nat)) : List Nat :=
  groups.flatMap fun group => group.1 :: group.2

/-- A `nont` ring of heads, each of which heads a `cont` ring, all of different nodes in use. -/
structure Structure (pool : MemsPool) (groups : List (Nat × List Nat)) : Prop where
  heads : IsRing pool.shm.nont (groups.map Prod.fst)
  conts : ∀ group ∈ groups, IsRing pool.shm.cont (group.1 :: group.2)
  distinct : (structureNodes groups).Nodup
  taken : ∀ node ∈ structureNodes groups, Taken pool node

/-- What `nifo_node_delete` leaves: the nodes are freed, and the links of the others are kept. -/
structure Deleted (pool pool' : MemsPool) (nodes : List Nat) : Prop where
  freed : Freed pool pool' nodes
  nont : LinksKept pool.shm.nont pool'.shm.nont nodes
  cont : LinksKept pool.shm.cont pool'.shm.cont nodes

theorem group_nodes_mem {groups : List (Nat × List Nat)} {group : Nat × List Nat}
    (member : group ∈ groups) {node : Nat} (inside : node ∈ group.1 :: group.2) :
    node ∈ structureNodes groups := List.mem_flatMap.mpr ⟨group, member, inside⟩

theorem heads_mem {groups : List (Nat × List Nat)} {node : Nat}
    (member : node ∈ groups.map Prod.fst) : node ∈ structureNodes groups := by
  obtain ⟨group, listed, rfl⟩ := List.mem_map.mp member
  exact group_nodes_mem listed List.mem_cons_self

/-- One turn of the outer loop: the first group is deleted, and the others are a structure. -/
theorem group_deleted {head : Nat} {rest : List Nat} {groups : List (Nat × List Nat)}
    (whole : Structure pool ((head, rest) :: groups)) :
    ∃ pool', (∀ fuel, rest.length + 1 ≤ fuel →
        contDeleteLoop fuel (nifoNodeUnlinkNont pool head) (some head) = some pool') ∧
      Freed pool pool' (head :: rest) ∧
      LinksKept pool.shm.nont pool'.shm.nont (structureNodes ((head, rest) :: groups)) ∧
      LinksKept pool.shm.cont pool'.shm.cont (head :: rest) ∧
      (groups ≠ [] → Structure pool' groups) := by
  have distinct : (head :: rest ++ structureNodes groups).Nodup := whole.distinct
  obtain ⟨-, othersDistinct, apart⟩ := List.nodup_append'.mp distinct
  have ring : IsRing (nifoNodeUnlinkNont pool head).shm.cont (head :: rest) :=
    whole.conts (head, rest) List.mem_cons_self
  have taken : ∀ node ∈ head :: rest, Taken (nifoNodeUnlinkNont pool head) node := by
    intro node member
    exact taken_kept (whole.taken node (group_nodes_mem List.mem_cons_self member)) rfl
  obtain ⟨pool', ran, freed, nont, cont⟩ := cont_loop_freed (fun _ => ring) taken
  have freed' : Freed pool pool' (head :: rest) :=
    ⟨freed.marked, freed.others, freed.deleted, freed.created, freed.rest⟩
  have heads : IsRing pool.shm.nont (head :: groups.map Prod.fst) := whole.heads
  refine ⟨pool', ran, freed', ?_, cont, ?_⟩
  · rw [nont]
    exact links_kept_mono (del_init_kept heads) fun node member => heads_mem member
  · intro more
    constructor
    · rw [nont]
      exact ring_delInit heads (by simpa using more)
    · intro group member
      have old := whole.conts group (List.mem_cons_of_mem _ member)
      apply ring_relink old
      intro node inside
      exact cont node fun inside' => apart inside' (group_nodes_mem member inside)
    · exact othersDistinct
    · intro node member
      have old := whole.taken node (List.mem_append_right _ member)
      apply taken_kept old
      apply freed'.others
      intro other inside
      apply hdr_apart old.place (whole.taken other (List.mem_append_left _ inside)).place
      rintro rfl
      exact apart inside member

/-- A turn whose `pNext` is NULL is the last. -/
theorem delete_last {fuel : Nat} {pool pool' : MemsPool} {head : Nat}
    (ring : IsRing pool.shm.nont [head])
    (ran : contDeleteLoop fuel (nifoNodeUnlinkNont pool head) (some head) = some pool') :
    nifoNodeDelete (fuel + 1) pool head = some pool' := by
  rw [nifoNodeDelete, nifoNontDelete, next_of_ring ring]
  simp only [Option.bind_eq_bind, ran, Option.bind_some, List.head?_nil]

theorem delete_next {fuel : Nat} {pool pool' : MemsPool} {head next : Nat} {others : List Nat}
    (ring : IsRing pool.shm.nont (head :: next :: others))
    (ran : contDeleteLoop fuel (nifoNodeUnlinkNont pool head) (some head) = some pool') :
    nifoNodeDelete (fuel + 1) pool head = nifoNodeDelete fuel pool' next := by
  rw [nifoNodeDelete, nifoNontDelete, next_of_ring ring]
  simp only [Option.bind_eq_bind, ran, Option.bind_some, List.head?_cons]

/-- With a turn for every node `nifo_node_delete` ends, and has freed exactly the nodes of the
structure, each once. -/
theorem node_delete_frees {groups : List (Nat × List Nat)} : ∀ {pool : MemsPool} {pDel : Nat}
    {rest : List Nat}, Structure pool ((pDel, rest) :: groups) →
      ∃ pool', Deleted pool pool' (structureNodes ((pDel, rest) :: groups)) ∧
        ∀ fuel, (structureNodes ((pDel, rest) :: groups)).length < fuel →
          nifoNodeDelete fuel pool pDel = some pool' := by
  induction groups with
  | nil =>
      intro pool pDel rest whole
      obtain ⟨pool', ran, freed, nont, cont, -⟩ := group_deleted whole
      have nodes : structureNodes [(pDel, rest)] = pDel :: rest := by
        simp [structureNodes]
      rw [nodes] at nont ⊢
      refine ⟨pool', ⟨freed, nont, cont⟩, ?_⟩
      intro fuel enough
      obtain ⟨fuel, rfl⟩ : ∃ left, fuel = left + 1 := ⟨fuel - 1, by omega⟩
      exact delete_last whole.heads (ran fuel (Nat.le_of_lt_succ enough))
  | cons group groups ih =>
      intro pool pDel rest whole
      obtain ⟨next, nextRest⟩ := group
      obtain ⟨pool₁, ran, freed, nont, cont, later⟩ := group_deleted whole
      obtain ⟨pool₂, deleted, ran₂⟩ := ih (later (by simp))
      have nodes : structureNodes ((pDel, rest) :: (next, nextRest) :: groups) =
          (pDel :: rest) ++ structureNodes ((next, nextRest) :: groups) := rfl
      have distinct := whole.distinct
      have taken := whole.taken
      rw [nodes] at nont distinct taken ⊢
      refine ⟨pool₂, ⟨?_, ?_, ?_⟩, ?_⟩
      · apply freed_append freed deleted.freed _ _ (List.nodup_append'.mp distinct).2.2
        · exact fun node member => (taken node (List.mem_append_left _ member)).place
        · exact fun node member => (taken node (List.mem_append_right _ member)).place
      · exact links_kept_trans nont
          (links_kept_mono deleted.nont fun node member => List.mem_append_right _ member)
      · exact links_kept_trans
          (links_kept_mono cont fun node member => List.mem_append_left _ member)
          (links_kept_mono deleted.cont fun node member => List.mem_append_right _ member)
      · intro fuel enough
        rw [List.length_append] at enough
        obtain ⟨fuel, rfl⟩ : ∃ left, fuel = left + 1 := ⟨fuel - 1, by omega⟩
        rw [delete_next whole.heads (ran fuel (by simp at enough; omega))]
        exact ran₂ fuel (by simp at enough; omega)

/-- Two heads, the first with one more node. -/
def pairPool : MemsPool := MemsPool.init { zeroSegment with
  nodeHdr := fun _ => ⟨MEMS_ID, 0, .alloced⟩
  nont := zeroSegment.nont.addTail 200 100
  cont := zeroSegment.cont.addTail 150 100 }

theorem node_delete_frees_pair :
    ∃ pool', Deleted pairPool pool' (structureNodes [(100, [150]), (200, [])]) ∧
      ∀ fuel, (structureNodes [(100, [150]), (200, [])]).length < fuel →
        nifoNodeDelete fuel pairPool 100 = some pool' := by
  apply node_delete_frees
  constructor
  · apply (ring_cons_iff 100 [200]).mpr
    simp [pairPool, MemsPool.init, zeroSegment, Links.Adj, Links.addTail, Links.insertBetween,
      Links.join]
  · intro group member
    simp only [List.mem_cons, List.not_mem_nil, or_false] at member
    rcases member with rfl | rfl
    · apply (ring_cons_iff 100 [150]).mpr
      simp [pairPool, MemsPool.init, zeroSegment, Links.Adj, Links.addTail, Links.insertBetween,
        Links.join]
    · apply (ring_cons_iff 200 []).mpr
      simp [pairPool, MemsPool.init, zeroSegment, Links.Adj, Links.addTail, Links.insertBetween,
        Links.join]
  · decide
  · intro node member
    refine ⟨?_, rfl, rfl⟩
    revert node
    decide

end Loops

end Upst.Nifo
