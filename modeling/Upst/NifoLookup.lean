import Upst.MemsRun
import Upst.NifoTlv

/-!
TLVs inside one node: `nifo_tlv_alloc` puts them one behind the other, and `nifo_get_value` and
`nifo_get_tlv` go from header to header until one has the type they look for.
-/

namespace Upst.Nifo

open CList Mems Bytes

set_option autoImplicit false

section Code

/-- `none` stands for NULL. -/
def nifoTlvAlloc (shm : MemsInfo) (pNode : Nat) (type len : UInt32) (memset : Bool) :
    Option Nat × MemsInfo :=
  let pNIFO := shm.nifo pNode
  if pNIFO.maxoffset < pNIFO.lastoffset + TLV_SIZE + len.toNat then (none, shm)
  else
    let p := pNode + pNIFO.lastoffset
    let named := writeBytes shm.byteAt p (tlvBytes type.toNat len.toNat)
    (some (p + TLV_SIZE),
      { shm with
        byteAt :=
          if memset then writeBytes named (p + TLV_SIZE) (List.replicate len.toNat 0) else named
        nifo := Function.update shm.nifo pNode
          { pNIFO with
            cnt := pNIFO.cnt + 1
            lastoffset := pNIFO.lastoffset + (TLV_SIZE + len.toNat) } })

/-- The loop over the headers of a node, as far as the fuel goes; the result is the address of the
first header of the type. -/
def tlvLoop (shm : MemsInfo) (pNode : Nat) (type : UInt32) : Nat → Nat → Option (Option Nat)
  | 0, _ => none
  | fuel + 1, curoffset =>
      if curoffset < (shm.nifo pNode).lastoffset then
        if fromLe (readBytes shm.byteAt (pNode + curoffset) 4) = type.toNat then
          some (some (pNode + curoffset))
        else
          tlvLoop shm pNode type fuel
            (curoffset + TLV_SIZE + fromLe (readBytes shm.byteAt (pNode + curoffset + 4) 4))
      else some none

/-- Every turn goes on by a header at least. -/
def nifoGetTlv (shm : MemsInfo) (type : UInt32) (pNode : Nat) : Option (Option Nat) :=
  tlvLoop shm pNode type ((shm.nifo pNode).lastoffset + 1) NIFO_SIZE

def nifoGetValue (shm : MemsInfo) (type : UInt32) (pNode : Nat) : Option (Option Nat) :=
  (tlvLoop shm pNode type ((shm.nifo pNode).lastoffset + 1) NIFO_SIZE).map fun found =>
    found.map fun pTLV => pTLV + TLV_SIZE

/-- What `nifo_tlv_alloc` gave to its caller. -/
structure Given where
  type : UInt32
  len : UInt32
  ptr : Nat

/-- A call of `nifo_tlv_alloc`, or a store of a caller behind a pointer that it was given. -/
inductive Deed where
  | alloc (type len : UInt32) (memset : Bool)
  | store (ptr : Nat) (src : List UInt8)

def Deed.run (pNode : Nat) (state : MemsInfo × List Given) : Deed → MemsInfo × List Given
  | .alloc type len memset =>
      match nifoTlvAlloc state.1 pNode type len memset with
      | (none, shm) => (shm, state.2)
      | (some ptr, shm) => (shm, state.2 ++ [⟨type, len, ptr⟩])
  | .store ptr src => ({ state.1 with byteAt := writeBytes state.1.byteAt ptr src }, state.2)

/-- A caller stores inside an area that it was given. -/
def Deed.Fair (given : List Given) : Deed → Prop
  | .alloc _ _ _ => True
  | .store ptr src => ∃ tlv ∈ given, tlv.ptr ≤ ptr ∧ ptr + src.length ≤ tlv.ptr + tlv.len.toNat

def runDeeds (pNode : Nat) (state : MemsInfo × List Given) (deeds : List Deed) :
    MemsInfo × List Given :=
  deeds.foldl (Deed.run pNode) state

def FairDeeds (pNode : Nat) : MemsInfo × List Given → List Deed → Prop
  | _, [] => True
  | state, deed :: rest => deed.Fair state.2 ∧ FairDeeds pNode (deed.run pNode state) rest

end Code

section Loop

variable {shm : MemsInfo} {pNode : Nat}

/-- From the offset `start` to `finish` the node holds the TLVs that were given, one behind the
other. -/
def Laid (byteAt : Nat → UInt8) (pNode : Nat) : Nat → List Given → Nat → Prop
  | start, [], finish => start = finish
  | start, tlv :: rest, finish =>
      tlv.ptr = pNode + start + TLV_SIZE ∧
      readBytes byteAt (pNode + start) TLV_SIZE = tlvBytes tlv.type.toNat tlv.len.toNat ∧
      Laid byteAt pNode (start + TLV_SIZE + tlv.len.toNat) rest finish

variable {byteAt byteAt' : Nat → UInt8} {given : List Given}

theorem laid_start_le : ∀ {start finish : Nat}, Laid byteAt pNode start given finish →
    start ≤ finish := by
  induction given with
  | nil => exact fun same => Nat.le_of_eq same
  | cons tlv rest ih =>
      intro start finish laid
      have later := ih laid.2.2
      omega

/-- The areas lie between the offsets, each behind its header. -/
theorem laid_inside : ∀ {start finish : Nat}, Laid byteAt pNode start given finish →
    ∀ tlv ∈ given, pNode + start + TLV_SIZE ≤ tlv.ptr ∧
      tlv.ptr + tlv.len.toNat ≤ pNode + finish := by
  induction given with
  | nil => simp
  | cons first rest ih =>
      intro start finish laid tlv member
      obtain ⟨place, -, later⟩ := laid
      have reached := laid_start_le later
      rcases List.mem_cons.mp member with rfl | member
      · omega
      · have inner := ih later tlv member
        omega

theorem laid_apart : ∀ {start finish : Nat}, Laid byteAt pNode start given finish →
    given.Pairwise fun tlv later => tlv.ptr + tlv.len.toNat ≤ later.ptr := by
  induction given with
  | nil => exact fun _ => List.Pairwise.nil
  | cons first rest ih =>
      intro start finish laid
      obtain ⟨place, -, later⟩ := laid
      apply List.Pairwise.cons
      · intro tlv member
        have inner := laid_inside later tlv member
        omega
      · exact ih later

/-- Memory that is the same between the offsets holds the same TLVs. -/
theorem laid_congr : ∀ {start finish : Nat}, Laid byteAt pNode start given finish →
    (∀ place, pNode + start ≤ place → place < pNode + finish → byteAt' place = byteAt place) →
      Laid byteAt' pNode start given finish := by
  induction given with
  | nil => exact fun same _ => same
  | cons first rest ih =>
      intro start finish laid same
      obtain ⟨place, header, later⟩ := laid
      have reached := laid_start_le later
      refine ⟨place, ?_, ih later fun place after before => same place (by omega) before⟩
      rw [← header]
      apply read_bytes_congr
      intro byte after before
      exact same byte after (by omega)

/-- A store behind a pointer that was given does not touch the headers. -/
theorem laid_store {ptr : Nat} {src : List UInt8} : ∀ {start finish : Nat},
    Laid byteAt pNode start given finish →
      (∃ tlv ∈ given, tlv.ptr ≤ ptr ∧ ptr + src.length ≤ tlv.ptr + tlv.len.toNat) →
        Laid (writeBytes byteAt ptr src) pNode start given finish := by
  induction given with
  | nil =>
      intro start finish laid fair
      obtain ⟨tlv, member, -⟩ := fair
      cases member
  | cons first rest ih =>
      intro start finish laid fair
      obtain ⟨place, header, later⟩ := laid
      obtain ⟨tlv, member, lower, upper⟩ := fair
      have behind : pNode + start + TLV_SIZE ≤ ptr := by
        rcases List.mem_cons.mp member with rfl | member
        · omega
        · have inner := (laid_inside later tlv member).1
          omega
      refine ⟨place, ?_, ?_⟩
      · rw [read_write_apart _ _ _ _ _ (Or.inl behind)]
        exact header
      · rcases List.mem_cons.mp member with rfl | member
        · -- the rest lies behind the area
          apply laid_congr later
          intro byte after before
          simp only [writeBytes]
          rw [if_neg (by omega)]
        · exact ih later ⟨tlv, member, lower, upper⟩

theorem laid_snoc {tlv : Given} : ∀ {start finish : Nat}, Laid byteAt pNode start given finish →
    tlv.ptr = pNode + finish + TLV_SIZE →
    readBytes byteAt (pNode + finish) TLV_SIZE = tlvBytes tlv.type.toNat tlv.len.toNat →
      Laid byteAt pNode start (given ++ [tlv]) (finish + TLV_SIZE + tlv.len.toNat) := by
  induction given with
  | nil =>
      intro start finish laid place header
      obtain rfl : start = finish := laid
      exact ⟨place, header, rfl⟩
  | cons first rest ih =>
      intro start finish laid place header
      exact ⟨laid.1, laid.2.1, ih laid.2.2 place header⟩

/-- What the loop reads of a header. -/
theorem header_words {ptr : Nat} {type len : UInt32}
    (header : readBytes byteAt ptr TLV_SIZE = tlvBytes type.toNat len.toNat) :
    fromLe (readBytes byteAt ptr 4) = type.toNat ∧
      fromLe (readBytes byteAt (ptr + 4) 4) = len.toNat := by
  have halves : readBytes byteAt ptr 4 ++ readBytes byteAt (ptr + 4) 4 =
      le32 type.toNat ++ le32 len.toNat := by
    rw [← read_bytes_append]
    exact header
  obtain ⟨first, second⟩ := List.append_inj halves (by simp)
  rw [first, second]
  exact ⟨from_le_le32 _ type.toNat_lt, from_le_le32 _ len.toNat_lt⟩

/-- The loop finds the first TLV of the type. -/
theorem tlv_loop_laid (type : UInt32) {fuel : Nat} : ∀ {given : List Given} {start : Nat},
    Laid shm.byteAt pNode start given (shm.nifo pNode).lastoffset →
      (shm.nifo pNode).lastoffset ≤ start + fuel →
        tlvLoop shm pNode type (fuel + 1) start =
          some ((given.find? fun tlv => tlv.type = type).map fun tlv => tlv.ptr - TLV_SIZE) := by
  induction fuel with
  | zero =>
      intro given start laid enough
      have reached := laid_start_le laid
      cases given with
      | nil =>
          rw [tlvLoop, if_neg (by omega)]
          rfl
      | cons tlv rest =>
          have later := laid_start_le laid.2.2
          simp only [TLV_SIZE] at later
          omega
  | succ fuel ih =>
      intro given start laid enough
      cases given with
      | nil =>
          obtain rfl : start = (shm.nifo pNode).lastoffset := laid
          rw [tlvLoop, if_neg (Nat.lt_irrefl _)]
          rfl
      | cons tlv rest =>
          obtain ⟨place, header, later⟩ := laid
          have reached := laid_start_le later
          obtain ⟨typeWord, lenWord⟩ := header_words header
          have more : start < (shm.nifo pNode).lastoffset := by
            simp only [TLV_SIZE] at reached
            omega
          rw [tlvLoop, if_pos more, typeWord, lenWord]
          by_cases same : tlv.type = type
          · have word : tlv.type.toNat = type.toNat := congrArg UInt32.toNat same
            rw [if_pos word, List.find?_cons_of_pos (by simpa using same), Option.map_some, place,
              Nat.add_sub_cancel]
          · have word : ¬tlv.type.toNat = type.toNat := fun same' => same (UInt32.toNat_inj.mp same')
            rw [if_neg word, List.find?_cons_of_neg (by simpa using same)]
            apply ih later
            simp only [TLV_SIZE]
            omega

end Loop

section Runs

/-- What a node of `maxoffset` bytes owes to the callers that TLVs were given to. -/
structure Serves (pNode maxoffset : Nat) (shm : MemsInfo) (given : List Given) : Prop where
  count : (shm.nifo pNode).cnt = given.length
  lower : NIFO_SIZE ≤ (shm.nifo pNode).lastoffset
  upper : (shm.nifo pNode).lastoffset ≤ maxoffset
  apart : given.Pairwise fun tlv later => tlv.ptr + tlv.len.toNat ≤ later.ptr
  inside : ∀ tlv ∈ given, pNode + NIFO_SIZE ≤ tlv.ptr ∧
    tlv.ptr + tlv.len.toNat ≤ pNode + maxoffset
  refused : ∀ type len memset, (nifoTlvAlloc shm pNode type len memset).1 = none →
    (nifoTlvAlloc shm pNode type len memset).2 = shm
  value : ∀ type, nifoGetValue shm type pNode =
    some ((given.find? fun tlv => tlv.type = type).map Given.ptr)
  header : ∀ type, nifoGetTlv shm type pNode =
    some ((given.find? fun tlv => tlv.type = type).map fun tlv => tlv.ptr - TLV_SIZE)

/-- The node holds what was given. -/
structure NodeHolds (pNode maxoffset : Nat) (state : MemsInfo × List Given) : Prop where
  count : (state.1.nifo pNode).cnt = state.2.length
  bounded : (state.1.nifo pNode).lastoffset ≤ maxoffset
  max : (state.1.nifo pNode).maxoffset = maxoffset
  laid : Laid state.1.byteAt pNode NIFO_SIZE state.2 (state.1.nifo pNode).lastoffset

variable {pNode maxoffset : Nat} {state : MemsInfo × List Given}

theorem tlv_alloc_refused (shm : MemsInfo) (type len : UInt32) (memset : Bool)
    (refused : (nifoTlvAlloc shm pNode type len memset).1 = none) :
    (nifoTlvAlloc shm pNode type len memset).2 = shm := by
  unfold nifoTlvAlloc at refused ⊢
  dsimp only at refused ⊢
  split at refused
  · next full => rw [if_pos full]
  · cases refused

theorem node_holds_serves (holds : NodeHolds pNode maxoffset state) :
    Serves pNode maxoffset state.1 state.2 := by
  have places := laid_inside holds.laid
  have found : ∀ type, nifoGetTlv state.1 type pNode =
      some ((state.2.find? fun tlv => tlv.type = type).map fun tlv => tlv.ptr - TLV_SIZE) := by
    intro type
    rw [nifoGetTlv]
    apply tlv_loop_laid type holds.laid
    exact Nat.le_add_left _ _
  constructor
  · exact holds.count
  · exact laid_start_le holds.laid
  · exact holds.bounded
  · exact laid_apart holds.laid
  · intro tlv member
    have bounds := places tlv member
    have bounded := holds.bounded
    omega
  · exact fun type len memset => tlv_alloc_refused state.1 type len memset
  · intro type
    have header := found type
    rw [nifoGetTlv] at header
    rw [nifoGetValue, header, Option.map_some, Option.map_map]
    congr 1
    cases first : state.2.find? fun tlv => tlv.type = type with
    | none => rfl
    | some tlv =>
        have bounds := places tlv (List.mem_of_find?_eq_some first)
        simp only [Option.map_some, Function.comp_apply, Option.some.injEq]
        omega
  · exact found

/-- A TLV behind the others. -/
theorem given_holds (holds : NodeHolds pNode maxoffset state) {byteAt : Nat → UInt8}
    {type len : UInt32}
    (fits : (state.1.nifo pNode).lastoffset + TLV_SIZE + len.toNat ≤ maxoffset)
    (header : readBytes byteAt (pNode + (state.1.nifo pNode).lastoffset) TLV_SIZE =
      tlvBytes type.toNat len.toNat)
    (before : ∀ place < pNode + (state.1.nifo pNode).lastoffset,
      byteAt place = state.1.byteAt place) :
    NodeHolds pNode maxoffset
      ({ state.1 with
          byteAt := byteAt
          nifo := Function.update state.1.nifo pNode
            { state.1.nifo pNode with
              cnt := (state.1.nifo pNode).cnt + 1
              lastoffset := (state.1.nifo pNode).lastoffset + (TLV_SIZE + len.toNat) } },
        state.2 ++ [⟨type, len, pNode + (state.1.nifo pNode).lastoffset + TLV_SIZE⟩]) := by
  have kept := laid_congr holds.laid fun place _ behind => before place behind
  have count := holds.count
  constructor
  · simp [count]
  · simp only [Function.update_self]
    omega
  · simp only [Function.update_self]
    exact holds.max
  · simp only [Function.update_self, ← Nat.add_assoc]
    exact laid_snoc kept rfl header

theorem deed_holds (holds : NodeHolds pNode maxoffset state) (deed : Deed)
    (fair : deed.Fair state.2) : NodeHolds pNode maxoffset (deed.run pNode state) := by
  cases deed with
  | store ptr src =>
      exact ⟨holds.count, holds.bounded, holds.max, laid_store holds.laid fair⟩
  | alloc type len memset =>
      rw [Deed.run, nifoTlvAlloc]
      dsimp only
      by_cases full : (state.1.nifo pNode).maxoffset <
          (state.1.nifo pNode).lastoffset + TLV_SIZE + len.toNat
      · rw [if_pos full]
        exact holds
      · rw [if_neg full]
        have max := holds.max
        apply given_holds holds (by omega)
        · -- the zeros of the memset lie behind the header
          have header : readBytes (writeBytes state.1.byteAt
              (pNode + (state.1.nifo pNode).lastoffset) (tlvBytes type.toNat len.toNat))
                (pNode + (state.1.nifo pNode).lastoffset) TLV_SIZE =
                  tlvBytes type.toNat len.toNat :=
            read_write_same _ _ (tlvBytes type.toNat len.toNat)
          cases memset with
          | false => exact header
          | true =>
              rw [if_pos rfl, read_write_apart _ _ _ _ _ (Or.inl (Nat.le_refl _))]
              exact header
        · intro place before
          have outside : ¬(pNode + (state.1.nifo pNode).lastoffset ≤ place ∧
              place < pNode + (state.1.nifo pNode).lastoffset +
                (tlvBytes type.toNat len.toNat).length) := by omega
          cases memset with
          | false =>
              show writeBytes _ _ _ place = _
              rw [writeBytes, if_neg outside]
          | true =>
              show writeBytes _ _ _ place = _
              rw [writeBytes, if_neg (by omega), writeBytes, if_neg outside]

theorem deeds_hold (deeds : List Deed) : ∀ {state : MemsInfo × List Given},
    NodeHolds pNode maxoffset state → FairDeeds pNode state deeds →
      NodeHolds pNode maxoffset (runDeeds pNode state deeds) := by
  induction deeds with
  | nil => exact fun holds _ => holds
  | cons deed rest ih =>
      intro state holds fair
      exact ih (deed_holds holds deed fair.1) fair.2

/-- A node that was just allocated, with room for its `NIFO`, holds nothing. -/
theorem fresh_holds {shm shm' : MemsInfo} {procID zoneID : Nat} {zone : MemsZone} (wf : PoolWf shm)
    (mapped : shm.uiMatrixZoneID procID = zoneID) (found : shm.stMEMSZONE[zoneID]? = some zone)
    (wide : NIFO_SIZE ≤ zone.uiMemNodeBodySize)
    (allocated : nifoNodeAlloc shm procID = (some pNode, shm')) :
    NodeHolds pNode zone.uiMemNodeBodySize (shm', []) := by
  have step := nifo_node_alloc_spec wf mapped found allocated
  have nifo : shm'.nifo pNode =
      { nodeFrom := 0
        nodeTo := 0
        cnt := 0
        lastoffset := NIFO_SIZE
        maxoffset := zone.uiMemNodeBodySize } := by
    rw [step.nifo, Function.update_self]
  constructor
  · rw [nifo]
    rfl
  · rw [nifo]
    exact wide
  · rw [nifo]
  · rw [nifo]
    rfl

/-- From a new node with room for its `NIFO` on, whatever the calls and the stores of the callers,
lookups find the first TLV of a type that was given. -/
theorem lookup_finds_given {shm shm' : MemsInfo} {procID zoneID : Nat} {zone : MemsZone}
    (wf : PoolWf shm) (mapped : shm.uiMatrixZoneID procID = zoneID)
    (found : shm.stMEMSZONE[zoneID]? = some zone) (wide : NIFO_SIZE ≤ zone.uiMemNodeBodySize)
    (allocated : nifoNodeAlloc shm procID = (some pNode, shm')) {deeds : List Deed}
    (fair : FairDeeds pNode (shm', []) deeds) :
    Serves pNode zone.uiMemNodeBodySize (runDeeds pNode (shm', []) deeds).1
      (runDeeds pNode (shm', []) deeds).2 :=
  node_holds_serves (deeds_hold deeds (fresh_holds wf mapped found wide allocated) fair)

/-- In a body of 72 bytes there is room for one TLV without a value, and not for another. -/
theorem lookup_finds_given_small :
    Serves 4796 72
      (runDeeds 4796 ((nifoNodeAlloc smallPool 0).2, []) [.alloc 5 0 true, .alloc 5 1 false]).1
      (runDeeds 4796 ((nifoNodeAlloc smallPool 0).2, []) [.alloc 5 0 true, .alloc 5 1 false]).2 := by
  have found : smallPool.stMEMSZONE[0]? = some ⟨0, 72, 4, 4760, 5192⟩ := by decide
  have wide : NIFO_SIZE ≤ 72 := by decide
  have allocated : nifoNodeAlloc smallPool 0 = (some 4796, (nifoNodeAlloc smallPool 0).2) :=
    Prod.ext nine_bytes_written.1 rfl
  exact lookup_finds_given small_pool_wf rfl found wide allocated ⟨trivial, trivial, trivial⟩

/-- A process mapped to a zone whose bodies are shorter than a `NIFO`. -/
def narrowConf : NifoConf :=
  { unreadConf with
    uiZoneCnt := 1
    stMEMSZONECONF := Function.update unreadConf.stMEMSZONECONF 0 ⟨⟨0, 32, 2⟩, 0, 1⟩
    uiMatrixZoneID := fun _ => 0 }

def narrowPool : MemsInfo := (memsInit narrowConf.toMemsConf zeroSegment).get (by decide)

/-- `lastoffset` of a new node is behind its `maxoffset`. -/
theorem narrow_node_overfull :
    zoneLines { unreadConf with uiMatrixZoneID := fun _ => 0 }
        [lineTokens ["0", "0", "1", "32", "2"]] = .ok narrowConf ∧
      memsInit narrowConf.toMemsConf zeroSegment = some narrowPool ∧
      (nifoNodeAlloc narrowPool 0).1 = some 4796 ∧
      ((nifoNodeAlloc narrowPool 0).2.nifo 4796).lastoffset = 64 ∧
      ((nifoNodeAlloc narrowPool 0).2.nifo 4796).maxoffset = 32 ∧
      ¬Serves 4796 32 (nifoNodeAlloc narrowPool 0).2 [] := by
  have last : ((nifoNodeAlloc narrowPool 0).2.nifo 4796).lastoffset = 64 := by decide +kernel
  refine ⟨rfl, (Option.some_get _).symm, by decide +kernel, last, by decide +kernel, ?_⟩
  intro serves
  have upper := serves.upper
  rw [last] at upper
  exact absurd upper (by decide)

end Runs

end Upst.Nifo
