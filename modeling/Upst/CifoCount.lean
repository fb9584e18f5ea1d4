import Upst.CifoReaders

/-!
What a channel reports of its cells. A write is refused while one cell is still unused, so a
channel of `uiCellCnt` cells takes one write less than `cifo_free_count` says.
-/

namespace Upst.Cifo

open Mems Nifo CifoReaders Interleave

set_option autoImplicit false

section Reports

/-- The channels of the segment, those that are not configured as the system leaves them. -/
def StCifo.chanAt (cifo : StCifo) (uiChID : Nat) : Option Chan :=
  if uiChID < MAX_CHAN_CNT then some (cifo.stCHAN.getD uiChID zeroChan) else none

/-- The arguments are `S64`, the result is cut to `U32`. -/
def cifoGetCount (llWPos llRPos llTotCnt : Int) : Nat :=
  if llWPos - llRPos ≥ 0 then ((llWPos - llRPos) % 2 ^ 32).toNat
  else ((llTotCnt + (llWPos - llRPos)) % 2 ^ 32).toNat

def cifoUsedCount (cifo : StCifo) (uiChID : Nat) : Option Nat :=
  (cifo.chanAt uiChID).map fun chan => cifoGetCount chan.wCellPos chan.rCellPos chan.uiCellCnt

def cifoFreeCount (cifo : StCifo) (uiChID : Nat) : Option Nat := do
  let chan ← cifo.chanAt uiChID
  let used ← cifoUsedCount cifo uiChID
  some (u32Sub chan.uiCellCnt used)

/-- What the writes of the nodes return, one after the other, while nobody reads. -/
def writeCodes (uiChID : Nat) : MemsInfo → StCifo → List Nat → Option (List Int)
  | _, _, [] => some []
  | shm, cifo, offset :: rest => do
      let (code, shm, cifo) ← cifoWrite shm cifo uiChID offset
      let codes ← writeCodes uiChID shm cifo rest
      some (code :: codes)

/-- The channel takes `count` of the nodes and refuses the one after them. -/
def Takes (shm : MemsInfo) (cifo : StCifo) (uiChID count : Nat) (offsets : List Nat) : Prop :=
  (∀ offset ∈ offsets, 0 < offset) ∧
    writeCodes uiChID shm cifo offsets = some (List.replicate count 1 ++ [-2])

/-- `cifo_free_count` is the number of writes that the channel takes. -/
def FreeCountExact (shm : MemsInfo) (cifo : StCifo) (uiChID : Nat) : Prop :=
  ∃ count offsets, cifoFreeCount cifo uiChID = some count ∧ Takes shm cifo uiChID count offsets

end Reports

section Runs

/-- A call on one of the channels, or the work of anybody on the nodes. -/
inductive Request where
  | write (uiChID offset : Nat)
  | read (uiChID : Nat)
  | setBuffcnt (uiChID : Nat) (uiBuffCnt : UInt32) (uiRWFlag : Int)
  | nodes (shm : MemsInfo)

def serve (state : MemsInfo × StCifo) : Request → Option (MemsInfo × StCifo)
  | .write uiChID offset => (cifoWrite state.1 state.2 uiChID offset).map Prod.snd
  | .read uiChID => (cifoRead state.1 state.2 uiChID).map Prod.snd
  | .setBuffcnt uiChID uiBuffCnt uiRWFlag =>
      (cifoSetBuffcnt state.2 uiChID uiBuffCnt.toNat uiRWFlag).map fun result =>
        (state.1, result.2)
  | .nodes shm => some (shm, state.2)

end Runs

section Positions

/-- The positions are cells of the channel, and no counter is about to wrap. -/
structure Fit (chan : Chan) : Prop where
  cells : chan.uiCellCnt < 2 ^ 32
  readPos : chan.rCellPos < chan.uiCellCnt
  writePos : chan.wCellPos < chan.uiCellCnt
  count : chan.uiWCnt + 1 < 2 ^ 32
  limit : chan.uiWBuffCnt < 2 ^ 32

/-- The channels are those of the configuration, and fit. -/
def Kept (conf : CifoConf) (cifo : StCifo) : Prop :=
  ∀ (uiChID : Nat) (chan : Chan), cifo.stCHAN[uiChID]? = some chan → Fit chan ∧
    ∃ entry, conf.stCHANCONF[uiChID]? = some entry ∧ chan.uiCellCnt = entry.uiCellCnt

variable {conf : CifoConf} {cifo cifo' : StCifo} {shm shm' : MemsInfo} {chan chan' : Chan}
  {uiChID offset : Nat} {code : Int}

theorem next_pos_lt (fit : Fit chan) (pos : Nat) : chan.nextPos pos < chan.uiCellCnt :=
  Nat.mod_lt _ (Nat.zero_lt_of_lt fit.readPos)

theorem next_pos_cases (fit : Fit chan) {pos : Nat} (bound : pos < chan.uiCellCnt) :
    chan.nextPos pos = if pos + 1 = chan.uiCellCnt then 0 else pos + 1 := by
  have cells := fit.cells
  have small : u32 (pos + 1) = pos + 1 := Nat.mod_eq_of_lt (by omega)
  rw [Chan.nextPos, small]
  split
  · next last => rw [last, Nat.mod_self]
  · next inner => exact Nat.mod_eq_of_lt (by omega)

theorem set_chan_kept (kept : Kept conf cifo) (found : cifo.stCHAN[uiChID]? = some chan)
    (fit : Fit chan') (same : chan'.uiCellCnt = chan.uiCellCnt) (cell : Nat → Nat) :
    Kept conf { stCHAN := cifo.stCHAN.set uiChID chan', cell := cell } := by
  intro otherID other found'
  by_cases own : uiChID = otherID
  · subst own
    have listed : uiChID < cifo.stCHAN.length := (List.getElem?_eq_some_iff.mp found).1
    obtain rfl : chan' = other := by
      rw [List.getElem?_set_self listed] at found'
      exact Option.some.inj found'
    obtain ⟨-, entry, configured, cells⟩ := kept uiChID chan found
    exact ⟨fit, entry, configured, same.trans cells⟩
  · rw [List.getElem?_set_ne own] at found'
    exact kept otherID other found'

theorem write_kept (kept : Kept conf cifo)
    (wrote : cifoWrite shm cifo uiChID offset = some (code, shm', cifo')) : Kept conf cifo' := by
  cases found : cifo.stCHAN[uiChID]? with
  | none =>
      simp only [cifoWrite, found, Option.some.injEq, Prod.mk.injEq] at wrote
      rw [← wrote.2.2]
      exact kept
  | some chan =>
      obtain ⟨fit, -⟩ := kept uiChID chan found
      have empty : 0 + 1 < 2 ^ 32 := by decide
      rcases write_cases found wrote with ⟨-, -, -, -, rfl⟩ | ⟨-, -, flush⟩
      · exact kept
      · rw [buffer_chan] at flush
        rcases flush_cases flush with ⟨-, -, rfl⟩ | ⟨-, -, rfl⟩ | ⟨waits, rfl⟩
        · apply set_chan_kept kept found
          · exact ⟨fit.cells, fit.readPos, next_pos_lt fit _, empty, fit.limit⟩
          · rfl
        · apply set_chan_kept kept found
          · exact ⟨fit.cells, fit.readPos, fit.writePos, empty, fit.limit⟩
          · rfl
        · apply set_chan_kept kept found
          · exact ⟨fit.cells, fit.readPos, fit.writePos, Nat.lt_of_le_of_lt waits fit.limit, fit.limit⟩
          · rfl

theorem read_loop_fit {cell : Nat → Nat} {curWritePos pHead pHead' : Nat} (rounds : Nat)
    (fit : Fit chan)
    (looped : cifoReadLoop cell curWritePos rounds shm chan pHead = some (shm', chan', pHead')) :
    Fit chan' ∧ chan'.uiCellCnt = chan.uiCellCnt := by
  revert shm chan pHead
  induction rounds with
  | zero =>
      intro shm chan pHead fit looped
      cases looped
      exact ⟨fit, rfl⟩
  | succ rounds ih =>
      intro shm chan pHead fit looped
      have moved : Fit { chan with rCellPos := chan.nextPos chan.rCellPos } :=
        ⟨fit.cells, next_pos_lt fit _, fit.writePos, fit.count, fit.limit⟩
      simp only [cifoReadLoop] at looped
      split at looped
      · cases looped
        exact ⟨fit, rfl⟩
      · split at looped
        · split at looped
          · have later := ih moved looped
            exact later
          · have later := ih moved looped
            exact later
        · cases looped

theorem read_kept (kept : Kept conf cifo)
    (took : cifoRead shm cifo uiChID = some (code, shm', cifo')) : Kept conf cifo' := by
  cases found : cifo.stCHAN[uiChID]? with
  | none =>
      simp only [cifoRead, found, Option.some.injEq, Prod.mk.injEq] at took
      rw [← took.2.2]
      exact kept
  | some chan =>
      simp only [cifoRead, found] at took
      obtain ⟨⟨shm₁, chan₁, pHead⟩, looped, same⟩ := Option.map_eq_some_iff.mp took
      cases same
      obtain ⟨fit, cells⟩ := read_loop_fit _ (kept uiChID chan found).1 looped
      exact set_chan_kept kept found fit cells _

theorem set_buffcnt_kept (kept : Kept conf cifo) {uiBuffCnt : Nat} (small : uiBuffCnt < 2 ^ 32)
    {uiRWFlag : Int}
    (changed : cifoSetBuffcnt cifo uiChID uiBuffCnt uiRWFlag = some (code, cifo')) :
    Kept conf cifo' := by
  unfold cifoSetBuffcnt at changed
  split at changed
  · cases changed
    exact kept
  · cases found : cifo.stCHAN[uiChID]? with
    | none =>
        rw [found] at changed
        cases changed
    | some chan =>
        obtain ⟨fit, -⟩ := kept uiChID chan found
        rw [found] at changed
        dsimp only at changed
        split at changed
        · cases changed
          apply set_chan_kept kept found
          · exact ⟨fit.cells, fit.readPos, fit.writePos, fit.count, fit.limit⟩
          · rfl
        · split at changed
          · cases changed
            apply set_chan_kept kept found
            · exact ⟨fit.cells, fit.readPos, fit.writePos, fit.count, small⟩
            · rfl
          · cases changed
            exact kept

theorem serve_kept {state state' : MemsInfo × StCifo} (kept : Kept conf state.2)
    (request : Request) (served : serve state request = some state') : Kept conf state'.2 := by
  cases request with
  | write uiChID offset =>
      obtain ⟨⟨code, shm, cifo⟩, wrote, rfl⟩ := Option.map_eq_some_iff.mp served
      exact write_kept kept wrote
  | read uiChID =>
      obtain ⟨⟨code, shm, cifo⟩, took, rfl⟩ := Option.map_eq_some_iff.mp served
      exact read_kept kept took
  | setBuffcnt uiChID uiBuffCnt uiRWFlag =>
      obtain ⟨⟨code, cifo⟩, changed, rfl⟩ := Option.map_eq_some_iff.mp served
      exact set_buffcnt_kept kept uiBuffCnt.toNat_lt changed
  | nodes shm =>
      cases served
      exact kept

end Positions

section Counts

variable {cifo : StCifo} {shm : MemsInfo} {chan : Chan} {uiChID : Nat}

/-- The number of unread cells. -/
def Chan.used (chan : Chan) : Nat :=
  if chan.rCellPos ≤ chan.wCellPos then chan.wCellPos - chan.rCellPos
  else chan.uiCellCnt + chan.wCellPos - chan.rCellPos

theorem used_lt (fit : Fit chan) : chan.used < chan.uiCellCnt := by
  have readPos := fit.readPos
  have writePos := fit.writePos
  unfold Chan.used
  split <;> omega

theorem full_iff (fit : Fit chan) :
    chan.nextPos chan.wCellPos = chan.rCellPos ↔ chan.used + 1 = chan.uiCellCnt := by
  have readPos := fit.readPos
  have writePos := fit.writePos
  rw [next_pos_cases fit fit.writePos]
  unfold Chan.used
  split_ifs <;> omega

/-- One write on, one more cell is unread, where the ring does not close. -/
theorem used_next (fit : Fit chan) (room : chan.nextPos chan.wCellPos ≠ chan.rCellPos)
    {moved : Chan} (cells : moved.uiCellCnt = chan.uiCellCnt)
    (readPos' : moved.rCellPos = chan.rCellPos)
    (writePos' : moved.wCellPos = chan.nextPos chan.wCellPos) : moved.used = chan.used + 1 := by
  have readPos := fit.readPos
  have writePos := fit.writePos
  rw [next_pos_cases fit fit.writePos] at room writePos'
  unfold Chan.used
  rw [cells, readPos', writePos']
  split_ifs at room ⊢ <;> omega

theorem chan_at (found : cifo.stCHAN[uiChID]? = some chan) (table : uiChID < MAX_CHAN_CNT) :
    cifo.chanAt uiChID = some chan := by
  rw [StCifo.chanAt, if_pos table, List.getD_eq_getElem?_getD, found]
  rfl

theorem used_count_eq (fit : Fit chan) (found : cifo.stCHAN[uiChID]? = some chan)
    (table : uiChID < MAX_CHAN_CNT) : cifoUsedCount cifo uiChID = some chan.used := by
  have cells := fit.cells
  have readPos := fit.readPos
  have writePos := fit.writePos
  rw [cifoUsedCount, chan_at found table, Option.map_some]
  congr 1
  unfold cifoGetCount Chan.used
  split_ifs <;> omega

theorem free_count_eq (fit : Fit chan) (found : cifo.stCHAN[uiChID]? = some chan)
    (table : uiChID < MAX_CHAN_CNT) :
    cifoFreeCount cifo uiChID = some (chan.uiCellCnt - chan.used) := by
  have cells := fit.cells
  have below := used_lt fit
  rw [cifoFreeCount, chan_at found table, used_count_eq fit found table]
  simp only [Option.bind_eq_bind, Option.bind_some, u32Sub, Option.some.injEq]
  omega

/-- With a cell for every write, a node is either refused, when one cell is unused, or takes a
cell of the channel. -/
theorem single_write {shm' : MemsInfo} {cifo' : StCifo} {offset : Nat} {code : Int}
    (fit : Fit chan) (single : chan.uiWBuffCnt = 1) (found : cifo.stCHAN[uiChID]? = some chan)
    (node : 0 < offset) (wrote : cifoWrite shm cifo uiChID offset = some (code, shm', cifo')) :
    (chan.used + 1 = chan.uiCellCnt ∧ code = -2) ∨
    (chan.used + 1 ≠ chan.uiCellCnt ∧ code = 1 ∧ ∃ chan', cifo'.stCHAN[uiChID]? = some chan' ∧
      Fit chan' ∧ chan'.uiWBuffCnt = 1 ∧ chan'.uiCellCnt = chan.uiCellCnt ∧
        chan'.used = chan.used + 1 ∧ (Layout chan → Layout chan')) := by
  have listed : uiChID < cifo.stCHAN.length := (List.getElem?_eq_some_iff.mp found).1
  have count := fit.count
  have counted : u32 (chan.uiWCnt + 1) ≥ chan.uiWBuffCnt := by
    rw [single, u32, Nat.mod_eq_of_lt count]
    omega
  have some : 0 < if 0 < chan.wOffset then chan.wOffset else offset := by
    split
    · next waiting => exact waiting
    · exact node
  rcases write_cases found wrote with ⟨full, -, rfl, -, -⟩ | ⟨room, rfl, flush⟩
  · exact Or.inl ⟨(full_iff fit).mp full, rfl⟩
  · have open' : chan.nextPos chan.wCellPos ≠ chan.rCellPos := fun full => room ⟨full, counted⟩
    rw [buffer_chan] at flush
    rcases flush_cases flush with ⟨-, -, rfl⟩ | ⟨-, nothing, -⟩ | ⟨waits, -⟩
    · refine Or.inr ⟨fun last => open' ((full_iff fit).mpr last), rfl, _,
        List.getElem?_set_self listed, ?_, single, rfl, used_next fit open' rfl rfl rfl, ?_⟩
      · exact ⟨fit.cells, fit.readPos, next_pos_lt fit _, Nat.lt_of_le_of_lt (Nat.le_add_left _ _) count,
          fit.limit⟩
      · exact fun layout => ⟨layout.populated, layout.wide, layout.inside⟩
    · exact absurd nothing (Nat.ne_of_gt some)
    · exact absurd waits (Nat.not_lt_of_ge counted)

/-- The writes that a channel takes leave one cell unused. -/
theorem takes_leaves {count : Nat} : ∀ {shm : MemsInfo} {cifo : StCifo} {chan : Chan}
    {offsets : List Nat}, Fit chan → chan.uiWBuffCnt = 1 → cifo.stCHAN[uiChID]? = some chan →
      Takes shm cifo uiChID count offsets → chan.used + count + 1 = chan.uiCellCnt := by
  induction count with
  | zero =>
      intro shm cifo chan offsets fit single found takes
      obtain ⟨nodes, codes⟩ := takes
      cases offsets with
      | nil => cases codes
      | cons offset rest =>
          obtain ⟨⟨code, shm', cifo'⟩, wrote, later⟩ := Option.bind_eq_some_iff.mp codes
          obtain ⟨others, -, same⟩ := Option.bind_eq_some_iff.mp later
          obtain rfl : code = -2 := (List.cons.inj (Option.some.inj same)).1
          rcases single_write fit single found (nodes offset (by simp)) wrote with
            ⟨full, -⟩ | ⟨-, impossible, -⟩
          · exact full
          · exact absurd impossible (by decide)
  | succ count ih =>
      intro shm cifo chan offsets fit single found takes
      obtain ⟨nodes, codes⟩ := takes
      cases offsets with
      | nil => cases codes
      | cons offset rest =>
          obtain ⟨⟨code, shm', cifo'⟩, wrote, later⟩ := Option.bind_eq_some_iff.mp codes
          obtain ⟨others, ran, same⟩ := Option.bind_eq_some_iff.mp later
          obtain ⟨rfl, rfl⟩ := List.cons.inj (Option.some.inj same)
          rcases single_write fit single found (nodes offset (by simp)) wrote with
            ⟨-, impossible⟩ | ⟨-, -, chan', found', fit', single', cells, used, -⟩
          · exact absurd impossible (by decide)
          · have left := ih fit' single' found'
              ⟨fun other member => nodes other (by simp [member]), ran⟩
            omega

/-- Where the cells lie in the segment, a write returns. -/
theorem write_returns (layout : Layout chan) (fit : Fit chan)
    (found : cifo.stCHAN[uiChID]? = some chan) (shm : MemsInfo) (offset : Nat) :
    ∃ code shm' cifo', cifoWrite shm cifo uiChID offset = some (code, shm', cifo') := by
  have inside := (layout_cell layout fit.writePos).2
  simp only [cifoWrite, found]
  split
  · exact ⟨-2, shm, cifo, rfl⟩
  · rw [buffer_chan]
    unfold cifoFlush
    dsimp only
    by_cases full : u32 (chan.uiWCnt + 1) ≥ chan.uiWBuffCnt
    · rw [if_pos full]
      by_cases some : 0 < if 0 < chan.wOffset then chan.wOffset else offset
      · rw [if_pos some]
        have inside' : Chan.CellInside { chan with
            wOffset := if 0 < chan.wOffset then chan.wOffset else offset
            uiWCnt := u32 (chan.uiWCnt + 1) } chan.wCellPos := inside
        rw [if_pos inside']
        exact ⟨1, _, _, rfl⟩
      · rw [if_neg some]
        exact ⟨1, _, _, rfl⟩
    · rw [if_neg full]
      exact ⟨1, _, _, rfl⟩

/-- And then the channel does take writes until one cell is unused. -/
theorem takes_rest {count : Nat} : ∀ {shm : MemsInfo} {cifo : StCifo} {chan : Chan}
    {offsets : List Nat}, Layout chan → Fit chan → chan.uiWBuffCnt = 1 →
      cifo.stCHAN[uiChID]? = some chan → (∀ offset ∈ offsets, 0 < offset) →
        offsets.length = count + 1 → chan.used + count + 1 = chan.uiCellCnt →
          Takes shm cifo uiChID count offsets := by
  induction count with
  | zero =>
      intro shm cifo chan offsets layout fit single found nodes length left
      refine ⟨nodes, ?_⟩
      obtain ⟨offset, rfl⟩ := List.length_eq_one_iff.mp length
      obtain ⟨code, shm', cifo', wrote⟩ := write_returns layout fit found shm offset
      rcases single_write fit single found (nodes offset (by simp)) wrote with
        ⟨-, rfl⟩ | ⟨open', -⟩
      · rw [writeCodes, wrote]
        rfl
      · exact absurd left open'
  | succ count ih =>
      intro shm cifo chan offsets layout fit single found nodes length left
      refine ⟨nodes, ?_⟩
      cases offsets with
      | nil => cases length
      | cons offset rest =>
          obtain ⟨code, shm', cifo', wrote⟩ := write_returns layout fit found shm offset
          rcases single_write fit single found (nodes offset (by simp)) wrote with
            ⟨full, -⟩ | ⟨-, rfl, chan', found', fit', single', cells, used, layout'⟩
          · omega
          · have others : Takes shm' cifo' uiChID count rest :=
              ih (layout' layout) fit' single' found'
                (fun other member => nodes other (by simp [member])) (Nat.succ.inj length) (by omega)
            rw [writeCodes, wrote]
            simp only [Option.bind_eq_bind, Option.bind_some, others.2]
            rfl

end Counts

section Reached

theorem cifo_chans_start (semget : Nat → Nat) {start index : Nat} {confs : List ChanConf}
    {chan : Chan} (found : (cifoChans semget start confs)[index]? = some chan) :
    chan.uiWCnt = 0 ∧ ∃ entry, confs[index]? = some entry ∧ chan.uiCellCnt = entry.uiCellCnt ∧
      chan.uiWBuffCnt = entry.uiWBuffCnt := by
  induction confs generalizing start index with
  | nil => simp [cifoChans] at found
  | cons conf rest ih =>
      cases index with
      | zero =>
          cases found
          exact ⟨rfl, conf, rfl, rfl, rfl⟩
      | succ index => exact ih found

theorem init_kept {locals : ChanConf} {conf : CifoConf} {lines : List (List (List Char))}
    (table : TableRead locals lines conf) {semget : Nat → Nat} {cifo : StCifo}
    (created : cifoInit semget conf = some cifo) : Kept conf cifo := by
  obtain ⟨spelled, checked⟩ := chan_lines_checked table.read
  rw [List.nil_append] at spelled
  unfold cifoInit at created
  split at created
  · cases created
  · cases created
    intro uiChID chan found
    obtain ⟨readPos, writePos, -⟩ := cifo_chans_get semget found
    obtain ⟨idle, entry, listed, cells, limit⟩ := cifo_chans_start semget found
    have own := checked uiChID entry (by rw [← spelled]; exact listed)
    refine ⟨⟨?_, ?_, ?_, ?_, ?_⟩, entry, listed, cells⟩
    · rw [cells]
      exact own.cellCnt.2
    · rw [readPos, cells]
      exact own.cellCnt.1
    · rw [writePos, cells]
      exact own.cellCnt.1
    · rw [idle]
      decide
    · rw [limit]
      exact own.wBuffCnt.2

/-- In every state with a cell for each write, `cifo_free_count` is one more than the writes that
the channel takes; these and `cifo_used_count` make up all cells but one. -/
theorem free_count_over (locals : ChanConf) (conf : CifoConf) (lines : List (List (List Char)))
    (table : TableRead locals lines conf) (semget : Nat → Nat) (cifo : StCifo)
    (created : cifoInit semget conf = some cifo) (shm : MemsInfo) (requests : List Request)
    (state : MemsInfo × StCifo) (run : requests.foldlM serve (shm, cifo) = some state)
    (uiChID : Nat) (chan : Chan) (found : state.2.stCHAN[uiChID]? = some chan)
    (single : chan.uiWBuffCnt = 1) :
    ¬FreeCountExact state.1 state.2 uiChID ∧
      ∃ entry used, conf.stCHANCONF[uiChID]? = some entry ∧
        cifoUsedCount state.2 uiChID = some used ∧
        (∀ count offsets, Takes state.1 state.2 uiChID count offsets →
          used + count + 1 = entry.uiCellCnt) ∧
        (Layout chan → ∀ count offsets, (∀ offset ∈ offsets, 0 < offset) →
          offsets.length = count + 1 → used + count + 1 = entry.uiCellCnt →
            Takes state.1 state.2 uiChID count offsets) := by
  have keeps : ∀ (before : MemsInfo × StCifo) (request : Request) (after : MemsInfo × StCifo),
      True → serve before request = some after → Kept conf before.2 → Kept conf after.2 :=
    fun _ request _ _ served kept => serve_kept kept request served
  have start : Kept conf (shm, cifo).2 := init_kept table created
  have kept : Kept conf state.2 :=
    run_invariant keeps start (meets_always serve requests (shm, cifo)) run
  obtain ⟨fit, entry, listed, cells⟩ := kept uiChID chan found
  have configured : uiChID < MAX_CHAN_CNT :=
    Nat.lt_of_lt_of_le (List.getElem?_eq_some_iff.mp listed).1 table.fits
  constructor
  · intro exact'
    obtain ⟨count, offsets, free, takes⟩ := exact'
    rw [free_count_eq fit found configured] at free
    obtain rfl := Option.some.inj free
    have left := takes_leaves fit single found takes
    omega
  · refine ⟨entry, chan.used, listed, used_count_eq fit found configured, ?_, ?_⟩
    · intro count offsets takes
      rw [← cells]
      exact takes_leaves fit single found takes
    · intro layout count offsets nodes length left
      rw [← cells] at left
      exact takes_rest layout fit single found nodes length left

def pairLine : List (List Char) :=
  ["0", "2", "8", "1", "1", "0", "1", "0", "2"].map String.toList

theorem free_count_over_pair : ∃ state chan,
    [Request.write 0 5000].foldlM serve (zeroSegment, pairOfCells) = some state ∧
      state.2.stCHAN[0]? = some chan ∧
      ¬FreeCountExact state.1 state.2 0 ∧
        ∃ entry used, (oneChanConf 2 8).stCHANCONF[0]? = some entry ∧
          cifoUsedCount state.2 0 = some used ∧
          (∀ count offsets, Takes state.1 state.2 0 count offsets →
            used + count + 1 = entry.uiCellCnt) ∧
          (Layout chan → ∀ count offsets, (∀ offset ∈ offsets, 0 < offset) →
            offsets.length = count + 1 → used + count + 1 = entry.uiCellCnt →
              Takes state.1 state.2 0 count offsets) :=
  ⟨_, _, rfl, rfl, free_count_over noChanConf (oneChanConf 2 8) [pairLine] ⟨rfl, by decide⟩ id
    pairOfCells (Option.some_get _).symm zeroSegment [.write 0 5000] _ rfl 0 _ rfl rfl⟩

/-- Of two cells that are free, one takes a write. -/
theorem pair_takes_one : chanLines noChanConf [] [pairLine] = .ok (oneChanConf 2 8).stCHANCONF ∧
    cifoInit id (oneChanConf 2 8) = some pairOfCells ∧
    cifoFreeCount pairOfCells 0 = some 2 ∧
    writeCodes 0 zeroSegment pairOfCells [5000, 6000] = some [1, -2] ∧
    ¬FreeCountExact zeroSegment pairOfCells 0 := by
  have free : cifoFreeCount pairOfCells 0 = some 2 := by decide
  refine ⟨rfl, (Option.some_get _).symm, free, by decide +kernel, ?_⟩
  intro exact'
  obtain ⟨count, offsets, reported, takes⟩ := exact'
  obtain rfl : 2 = count := Option.some.inj (free.symm.trans reported)
  have fit : Fit (pairOfCells.stCHAN.get ⟨0, by decide⟩) :=
    ⟨by decide, by decide, by decide, by decide, by decide⟩
  have left := takes_leaves fit (by decide) rfl takes
  revert left
  decide

end Reached

end Upst.Cifo
