import Upst.CifoCount
import Upst.GifoLoad

/-!
What the channel table of an accepted `cifo.conf` says: which semaphores share a key, and where
`cifo_init` puts the cells.
-/

namespace Upst.Cifo

open Mems Nifo Gifo CifoReaders

set_option autoImplicit false

section Text

/-- The tokens of the lines of the channel table. -/
def tableTokens (text : List Char) : List (List (List Char)) :=
  (channelLines text).map fun buf => (strtok '/' buf).map trim

/-- The channels that the text spells. -/
def textChans (text : List Char) : List ChanConf := (tableTokens text).map lineChan

variable {locals : ChanConf} {keys keys' : KeyConf} {chans chans' : List ChanConf}
  {text : List Char}

theorem lines_read (bufs : List (List Char)) : ∀ {chans : List ChanConf},
    bufs.foldlM (cifoChanLine locals) chans = .ok chans' →
      chanLines locals chans (bufs.map fun buf => (strtok '/' buf).map trim) = .ok chans' := by
  induction bufs with
  | nil =>
      intro chans ran
      cases ran
      rfl
  | cons buf rest ih =>
      intro chans ran
      rw [List.foldlM_cons] at ran
      obtain ⟨next, line, later⟩ := bind_ok ran
      obtain ⟨after, stored, line⟩ := bind_ok line
      split at line
      · cases line
        cases read : cifoChanInit locals chans ((strtok '/' buf).map trim) with
        | error dRet =>
            rw [read] at stored
            cases stored
        | ok other =>
            rw [read] at stored
            cases stored
            rw [List.map_cons, chanLines, read]
            exact ih later
      · cases line

theorem table_read (accepted : cifoConfInit keys locals text = .ok (keys', chans)) :
    TableRead locals (tableTokens text) ⟨keys'.uiHeadRoomSize, chans⟩ := by
  obtain ⟨-, length, few⟩ := cifo_conf_ok accepted
  obtain ⟨keys₁, -, ran⟩ := bind_ok accepted
  obtain ⟨chans₁, table, ran⟩ := bind_ok ran
  cases ran
  exact ⟨lines_read _ table, by rw [length]; exact few⟩

/-- The channels are those of the text, each checked against the ones before. -/
theorem text_chans_checked (accepted : cifoConfInit keys locals text = .ok (keys', chans)) :
    chans = textChans text ∧ ∀ index chan, chans[index]? = some chan →
      ChanChecked (chans.take index) chan := by
  obtain ⟨spelled, checked⟩ := chan_lines_checked (table_read accepted).read
  rw [List.nil_append] at spelled
  refine ⟨spelled, ?_⟩
  intro index chan found
  have own := checked index chan (by rw [← spelled]; exact found)
  rw [← spelled, List.nil_append] at own
  exact own

end Text

section Keys

/-- The keys of the semaphores of a channel that are on. -/
def ChanConf.enabledKeys (chan : ChanConf) : List Nat :=
  (if chan.uiWSemFlag = MEMS_SEMA_ON then [chan.uiWSemKey] else []) ++
    if chan.uiRSemFlag = MEMS_SEMA_ON then [chan.uiRSemKey] else []

def enabledKeys (chans : List ChanConf) : List Nat := chans.flatMap ChanConf.enabledKeys

/-- Exactly one semaphore of the channel is on. -/
def ChanConf.Lone (chan : ChanConf) : Prop :=
  ¬(chan.uiWSemFlag = MEMS_SEMA_ON ↔ chan.uiRSemFlag = MEMS_SEMA_ON)

/-- The keys that no check compares differ: those of the two semaphores of one channel, and that
of a channel with one semaphore on and those of the channels after it. -/
structure UncheckedDiffer (chans : List ChanConf) : Prop where
  own : ∀ chan ∈ chans, chan.uiWSemFlag = MEMS_SEMA_ON → chan.uiRSemFlag = MEMS_SEMA_ON →
    chan.uiWSemKey ≠ chan.uiRSemKey
  later : chans.Pairwise fun chan later => chan.Lone →
    List.Disjoint chan.enabledKeys later.enabledKeys

variable {locals : ChanConf} {keys keys' : KeyConf} {chans : List ChanConf} {text : List Char}
  {chan later : ChanConf}

theorem enabled_keys_nodup_iff (chan : ChanConf) : chan.enabledKeys.Nodup ↔
    (chan.uiWSemFlag = MEMS_SEMA_ON → chan.uiRSemFlag = MEMS_SEMA_ON →
      chan.uiWSemKey ≠ chan.uiRSemKey) := by
  unfold ChanConf.enabledKeys
  by_cases write : chan.uiWSemFlag = MEMS_SEMA_ON
  · by_cases read : chan.uiRSemFlag = MEMS_SEMA_ON
    · simp [write, read]
    · simp [write, read]
  · by_cases read : chan.uiRSemFlag = MEMS_SEMA_ON
    · simp [write, read]
    · simp [write, read]

/-- An enabled key of a channel passed the check against the channels before. -/
theorem enabled_key_unused (checked : ChanChecked chans later) {key : Nat}
    (enabled : key ∈ later.enabledKeys) : chanSemKeyTaken chans key = false := by
  rcases List.mem_append.mp enabled with write | read
  · split at write
    · next on =>
        rw [List.mem_singleton.mp write]
        exact checked.wSemKey on
    · cases write
  · split at read
    · next on =>
        rw [List.mem_singleton.mp read]
        exact checked.rSemKey on
    · cases read

/-- The check finds every key of a channel with both semaphores on. -/
theorem both_on_disjoint (checked : ChanChecked chans later) (member : chan ∈ chans)
    (both : ¬chan.Lone) : List.Disjoint chan.enabledKeys later.enabledKeys := by
  intro key enabled enabled'
  have unused := enabled_key_unused checked enabled'
  simp only [chanSemKeyTaken, List.any_eq_false, Bool.or_eq_true, Bool.and_eq_true, beq_iff_eq]
    at unused
  have apart := unused chan member
  have same : chan.uiWSemFlag = MEMS_SEMA_ON ↔ chan.uiRSemFlag = MEMS_SEMA_ON := not_not.mp both
  rcases List.mem_append.mp enabled with write | read
  · split at write
    · next on => exact apart (Or.inr ⟨same.mp on, (List.mem_singleton.mp write).symm⟩)
    · cases write
  · split at read
    · next on => exact apart (Or.inl ⟨same.mpr on, (List.mem_singleton.mp read).symm⟩)
    · cases read

/-- Among channels that passed the checks, the keys in use are distinct exactly where those that
are not compared differ. -/
theorem checked_keys_iff (checked : ∀ (index : Nat) (chan : ChanConf),
    chans[index]? = some chan → ChanChecked (chans.take index) chan) :
    (enabledKeys chans).Nodup ↔ UncheckedDiffer chans := by
  rw [enabledKeys, List.nodup_flatMap]
  constructor
  · intro distinct
    refine ⟨fun chan member => (enabled_keys_nodup_iff chan).mp (distinct.1 chan member), ?_⟩
    apply distinct.2.imp
    intro chan later apart _
    exact apart
  · intro differ
    refine ⟨fun chan member => (enabled_keys_nodup_iff chan).mpr (differ.own chan member), ?_⟩
    apply List.pairwise_iff_getElem.mpr
    intro first second bound bound' before
    by_cases lone : (chans[first]).Lone
    · exact List.pairwise_iff_getElem.mp differ.later first second bound bound' before lone
    · apply both_on_disjoint (checked second _ (List.getElem?_eq_getElem bound')) _ lone
      exact List.mem_take_iff_getElem.mpr ⟨first, by omega, rfl⟩

/-- The keys of an accepted file are distinct exactly where those that the loader does not compare
differ. -/
theorem sem_keys_distinct_iff (accepted : cifoConfInit keys locals text = .ok (keys', chans)) :
    (enabledKeys chans).Nodup ↔ UncheckedDiffer (textChans text) := by
  obtain ⟨spelled, checked⟩ := text_chans_checked accepted
  rw [← spelled]
  exact checked_keys_iff checked

/-- A channel with both semaphores on, and one with the semaphore for writes. -/
def threeKeys : List Char :=
  "uiShmKey = 1\nuiHeadRoomSize = 0\n0/2/8/1/1/1/7/1/8\n1/2/8/1/1/1/9/0/8\n".toList

/-- Two channels whose writers share the key 7. -/
def sharedKey : List Char :=
  "uiShmKey = 1\nuiHeadRoomSize = 0\n0/2/8/1/1/1/7/0/8\n1/2/8/1/1/1/7/0/9\n".toList

def noKeyConf : KeyConf := ⟨0, 0⟩

theorem sem_keys_distinct_three : ∃ keys' chans,
    cifoConfInit noKeyConf noChanConf threeKeys = .ok (keys', chans) ∧
      ((enabledKeys chans).Nodup ↔ UncheckedDiffer (textChans threeKeys)) := by
  have loads : (cifoConfInit noKeyConf noChanConf threeKeys).isOk = true := by decide +kernel
  cases read : cifoConfInit noKeyConf noChanConf threeKeys with
  | error dRet =>
      rw [read] at loads
      cases loads
  | ok result => exact ⟨result.1, result.2, rfl, sem_keys_distinct_iff read⟩

/-- The loader compares the key of the second writer with that of the first reader. -/
theorem shared_key_accepted : ∃ keys' chans,
    cifoConfInit noKeyConf noChanConf sharedKey = .ok (keys', chans) ∧
      enabledKeys chans = [7, 7] ∧ ¬(enabledKeys chans).Nodup := by
  have loads : (cifoConfInit noKeyConf noChanConf sharedKey).map
      (fun result => enabledKeys result.2) = .ok [7, 7] := by decide +kernel
  cases read : cifoConfInit noKeyConf noChanConf sharedKey with
  | error dRet =>
      rw [read] at loads
      cases loads
  | ok result =>
      rw [read] at loads
      have twice : enabledKeys result.2 = [7, 7] := Except.ok.inj loads
      refine ⟨result.1, result.2, rfl, twice, ?_⟩
      rw [twice]
      decide

end Keys

section Cells

/-- The cells of the channels are areas of at least an `OFFSET`, behind the head room and in the
segment, and no two of them overlap. -/
structure CellsApart (uiHeadRoomSize : Nat) (chans : List Chan) : Prop where
  wide : ∀ chan ∈ chans, OFFSET_SIZE ≤ chan.uiCellSize
  behind : ∀ chan ∈ chans, ∀ pos < chan.uiCellCnt,
    st_CIFO_SIZE + uiHeadRoomSize ≤ chan.getCell pos
  inside : ∀ chan ∈ chans, ∀ pos < chan.uiCellCnt,
    chan.getCell pos + chan.uiCellSize ≤ CIFO_SHM_SIZE
  own : ∀ chan ∈ chans, ∀ pos < chan.uiCellCnt, ∀ other < pos,
    chan.getCell other + chan.uiCellSize ≤ chan.getCell pos ∨
      chan.getCell pos + chan.uiCellSize ≤ chan.getCell other
  others : chans.Pairwise fun chan later => ∀ pos < chan.uiCellCnt, ∀ other < later.uiCellCnt,
    chan.getCell pos + chan.uiCellSize ≤ later.getCell other ∨
      later.getCell other + later.uiCellSize ≤ chan.getCell pos

/-- The cells of the channel hold an `OFFSET`, and their size is not cut to `U32`. -/
structure SizeFits (chan : ChanConf) : Prop where
  wide : OFFSET_SIZE ≤ chan.uiCellSize
  uncut : chan.uiCellSize * chan.uiCellCnt < 2 ^ 32

variable {semget : Nat → Nat} {start : Nat} {confs : List ChanConf} {chan later : Chan}

/-- The cells that `cifo_init` makes for an entry start where those before end. -/
structure Placed (start finish : Nat) (conf : ChanConf) (chan : Chan) : Prop where
  cells : chan.uiCellCnt = conf.uiCellCnt
  size : chan.uiCellSize = conf.uiCellSize
  before : start ≤ chan.cellStartOffset
  after : chan.cellStartOffset + u32 (conf.uiCellSize * conf.uiCellCnt) ≤ finish

/-- The cut size of all cells of the entries. -/
def confsSize (confs : List ChanConf) : Nat :=
  (confs.map fun conf => u32 (conf.uiCellSize * conf.uiCellCnt)).sum

theorem chans_placed : ∀ {start : Nat}, ∀ chan ∈ cifoChans semget start confs, ∃ conf ∈ confs,
    Placed start (start + confsSize confs) conf chan := by
  induction confs with
  | nil =>
      intro start chan member
      cases member
  | cons conf rest ih =>
      intro start chan member
      have total : start + confsSize (conf :: rest) =
          start + u32 (conf.uiCellSize * conf.uiCellCnt) + confsSize rest := by
        rw [confsSize, List.map_cons, List.sum_cons, ← Nat.add_assoc]
        rfl
      rw [total]
      rcases List.mem_cons.mp member with rfl | member
      · exact ⟨conf, by simp, rfl, rfl, Nat.le_refl start, Nat.le_add_right _ _⟩
      · obtain ⟨entry, listed, placed⟩ := ih chan member
        refine ⟨entry, by simp [listed], placed.cells, placed.size, ?_, placed.after⟩
        exact Nat.le_trans (Nat.le_add_right _ _) placed.before

theorem confs_placed : ∀ {start : Nat}, ∀ conf ∈ confs, ∃ chan ∈ cifoChans semget start confs,
    chan.uiCellCnt = conf.uiCellCnt ∧ chan.uiCellSize = conf.uiCellSize := by
  induction confs with
  | nil =>
      intro start conf member
      cases member
  | cons first rest ih =>
      intro start conf member
      rcases List.mem_cons.mp member with rfl | member
      · exact ⟨_, List.mem_cons_self, rfl, rfl⟩
      · obtain ⟨chan, listed, same⟩ := ih conf member
        exact ⟨chan, List.mem_cons_of_mem _ listed, same⟩

/-- The channels lie one after the other. -/
theorem chans_ordered : ∀ {start : Nat}, (cifoChans semget start confs).Pairwise fun chan later =>
    chan.cellStartOffset + u32 (chan.uiCellSize * chan.uiCellCnt) ≤ later.cellStartOffset := by
  induction confs with
  | nil =>
      intro start
      exact List.Pairwise.nil
  | cons conf rest ih =>
      intro start
      apply List.Pairwise.cons
      · intro later member
        obtain ⟨entry, -, placed⟩ := chans_placed later member
        exact placed.before
      · exact ih

/-- The cells of a channel whose size is not cut. -/
theorem cell_place (uncut : chan.uiCellSize * chan.uiCellCnt < 2 ^ 32) {pos : Nat}
    (bound : pos < chan.uiCellCnt) : chan.getCell pos = chan.cellStartOffset + pos * chan.uiCellSize ∧
      chan.getCell pos + chan.uiCellSize ≤
        chan.cellStartOffset + u32 (chan.uiCellSize * chan.uiCellCnt) := by
  have before : pos * chan.uiCellSize + chan.uiCellSize ≤ chan.uiCellSize * chan.uiCellCnt := by
    rw [← Nat.succ_mul, Nat.mul_comm chan.uiCellSize]
    exact Nat.mul_le_mul_right _ bound
  have small : u32 (pos * chan.uiCellSize) = pos * chan.uiCellSize :=
    Nat.mod_eq_of_lt (by omega)
  have total : u32 (chan.uiCellSize * chan.uiCellCnt) = chan.uiCellSize * chan.uiCellCnt :=
    Nat.mod_eq_of_lt uncut
  rw [Chan.getCell, small, total]
  exact ⟨rfl, by omega⟩

/-- Of two cells of one channel, the later one lies behind the earlier. -/
theorem cells_ordered (uncut : chan.uiCellSize * chan.uiCellCnt < 2 ^ 32) {pos other : Nat}
    (bound : pos < chan.uiCellCnt) (before : other < pos) :
    chan.getCell other + chan.uiCellSize ≤ chan.getCell pos := by
  rw [(cell_place uncut bound).1, (cell_place uncut (Nat.lt_trans before bound)).1]
  have next : other * chan.uiCellSize + chan.uiCellSize ≤ pos * chan.uiCellSize := by
    rw [← Nat.succ_mul]
    exact Nat.mul_le_mul_right _ before
  omega

/-- Of more than 4 GiB of cells, one does not lie in the segment. -/
theorem cut_cells_outside (inside : ∀ pos < chan.uiCellCnt,
    chan.getCell pos + chan.uiCellSize ≤ CIFO_SHM_SIZE) (wide : OFFSET_SIZE ≤ chan.uiCellSize) :
    chan.uiCellSize * chan.uiCellCnt < 2 ^ 32 := by
  by_contra cut
  have positive : 0 < chan.uiCellSize := Nat.lt_of_lt_of_le (by decide) wide
  -- the first cell that does not end in the segment is still addressed without a cut
  have last : CIFO_SHM_SIZE / chan.uiCellSize * chan.uiCellSize ≤ CIFO_SHM_SIZE :=
    Nat.div_mul_le_self _ _
  have past : CIFO_SHM_SIZE < (CIFO_SHM_SIZE / chan.uiCellSize + 1) * chan.uiCellSize := by
    rw [Nat.mul_comm]
    exact Nat.lt_mul_div_succ _ positive
  have segment : CIFO_SHM_SIZE < 2 ^ 32 := by decide
  have bound : CIFO_SHM_SIZE / chan.uiCellSize < chan.uiCellCnt := by
    apply Nat.lt_of_mul_lt_mul_left (a := chan.uiCellSize)
    rw [Nat.mul_comm]
    omega
  have small : u32 (CIFO_SHM_SIZE / chan.uiCellSize * chan.uiCellSize) =
      CIFO_SHM_SIZE / chan.uiCellSize * chan.uiCellSize := Nat.mod_eq_of_lt (by omega)
  have ends := inside _ bound
  rw [Chan.getCell, small] at ends
  rw [Nat.succ_mul] at past
  omega

theorem sizes_fit_apart {uiHeadRoomSize : Nat} (fits : ∀ conf ∈ confs, SizeFits conf)
    (room : st_CIFO_SIZE + uiHeadRoomSize + confsSize confs ≤ CIFO_SHM_SIZE) :
    CellsApart uiHeadRoomSize (cifoChans semget (st_CIFO_SIZE + uiHeadRoomSize) confs) := by
  have uncut : ∀ chan ∈ cifoChans semget (st_CIFO_SIZE + uiHeadRoomSize) confs,
      chan.uiCellSize * chan.uiCellCnt < 2 ^ 32 := by
    intro chan member
    obtain ⟨conf, listed, placed⟩ := chans_placed chan member
    rw [placed.cells, placed.size]
    exact (fits conf listed).uncut
  constructor
  · intro chan member
    obtain ⟨conf, listed, placed⟩ := chans_placed chan member
    rw [placed.size]
    exact (fits conf listed).wide
  · intro chan member pos bound
    obtain ⟨conf, listed, placed⟩ := chans_placed chan member
    exact Nat.le_trans placed.before (Nat.le_add_right _ _)
  · intro chan member pos bound
    obtain ⟨conf, listed, placed⟩ := chans_placed chan member
    have ends := (cell_place (uncut chan member) bound).2
    have after := placed.after
    rw [← placed.cells, ← placed.size] at after
    omega
  · intro chan member pos bound other before
    exact Or.inl (cells_ordered (uncut chan member) bound before)
  · apply chans_ordered.imp_of_mem
    intro chan later member member' ordered pos bound other bound'
    have ends := (cell_place (uncut chan member) bound).2
    have place := (cell_place (uncut later member') bound').1
    left
    omega

/-- The channels of an accepted file that `cifo_init` takes have their cells apart exactly where
each has cells that hold an `OFFSET` and take less than 4 GiB together. -/
theorem cells_apart_iff {keys keys' : KeyConf} {locals : ChanConf} {chans : List ChanConf}
    {text : List Char} {cifo : StCifo}
    (accepted : cifoConfInit keys locals text = .ok (keys', chans))
    (created : cifoInit semget ⟨keys'.uiHeadRoomSize, chans⟩ = some cifo) :
    CellsApart keys'.uiHeadRoomSize cifo.stCHAN ↔ ∀ chan ∈ textChans text, SizeFits chan := by
  rw [← (text_chans_checked accepted).1]
  unfold cifoInit at created
  split at created
  · cases created
  · next room =>
      cases created
      constructor
      · intro apart conf listed
        have made : ∃ chan ∈ cifoChans semget (st_CIFO_SIZE + keys'.uiHeadRoomSize) chans,
            chan.uiCellCnt = conf.uiCellCnt ∧ chan.uiCellSize = conf.uiCellSize :=
          confs_placed conf listed
        obtain ⟨chan, member, cells, size⟩ := made
        have wide := apart.wide chan member
        have uncut := cut_cells_outside (apart.inside chan member) wide
        rw [cells, size] at uncut
        rw [size] at wide
        exact ⟨wide, uncut⟩
      · intro fits
        exact sizes_fit_apart fits (Nat.le_of_not_lt room)

/-- The head room is 16 bytes, the channel has four cells of 1 GiB: no bytes as a `U32`. -/
def hugeCells : List Char :=
  "uiShmKey = 1\nuiHeadRoomSize = 16\n0/4/1073741824/1/1/0/1/0/2\n".toList

theorem three_keys_apart : ∃ keys' chans cifo,
    cifoConfInit noKeyConf noChanConf threeKeys = .ok (keys', chans) ∧
      cifoInit id ⟨keys'.uiHeadRoomSize, chans⟩ = some cifo ∧
      (CellsApart keys'.uiHeadRoomSize cifo.stCHAN ↔ ∀ chan ∈ textChans threeKeys, SizeFits chan) := by
  have loads : (cifoConfInit noKeyConf noChanConf threeKeys).map (fun result =>
      (cifoInit id ⟨result.1.uiHeadRoomSize, result.2⟩).isSome) = .ok true := by decide +kernel
  cases read : cifoConfInit noKeyConf noChanConf threeKeys with
  | error dRet =>
      rw [read] at loads
      cases loads
  | ok result =>
      obtain ⟨keys', chans⟩ := result
      rw [read] at loads
      obtain ⟨cifo, created⟩ := Option.isSome_iff_exists.mp (Except.ok.inj loads)
      exact ⟨keys', chans, cifo, rfl, created, cells_apart_iff read created⟩

/-- The second of the cells does not lie in the segment. -/
theorem huge_cells_outside : ∃ keys' chans cifo,
    cifoConfInit noKeyConf noChanConf hugeCells = .ok (keys', chans) ∧
      cifoInit id ⟨keys'.uiHeadRoomSize, chans⟩ = some cifo ∧
      cifo.stCHAN.map (fun chan => (chan.uiCellCnt, chan.getCell 1)) = [(4, 1073837880)] ∧
      ¬CellsApart keys'.uiHeadRoomSize cifo.stCHAN := by
  have loads : (cifoConfInit noKeyConf noChanConf hugeCells).map (fun result =>
      (cifoInit id ⟨result.1.uiHeadRoomSize, result.2⟩).map fun cifo =>
        cifo.stCHAN.map fun chan => (chan.uiCellCnt, chan.getCell 1)) =
          .ok (some [(4, 1073837880)]) := by decide +kernel
  cases read : cifoConfInit noKeyConf noChanConf hugeCells with
  | error dRet =>
      rw [read] at loads
      cases loads
  | ok result =>
      obtain ⟨keys', chans⟩ := result
      rw [read] at loads
      obtain ⟨cifo, created, places⟩ := Option.map_eq_some_iff.mp (Except.ok.inj loads)
      refine ⟨keys', chans, cifo, rfl, created, places, ?_⟩
      intro apart
      obtain ⟨chan, member, same⟩ := List.mem_map.mp (places ▸ List.mem_singleton_self _)
      obtain ⟨cells, place⟩ := Prod.mk.inj same
      have ends := apart.inside chan member 1 (by rw [cells]; decide)
      rw [place] at ends
      exact absurd (Nat.le_trans (Nat.le_add_right _ _) ends) (by decide)

end Cells

end Upst.Cifo
