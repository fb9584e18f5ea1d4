import Upst.CifoConf
import Upst.CifoFifo
import Upst.Interleave
import Mathlib.Data.List.Infix

/-!
Processes that call `cifo_read` on one channel at the same time, while `cifo_write` fills
its cells. A step of a reader is one access to the channel: `P`, the load of `wCellPos`,
the load of `rCellPos`, the cell, the store of `rCellPos`, `V`. A write is one step; of it
the readers see `wCellPos`, which it stores last.
-/

namespace Upst.CifoReaders

open Mems Nifo Cifo Interleave

set_option autoImplicit false

/-- Where a reader stands in `cifo_read`, with its locals; `pHead` is 0 while it is NULL. -/
inductive Place where
  | idle
  | entered
  | looping (curWritePos curCnt pHead : Nat)
  | taking (curWritePos curCnt pHead curReadPos nextReadPos : Nat)
  | storing (curWritePos curCnt pHead nextReadPos : Nat)
  | leaving (pHead : Nat)
  deriving DecidableEq, Repr

/-- `fills` lists the cells that writes filled, `takes` the cells that readers took, each
with its reader. -/
structure Sys where
  shm : MemsInfo
  cifo : StCifo
  uiChID : Nat
  sem : Nat → Bool
  place : Nat → Place
  fills : List Nat
  takes : List (Nat × Nat)

inductive Action where
  | read (procID : Nat)
  | write (offset : Nat)
  deriving DecidableEq, Repr

def Sys.init (shm : MemsInfo) (cifo : StCifo) (uiChID : Nat) : Sys where
  shm := shm
  cifo := cifo
  uiChID := uiChID
  sem := fun _ => true
  place := fun _ => .idle
  fills := []
  takes := []

def Sys.moveTo (sys : Sys) (procID : Nat) (place : Place) : Sys :=
  { sys with place := Function.update sys.place procID place }

/-- The next access of a reader. An access outside the segment has no step, and neither
has the division by a count of no cells. -/
def Sys.advance (sys : Sys) (procID : Nat) (chan : Chan) : Option Sys :=
  match sys.place procID with
  | .idle =>
      (P sys.sem chan.iRSemID chan.uiRSemFlag).map fun sem =>
        { sys.moveTo procID .entered with sem := sem }
  | .entered => some (sys.moveTo procID (.looping chan.wCellPos 0 0))
  | .looping curWritePos curCnt pHead =>
      if curCnt < chan.uiRBuffCnt then
        if chan.uiCellCnt = 0 then none
        else if chan.rCellPos = curWritePos then some (sys.moveTo procID (.leaving pHead))
        else
          some (sys.moveTo procID
            (.taking curWritePos curCnt pHead chan.rCellPos (chan.nextPos chan.rCellPos)))
      else some (sys.moveTo procID (.leaving pHead))
  | .taking curWritePos curCnt pHead curReadPos nextReadPos =>
      if chan.CellInside curReadPos then
        let pNext := sys.cifo.cell (chan.getCell curReadPos)
        some
          { sys.moveTo procID (.storing curWritePos curCnt
              (if pHead = 0 then pNext else pHead) nextReadPos) with
            shm := if pHead = 0 then sys.shm else nifoSpliceNont sys.shm pNext pHead
            takes := sys.takes ++ [(procID, curReadPos)] }
      else none
  | .storing curWritePos curCnt pHead nextReadPos =>
      some
        { sys.moveTo procID (.looping curWritePos (curCnt + 1) pHead) with
          cifo := sys.cifo.setChan sys.uiChID { chan with rCellPos := nextReadPos } }
  | .leaving _ =>
      some { sys.moveTo procID .idle with sem := V sys.sem chan.iRSemID chan.uiRSemFlag }

/-- The cell of `wCellPos` counts as filled when the write moved on from it. -/
def Sys.step (sys : Sys) : Action → Option Sys
  | .read procID => (sys.cifo.stCHAN[sys.uiChID]?).bind (sys.advance procID)
  | .write offset => do
      let chan ← sys.cifo.stCHAN[sys.uiChID]?
      let (_, shm, cifo) ← cifoWrite sys.shm sys.cifo sys.uiChID offset
      let chan' ← cifo.stCHAN[sys.uiChID]?
      some
        { sys with
          shm := shm
          cifo := cifo
          fills := sys.fills ++ if chan'.wCellPos = chan.wCellPos then [] else [chan.wCellPos] }

/-- A reader enters `cifo_read` only while no other one is inside. -/
def Sys.OneReader (sys : Sys) : Action → Prop
  | .read procID => sys.place procID = .idle → ∀ other, sys.place other = .idle
  | .write _ => True

/-- The cells taken so far, by whomever, are the first of the cells filled so far. -/
def OncePerCell (sys : Sys) : Prop := sys.takes.map Prod.snd <+: sys.fills

section Descriptor

/-- What a flush does to the positions of its channel. -/
theorem flush_effect {cifo cifo' : StCifo} {uiChID curWritePos nextWritePos : Nat} {chan : Chan}
    (listed : uiChID < cifo.stCHAN.length)
    (flushed : cifoFlush cifo uiChID chan curWritePos nextWritePos = some cifo') :
    ∃ chan', cifo'.stCHAN[uiChID]? = some chan' ∧ chan'.uiCellCnt = chan.uiCellCnt ∧
      chan'.rCellPos = chan.rCellPos ∧
        (chan'.wCellPos = chan.wCellPos ∨
          chan'.wCellPos = nextWritePos ∧ chan.uiWCnt ≥ chan.uiWBuffCnt) := by
  have stored : ∀ after : Chan, (cifo.stCHAN.set uiChID after)[uiChID]? = some after :=
    fun after => List.getElem?_set_self listed
  rcases flush_cases flushed with ⟨full, -, rfl⟩ | ⟨full, -, rfl⟩ | ⟨-, rfl⟩
  · exact ⟨_, stored _, rfl, rfl, Or.inr ⟨rfl, full⟩⟩
  · exact ⟨_, stored _, rfl, rfl, Or.inl rfl⟩
  · exact ⟨_, stored _, rfl, rfl, Or.inl rfl⟩

/-- What a write does to the positions of its channel. -/
theorem write_effect {shm shm' : MemsInfo} {cifo cifo' : StCifo} {uiChID offset : Nat} {ret : Int}
    {chan : Chan} (found : cifo.stCHAN[uiChID]? = some chan)
    (wrote : cifoWrite shm cifo uiChID offset = some (ret, shm', cifo')) :
    ∃ chan', cifo'.stCHAN[uiChID]? = some chan' ∧ chan'.uiCellCnt = chan.uiCellCnt ∧
      chan'.rCellPos = chan.rCellPos ∧
        (chan'.wCellPos = chan.wCellPos ∨
          chan'.wCellPos = chan.nextPos chan.wCellPos ∧
            chan.nextPos chan.wCellPos ≠ chan.rCellPos) := by
  obtain ⟨listed, -⟩ := List.getElem?_eq_some_iff.mp found
  rcases write_cases found wrote with ⟨-, -, -, -, rfl⟩ | ⟨room, -, flush⟩
  · exact ⟨chan, found, rfl, rfl, Or.inl rfl⟩
  · rw [buffer_chan] at flush
    obtain ⟨chan', found', cells, readPos, moved⟩ := flush_effect listed flush
    refine ⟨chan', found', cells, readPos, ?_⟩
    rcases moved with stayed | ⟨advanced, full⟩
    · exact Or.inl stayed
    · exact Or.inr ⟨advanced, fun wraps => room ⟨wraps, full⟩⟩

end Descriptor

section Invariant

/-- What a reader knows when `stored` cells were given back and `filled` were filled: its
`curWritePos` is the position after some of the cells that were filled, as `cells` of them
make a round. -/
def PlaceOk (cells stored filled taken : Nat) : Place → Prop
  | .idle => True
  | .entered | .leaving _ => taken = stored
  | .looping curWritePos _ _ =>
      taken = stored ∧ ∃ seen, curWritePos = seen % cells ∧ stored ≤ seen ∧ seen ≤ filled
  | .taking curWritePos _ _ curReadPos nextReadPos =>
      taken = stored ∧ curReadPos = stored % cells ∧ nextReadPos = (stored + 1) % cells ∧
        ∃ seen, curWritePos = seen % cells ∧ stored < seen ∧ seen ≤ filled
  | .storing curWritePos _ _ nextReadPos =>
      taken = stored + 1 ∧ nextReadPos = (stored + 1) % cells ∧
        ∃ seen, curWritePos = seen % cells ∧ stored < seen ∧ seen ≤ filled

/-- What the channel and the two lists say, wherever the readers are. -/
structure Counted (cells stored : Nat) (sys : Sys) : Prop where
  chan : ∃ chan, sys.cifo.stCHAN[sys.uiChID]? = some chan ∧ chan.uiCellCnt = cells ∧
    chan.wCellPos = sys.fills.length % cells ∧ chan.rCellPos = stored % cells
  room : stored ≤ sys.fills.length ∧ sys.fills.length < stored + cells
  fills : sys.fills = (List.range sys.fills.length).map (· % cells)
  takes : sys.takes.map Prod.snd = (List.range sys.takes.length).map (· % cells)
  behind : sys.takes.length ≤ sys.fills.length

structure Inv (cells stored : Nat) (sys : Sys) : Prop extends Counted cells stored sys where
  place : ∀ procID, PlaceOk cells stored sys.fills.length sys.takes.length (sys.place procID)
  settled : (∀ procID, sys.place procID = .idle) → sys.takes.length = stored
  single : ∀ first second, sys.place first ≠ .idle → sys.place second ≠ .idle → first = second

theorem Inv.once {cells stored : Nat} {sys : Sys} (inv : Inv cells stored sys) :
    OncePerCell sys := by
  rw [OncePerCell, inv.takes, inv.fills]
  apply List.IsPrefix.map
  rw [List.prefix_iff_eq_take, List.take_range]
  simp [inv.behind]

theorem next_pos_mod (chan : Chan) (small : chan.uiCellCnt < 2 ^ 32) (populated : 0 < chan.uiCellCnt)
    (count : Nat) : chan.nextPos (count % chan.uiCellCnt) = (count + 1) % chan.uiCellCnt := by
  have bound := Nat.mod_lt count populated
  have fits : u32 (count % chan.uiCellCnt + 1) = count % chan.uiCellCnt + 1 :=
    Nat.mod_eq_of_lt (by omega)
  rw [Chan.nextPos, fits, Nat.mod_add_mod]

theorem place_ok_mono {cells stored filled filled' taken : Nat} {place : Place}
    (ok : PlaceOk cells stored filled taken place) (more : filled ≤ filled') :
    PlaceOk cells stored filled' taken place := by
  match place, ok with
  | .idle, _ => trivial
  | .entered, ok => exact ok
  | .leaving _, ok => exact ok
  | .looping _ _ _, ⟨same, seen, position, lower, upper⟩ =>
      exact ⟨same, seen, position, lower, Nat.le_trans upper more⟩
  | .taking _ _ _ _ _, ⟨same, here, next, seen, position, lower, upper⟩ =>
      exact ⟨same, here, next, seen, position, lower, Nat.le_trans upper more⟩
  | .storing _ _ _ _, ⟨same, next, seen, position, lower, upper⟩ =>
      exact ⟨same, next, seen, position, lower, Nat.le_trans upper more⟩

/-- One reader moves while all others are outside. -/
theorem Counted.turn {cells stored : Nat} {sys : Sys} (counted : Counted cells stored sys)
    {procID : Nat} (others : ∀ other, other ≠ procID → sys.place other = .idle) {place : Place}
    (own : PlaceOk cells stored sys.fills.length sys.takes.length place)
    (settled : place = .idle → sys.takes.length = stored) :
    Inv cells stored (sys.moveTo procID place) := by
  refine ⟨⟨counted.chan, counted.room, counted.fills, counted.takes, counted.behind⟩, ?_, ?_, ?_⟩
  · refine (Function.forall_update_iff sys.place fun _ place =>
      PlaceOk cells stored sys.fills.length sys.takes.length place).mpr ⟨own, ?_⟩
    intro other distinct
    rw [others other distinct]
    trivial
  · intro outside
    have left := outside procID
    rw [Sys.moveTo] at left
    exact settled ((Function.update_self procID place sys.place).symm.trans left)
  · have only : ∀ other, (sys.moveTo procID place).place other ≠ .idle → other = procID :=
      (Function.forall_update_iff sys.place fun other place =>
        place ≠ .idle → other = procID).mpr
          ⟨fun _ => rfl, fun other distinct inside => absurd (others other distinct) inside⟩
    intro first second inside inside'
    rw [only first inside, only second inside']

theorem Inv.others {cells stored : Nat} {sys : Sys} (inv : Inv cells stored sys) {procID : Nat}
    (inside : sys.place procID ≠ .idle) : ∀ other, other ≠ procID → sys.place other = .idle := by
  intro other distinct
  by_contra inside'
  exact distinct (inv.single other procID inside' inside)

end Invariant

section Steps

variable {cells stored : Nat} {sys sys' : Sys}

theorem Counted.take (counted : Counted cells stored sys) (settled : sys.takes.length = stored)
    (unread : stored < sys.fills.length) (shm : MemsInfo) (procID : Nat) :
    Counted cells stored { sys with
      shm := shm
      takes := sys.takes ++ [(procID, stored % cells)] } := by
  refine ⟨counted.chan, counted.room, counted.fills, ?_, ?_⟩
  · simp only [List.map_append, List.length_append, List.length_singleton, List.range_succ,
      counted.takes, settled, List.map_cons, List.map_nil]
  · rw [List.length_append, List.length_singleton, settled]
    exact unread

theorem Counted.store (counted : Counted cells stored sys) (unread : stored < sys.fills.length)
    {chan : Chan} (found : sys.cifo.stCHAN[sys.uiChID]? = some chan) :
    Counted cells (stored + 1) { sys with
      cifo := sys.cifo.setChan sys.uiChID { chan with rCellPos := (stored + 1) % cells } } := by
  obtain ⟨listed, -⟩ := List.getElem?_eq_some_iff.mp found
  obtain ⟨chan', found', count, writePos, -⟩ := counted.chan
  obtain rfl : chan = chan' := Option.some.inj (found.symm.trans found')
  have room := counted.room
  exact ⟨⟨_, List.getElem?_set_self listed, count, writePos, rfl⟩, ⟨unread, by dsimp only; omega⟩,
    counted.fills, counted.takes, counted.behind⟩

theorem Inv.withSem (inv : Inv cells stored sys) (sem : Nat → Bool) :
    Inv cells stored { sys with sem := sem } :=
  ⟨⟨inv.chan, inv.room, inv.fills, inv.takes, inv.behind⟩, inv.place, inv.settled, inv.single⟩

theorem Inv.advance (inv : Inv cells stored sys) (small : cells < 2 ^ 32) (populated : 0 < cells)
    {procID : Nat} {chan : Chan} (found : sys.cifo.stCHAN[sys.uiChID]? = some chan)
    (alone : sys.place procID = .idle → ∀ other, sys.place other = .idle)
    (moved : sys.advance procID chan = some sys') : ∃ stored', Inv cells stored' sys' := by
  have counted := inv.toCounted
  obtain ⟨chan', found', count, writePos, readPos⟩ := inv.chan
  obtain rfl : chan = chan' := Option.some.inj (found.symm.trans found')
  have known := inv.place procID
  have others : ∀ other, other ≠ procID → sys.place other = .idle := by
    by_cases outside : sys.place procID = .idle
    · exact fun other _ => alone outside other
    · exact inv.others outside
  unfold Sys.advance at moved
  split at moved
  · next outside =>
      obtain ⟨sem, -, rfl⟩ := Option.map_eq_some_iff.mp moved
      have entered : Inv cells stored (sys.moveTo procID .entered) :=
        counted.turn others (inv.settled (alone outside)) nofun
      exact ⟨stored, entered.withSem sem⟩
  · next entered =>
      rw [entered] at known
      cases moved
      exact ⟨stored, counted.turn others
        ⟨known, sys.fills.length, writePos, inv.room.1, Nat.le_refl _⟩ nofun⟩
  · next curWritePos curCnt pHead looping =>
      rw [looping] at known
      obtain ⟨same, seen, position, lower, upper⟩ := known
      split at moved
      · split at moved
        · cases moved
        · split at moved
          · cases moved
            exact ⟨stored, counted.turn others same nofun⟩
          · next unread =>
              cases moved
              have next := next_pos_mod chan (by omega) (by omega) stored
              rw [count] at next
              refine ⟨stored, counted.turn others
                ⟨same, readPos, ?_, seen, position, ?_, upper⟩ nofun⟩
              · rw [readPos]
                exact next
              · refine Nat.lt_of_le_of_ne lower ?_
                rintro rfl
                exact unread (readPos.trans position.symm)
      · cases moved
        exact ⟨stored, counted.turn others same nofun⟩
  · next curWritePos curCnt pHead curReadPos nextReadPos taking =>
      rw [taking] at known
      obtain ⟨same, rfl, next, seen, position, lower, upper⟩ := known
      split at moved
      · cases moved
        refine ⟨stored, (counted.take same (by omega) _ procID).turn others
          ⟨?_, next, seen, position, lower, upper⟩ nofun⟩
        rw [List.length_append, same]
        rfl
      · cases moved
  · next curWritePos curCnt pHead nextReadPos storing =>
      rw [storing] at known
      obtain ⟨same, rfl, seen, position, lower, upper⟩ := known
      cases moved
      exact ⟨stored + 1, (counted.store (by omega) found).turn others
        ⟨same, seen, position, lower, upper⟩ nofun⟩
  · next pHead leaving =>
      rw [leaving] at known
      cases moved
      have left : Inv cells stored (sys.moveTo procID .idle) :=
        counted.turn others trivial fun _ => known
      exact ⟨stored, left.withSem _⟩

theorem Inv.write (inv : Inv cells stored sys) (small : cells < 2 ^ 32) (populated : 0 < cells)
    {offset : Nat} (wrote : sys.step (.write offset) = some sys') : Inv cells stored sys' := by
  obtain ⟨chan, found, count, writePos, readPos⟩ := inv.chan
  simp only [Sys.step, found, Option.bind_eq_bind, Option.bind_some] at wrote
  obtain ⟨⟨ret, shm, cifo⟩, written, rest⟩ := Option.bind_eq_some_iff.mp wrote
  obtain ⟨chan', found', count', readPos', moved⟩ := write_effect found written
  simp only [found', Option.bind_some, Option.some.injEq] at rest
  subst rest
  have room := inv.room
  have next := next_pos_mod chan (by omega) (by omega) sys.fills.length
  rw [count, ← writePos] at next
  by_cases stayed : chan'.wCellPos = chan.wCellPos
  · simp only [stayed, if_true, List.append_nil]
    exact ⟨⟨⟨chan', found', count'.trans count, stayed.trans writePos, readPos'.trans readPos⟩,
      room, inv.fills, inv.takes, inv.behind⟩, inv.place, inv.settled, inv.single⟩
  · obtain ⟨advanced, unread⟩ := moved.resolve_left stayed
    rw [next] at advanced unread
    simp only [stayed, if_false]
    have longer : (sys.fills ++ [chan.wCellPos]).length = sys.fills.length + 1 := by simp
    refine ⟨⟨⟨chan', found', count'.trans count, ?_, readPos'.trans readPos⟩, ?_, ?_, inv.takes,
      ?_⟩, ?_, inv.settled, inv.single⟩
    · rw [longer]
      exact advanced
    · rw [longer]
      refine ⟨by omega, ?_⟩
      have notFull : sys.fills.length + 1 ≠ stored + cells := by
        intro full
        rw [full, Nat.add_mod_right, readPos] at unread
        exact unread rfl
      omega
    · rw [longer, List.range_succ, List.map_append, ← inv.fills, writePos]
      rfl
    · rw [longer]
      exact Nat.le_succ_of_le inv.behind
    · intro procID
      rw [longer]
      exact place_ok_mono (inv.place procID) (Nat.le_succ _)

theorem Inv.step (inv : Inv cells stored sys) (small : cells < 2 ^ 32) (populated : 0 < cells)
    (action : Action) (proper : sys.OneReader action) (stepped : sys.step action = some sys') :
    ∃ stored', Inv cells stored' sys' := by
  cases action with
  | read procID =>
      obtain ⟨chan, found, moved⟩ := Option.bind_eq_some_iff.mp stepped
      exact inv.advance small populated found proper moved
  | write offset => exact ⟨stored, inv.write small populated stepped⟩

end Steps

section Alone

section

variable (sys : Sys) {procID : Nat} {chan : Chan}
  (found : sys.cifo.stCHAN[sys.uiChID]? = some chan)

include found

theorem step_read : sys.step (.read procID) = sys.advance procID chan := by
  rw [Sys.step, found, Option.bind_some]

theorem step_looping {curWritePos curCnt pHead : Nat} (populated : chan.uiCellCnt ≠ 0)
    (looping : sys.place procID = .looping curWritePos curCnt pHead)
    (more : curCnt < chan.uiRBuffCnt) :
    sys.step (.read procID) =
      if chan.rCellPos = curWritePos then some (sys.moveTo procID (.leaving pHead))
      else some (sys.moveTo procID
        (.taking curWritePos curCnt pHead chan.rCellPos (chan.nextPos chan.rCellPos))) := by
  rw [step_read sys found, Sys.advance, looping]
  dsimp only
  rw [if_pos more, if_neg populated]

theorem step_taking {curWritePos curCnt pHead curReadPos nextReadPos : Nat}
    (taking : sys.place procID = .taking curWritePos curCnt pHead curReadPos nextReadPos)
    (inside : chan.CellInside curReadPos) :
    sys.step (.read procID) = some
      { sys.moveTo procID (.storing curWritePos curCnt
          (if pHead = 0 then sys.cifo.cell (chan.getCell curReadPos) else pHead) nextReadPos) with
        shm := if pHead = 0 then sys.shm
          else nifoSpliceNont sys.shm (sys.cifo.cell (chan.getCell curReadPos)) pHead
        takes := sys.takes ++ [(procID, curReadPos)] } := by
  rw [step_read sys found, Sys.advance, taking]
  exact if_pos inside

theorem step_storing {curWritePos curCnt pHead nextReadPos : Nat}
    (storing : sys.place procID = .storing curWritePos curCnt pHead nextReadPos) :
    sys.step (.read procID) = some
      { sys.moveTo procID (.looping curWritePos (curCnt + 1) pHead) with
        cifo := sys.cifo.setChan sys.uiChID { chan with rCellPos := nextReadPos } } := by
  rw [step_read sys found, Sys.advance, storing]

/-- A round of the loop: the position, the cell, and the store of the position. -/
theorem turns_round {curWritePos curCnt pHead : Nat} (populated : chan.uiCellCnt ≠ 0)
    (looping : sys.place procID = .looping curWritePos curCnt pHead)
    (more : curCnt < chan.uiRBuffCnt) (unread : chan.rCellPos ≠ curWritePos)
    (inside : chan.CellInside chan.rCellPos) :
    ∃ next, Turns Sys.step (.read procID) sys next ∧
      next.place procID = .looping curWritePos (curCnt + 1)
        (if pHead = 0 then sys.cifo.cell (chan.getCell chan.rCellPos) else pHead) ∧
      next.shm = (if pHead = 0 then sys.shm
        else nifoSpliceNont sys.shm (sys.cifo.cell (chan.getCell chan.rCellPos)) pHead) ∧
      next.cifo = sys.cifo.setChan sys.uiChID
        { chan with rCellPos := chan.nextPos chan.rCellPos } ∧
      next.uiChID = sys.uiChID := by
  have asked := (step_looping sys found populated looping more).trans (if_neg unread)
  let asking := sys.moveTo procID
    (.taking curWritePos curCnt pHead chan.rCellPos (chan.nextPos chan.rCellPos))
  have taken := step_taking asking found (Function.update_self ..) inside
  let pNext := sys.cifo.cell (chan.getCell chan.rCellPos)
  let holding : Sys :=
    { asking.moveTo procID (.storing curWritePos curCnt (if pHead = 0 then pNext else pHead)
        (chan.nextPos chan.rCellPos)) with
      shm := if pHead = 0 then sys.shm else nifoSpliceNont sys.shm pNext pHead
      takes := sys.takes ++ [(procID, chan.rCellPos)] }
  have stored := step_storing holding found (Function.update_self ..)
  exact ⟨_, turns_cons asked (turns_cons taken (turns_cons stored turns_none)),
    Function.update_self .., rfl, rfl, rfl⟩

theorem set_chan_self : sys.cifo.setChan sys.uiChID chan = sys.cifo := by
  obtain ⟨listed, rfl⟩ := List.getElem?_eq_some_iff.mp found
  rw [StCifo.setChan, List.set_getElem_self]

end

/-- The turns of the loop are `cifoReadLoop`. -/
theorem alone_loops {procID curWritePos : Nat} (rounds : Nat) (sys : Sys) {chan chan' : Chan}
    (populated : chan.uiCellCnt ≠ 0) (found : sys.cifo.stCHAN[sys.uiChID]? = some chan)
    {curCnt pHead pHead' : Nat} (left : curCnt + rounds = chan.uiRBuffCnt)
    (looping : sys.place procID = .looping curWritePos curCnt pHead) {shm : MemsInfo}
    (loop : cifoReadLoop sys.cifo.cell curWritePos rounds sys.shm chan pHead =
      some (shm, chan', pHead')) :
    ∃ sys', Turns Sys.step (.read procID) sys sys' ∧ sys'.place procID = .leaving pHead' ∧
      sys'.shm = shm ∧ sys'.cifo = sys.cifo.setChan sys.uiChID chan' := by
  induction rounds generalizing sys chan curCnt pHead with
  | zero =>
      cases loop
      refine ⟨sys.moveTo procID (.leaving pHead'), turns_cons ?_ turns_none,
        Function.update_self .., rfl, (set_chan_self sys found).symm⟩
      rw [step_read sys found, Sys.advance, looping]
      exact if_neg (by omega)
  | succ rounds ih =>
      have turn := step_looping sys found populated looping (by omega)
      rw [cifoReadLoop] at loop
      split at loop
      · next empty =>
          cases loop
          exact ⟨sys.moveTo procID (.leaving pHead'),
            turns_cons (turn.trans (if_pos empty)) turns_none, Function.update_self .., rfl,
            (set_chan_self sys found).symm⟩
      · next unread =>
          split at loop
          · next inside =>
              obtain ⟨next, round, looping', memory, cells, channel⟩ :=
                turns_round sys found populated looping (by omega) unread inside
              let advanced := { chan with rCellPos := chan.nextPos chan.rCellPos }
              have listed := (List.getElem?_eq_some_iff.mp found).1
              have again : cifoReadLoop next.cifo.cell curWritePos rounds next.shm advanced
                  (if pHead = 0 then sys.cifo.cell (chan.getCell chan.rCellPos) else pHead) =
                    some (shm, chan', pHead') := by
                rw [memory, cells]
                by_cases first : pHead = 0
                · rw [if_pos first, if_pos first]
                  exact (if_pos first).symm.trans loop
                · rw [if_neg first, if_neg first]
                  exact (if_neg first).symm.trans loop
              obtain ⟨sys', turns, left', memory', cells'⟩ := ih next
                (show advanced.uiCellCnt ≠ 0 from populated)
                (by rw [cells, channel]; exact List.getElem?_set_self listed)
                (show curCnt + 1 + rounds = chan.uiRBuffCnt by omega) looping' again
              refine ⟨sys', turns_trans round turns, left', memory', ?_⟩
              rw [cells', cells, channel, StCifo.setChan, StCifo.setChan, StCifo.setChan, List.set_set]
          · cases loop

/-- A call that nobody interrupts is `cifoRead`. -/
theorem alone_reads (sys : Sys) {procID : Nat} {chan : Chan} (populated : chan.uiCellCnt ≠ 0)
    (found : sys.cifo.stCHAN[sys.uiChID]? = some chan) (outside : sys.place procID = .idle)
    (up : sys.sem chan.iRSemID = true) {ret : Int} {shm : MemsInfo} {cifo : StCifo}
    (read : cifoRead sys.shm sys.cifo sys.uiChID = some (ret, shm, cifo)) :
    ∃ (sys' : Sys) (pHead : Nat), Turns Sys.step (.read procID) sys sys' ∧
      sys'.place procID = .leaving pHead ∧ ret = pHead ∧ sys'.shm = shm ∧ sys'.cifo = cifo := by
  obtain ⟨sem, passed, -⟩ := sem_round sys.sem chan.iRSemID chan.uiRSemFlag up
  simp only [cifoRead, found, Option.map_eq_some_iff] at read
  obtain ⟨⟨shm', chan', pHead⟩, loop, same⟩ := read
  cases same
  let entered : Sys := { sys.moveTo procID .entered with sem := sem }
  have entering : sys.step (.read procID) = some entered := by
    rw [step_read sys found, Sys.advance, outside]
    exact Option.map_eq_some_iff.mpr ⟨sem, passed, rfl⟩
  have starting : entered.step (.read procID) =
      some (entered.moveTo procID (.looping chan.wCellPos 0 0)) := by
    have inside : entered.place procID = .entered := Function.update_self ..
    rw [step_read entered found, Sys.advance, inside]
  obtain ⟨sys', turns, left, memory, cells⟩ := alone_loops chan.uiRBuffCnt
    (entered.moveTo procID (.looping chan.wCellPos 0 0)) populated found (Nat.zero_add _)
    (Function.update_self ..) loop
  exact ⟨sys', pHead, turns_cons entering (turns_cons starting turns), left, rfl, memory, cells⟩

end Alone

section Runs

theorem init_inv {semget : Nat → Nat} {conf : CifoConf} {cifo : StCifo}
    (created : cifoInit semget conf = some cifo) {uiChID : Nat} {chan : Chan}
    (found : cifo.stCHAN[uiChID]? = some chan) (populated : 0 < chan.uiCellCnt) (shm : MemsInfo) :
    Inv chan.uiCellCnt 0 (Sys.init shm cifo uiChID) := by
  have positions : chan.rCellPos = 0 ∧ chan.wCellPos = 0 := by
    unfold cifoInit at created
    split at created
    · cases created
    · cases created
      obtain ⟨readPos, writePos, -⟩ := cifo_chans_get semget found
      exact ⟨readPos, writePos⟩
  refine ⟨⟨⟨chan, found, rfl, ?_, ?_⟩, ⟨Nat.le_refl _, ?_⟩, rfl, rfl, Nat.le_refl _⟩,
    fun _ => trivial, fun _ => rfl, fun _ _ inside => absurd rfl inside⟩
  · rw [positions.2]
    exact (Nat.zero_mod _).symm
  · rw [positions.1, Nat.zero_mod]
  · simpa [Sys.init] using populated

/-- The configuration is what the channel table says, and fits its array, which the count
check of `cifo_chan_init` lets one channel too many into. -/
structure TableRead (locals : ChanConf) (lines : List (List (List Char))) (conf : CifoConf) :
    Prop where
  read : chanLines locals [] lines = .ok conf.stCHANCONF
  fits : conf.stCHANCONF.length ≤ MAX_CHAN_CNT

/-- One channel of three cells, a cell for each write, with a read semaphore. -/
def readersConf : CifoConf where
  uiHeadRoomSize := 0
  stCHANCONF := [⟨0, 3, 8, 1, 1, 0, 1, MEMS_SEMA_ON, 7⟩]

def noChanConf : ChanConf := ⟨0, 0, 0, 0, 0, 0, 0, 0, 0⟩

def readersCifo : StCifo := (cifoInit id readersConf).get (by decide)

theorem alone_reads_first : ∃ sys sys',
    (Sys.init zeroSegment readersCifo 0).step (.write 4796) = some sys ∧
      Turns Sys.step (.read 0) sys sys' ∧ sys'.place 0 = .leaving 4796 := by
  let written := ((Sys.init zeroSegment readersCifo 0).step (.write 4796)).get (by decide +kernel)
  have read : ∃ shm cifo, cifoRead written.shm written.cifo 0 = some (4796, shm, cifo) :=
    ⟨_, _, rfl⟩
  obtain ⟨shm, cifo, read⟩ := read
  obtain ⟨sys', pHead, turns, left, same, -⟩ :=
    alone_reads written (by decide +kernel) rfl (show written.place 0 = .idle from rfl) rfl read
  obtain rfl : 4796 = pHead := Int.ofNat.inj same
  exact ⟨written, sys', (Option.some_get _).symm, turns, left⟩

end Runs

end Upst.CifoReaders
