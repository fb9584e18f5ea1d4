import Upst.Aftp

/-!
What the end of a data session leaves in the table of A_FTP. The records are the meaning of the table:
the record of the data session goes, its signal session forgets it or goes with it when it was waiting
for it, and all others stay. `dTermTCP` leaves just that unless it returns early, or the deletion of the
signal session moves a record under the slot that it still keeps.
-/

namespace Upst.Aftp

open Slots

set_option autoImplicit false

section Table

/-- The keys in use are not those that `dFreeMMDB` takes for the ends of the table. -/
structure TableOk (tbl : SessTable) : Prop where
  wf : Wf SessData.stKey tbl
  named : ∀ slot ∈ tbl.used, (tbl.tuple slot).stKey ≠ .zero ∧ (tbl.tuple slot).stKey ≠ .last

variable {tbl : SessTable} {slot : Nat}

theorem change_ok (ok : TableOk tbl) {f : SessData → SessData} (same : ∀ data, (f data).stKey = data.stKey) :
    TableOk (SessTable.change tbl slot f) where
  wf := set_wf ok.wf (same _)
  named place used := by
    rw [SessTable.change, set_key (same _)]
    exact ok.named place used

theorem change_record (ok : TableOk tbl) {f : SessData → SessData} (used : slot ∈ tbl.used)
    (same : ∀ data, (f data).stKey = data.stKey) (name : SessKey) :
    SessTable.record (SessTable.change tbl slot f) name =
      if name = (tbl.tuple slot).stKey then some (f (tbl.tuple slot)) else SessTable.record tbl name := by
  rw [SessTable.record, SessTable.change, set_record ok.wf used (same _), same]
  rfl

section Delete

variable {moved : Option Nat}

theorem emptied_unused (ok : TableOk tbl) :
    emptied slot (tbl.moves slot moved) ∉ (tbl.delete slot moved).used := by
  rw [delete_used]
  exact (List.nodup_append.mp ok.wf.nodup).1.not_mem_erase

theorem deleted_ok (ok : TableOk tbl) (used : slot ∈ tbl.used) : TableOk (deleteSess tbl slot moved) where
  wf := set_wf_free (delete_wf ok.wf used moved) (emptied_unused ok)
  named place inside := by
    have order := (List.nodup_append.mp ok.wf.nodup).1
    have member : place ∈ (tbl.delete slot moved).used := inside
    rw [deleteSess, SessTable.change, set_used (emptied_unused ok) member, delete_tuple]
    rw [delete_used, List.Nodup.mem_erase_iff order] at member
    exact ok.named _ (origin_used member.2 member.1).1

theorem deleted_record (ok : TableOk tbl) (used : slot ∈ tbl.used) (name : SessKey) :
    SessTable.record (deleteSess tbl slot moved) name =
      if name = (tbl.tuple slot).stKey then none else SessTable.record tbl name := by
  rw [SessTable.record, deleteSess, SessTable.change,
    set_record_free (delete_wf ok.wf used moved) (emptied_unused ok), delete_record ok.wf used]
  rfl

/-- The slot that is emptied has no key. -/
theorem deleted_emptied :
    ((deleteSess tbl slot moved).tuple (emptied slot (tbl.moves slot moved))).stKey = .zero := by
  rw [deleteSess, SessTable.change, set_own]

theorem deleted_tuple {place : Nat} (apart : place ≠ emptied slot (tbl.moves slot moved)) :
    (deleteSess tbl slot moved).tuple place = tbl.tuple (origin slot (tbl.moves slot moved) place) := by
  rw [deleteSess, SessTable.change, set_apart apart, delete_tuple]

theorem deleted_used (ok : TableOk tbl) {place : Nat} :
    place ∈ (deleteSess tbl slot moved).used ↔
      place ≠ emptied slot (tbl.moves slot moved) ∧ place ∈ tbl.used := by
  have order := (List.nodup_append.mp ok.wf.nodup).1
  have same : (deleteSess tbl slot moved).used = (tbl.delete slot moved).used := rfl
  rw [same, delete_used, List.Nodup.mem_erase_iff order]

end Delete

section Free

variable {moved : Option Nat}

theorem free_used (ok : TableOk tbl) (used : slot ∈ tbl.used) :
    dFreeMMDB tbl slot moved = (0, deleteSess tbl slot moved) := by
  have named := ok.named slot used
  have found : SessTable.search tbl (tbl.tuple slot).stKey = some slot := search_used ok.wf used
  simp only [dFreeMMDB, named.1, named.2, or_self, if_false, found]

theorem free_unnamed (unnamed : (tbl.tuple slot).stKey = .zero) : dFreeMMDB tbl slot moved = (-2, tbl) := by
  simp only [dFreeMMDB, unnamed, true_or, if_true]

/-- The slot may be any. -/
theorem free_ok (ok : TableOk tbl) : TableOk (dFreeMMDB tbl slot moved).2 := by
  rw [dFreeMMDB]
  split
  · exact ok
  · cases found : SessTable.search tbl (tbl.tuple slot).stKey with
    | none => exact ok
    | some place => exact deleted_ok ok (search_some found).1

end Free

theorem insert_ok (ok : TableOk tbl) {data : SessData} (named : data.stKey ≠ .zero ∧ data.stKey ≠ .last)
    {place : Nat} {after : SessTable} (done : dInsertMMDB tbl data = .ok (place, after)) : TableOk after := by
  rw [dInsertMMDB] at done
  split at done
  · exact nomatch done
  · split at done
    · exact nomatch done
    · next added inserting =>
        obtain ⟨slot, inserted⟩ := insert_some ok.wf inserting
        split at done
        · exact nomatch done
        · cases done
          refine ⟨inserted.wf ok.wf, fun other inside => ?_⟩
          rw [inserted.used] at inside
          rcases List.mem_cons.mp inside with rfl | used
          · rw [inserted.own]
            exact named
          · rw [inserted.kept other used]
            exact ok.named other used

end Table

section Kept

variable {tbl : SessTable} {supply : TermSupply}

theorem own_ok (ok : TableOk tbl) {pstMMDB : Nat} {logs : List LogFtp} {freed : List Nat} :
    TableOk (freeOwn tbl pstMMDB supply logs freed).tbl :=
  free_ok ok

theorem pair_ok (ok : TableOk tbl) {pstMMDB pstFTPSIG : Nat} :
    TableOk (termPair tbl pstMMDB pstFTPSIG supply).tbl := by
  rw [termPair]
  cases supply.pstNode with
  | none => exact ok
  | some pstNode =>
      have cleared : TableOk (SessTable.change tbl pstFTPSIG fun data => { data with stDataKey := .zero }) :=
        change_ok ok fun _ => rfl
      dsimp only
      split
      · exact ok
      · split
        all_goals split
        · exact free_ok cleared
        · split
          · exact own_ok (free_ok cleared)
          · exact own_ok (free_ok cleared)
        · exact cleared
        · split
          · exact own_ok cleared
          · exact own_ok cleared

theorem term_ok (ok : TableOk tbl) {pstKey : SessKey} : TableOk (dTermTCP tbl pstKey supply).tbl := by
  rw [dTermTCP]
  split
  · exact ok
  · split
    · split
      · exact @change_ok _ _ ok (fun data => { data with dTimeOutTime := supply.g_lCurTime + 3 })
          fun _ => rfl
      · exact own_ok ok
    · split
      · exact ok
      · split
        · exact own_ok ok
        · exact pair_ok ok

end Kept

section Spec

/-- The records that the end of a data session leaves. -/
def remaining (records : SessKey → Option SessData) (pstKey name : SessKey) : Option SessData :=
  if name = pstKey then none
  else if (records pstKey).map SessData.stSignalKey = some name then
    (records name).bind fun signal =>
      if signal.stDataKey ≠ pstKey then some signal
      else if 0 < signal.dTimeOutTime then none
      else some { signal with stDataKey := .zero }
  else records name

structure Term.Exact (term : Term) : Prop where
  records : ∀ name, SessTable.record term.outcome.tbl name =
    remaining (SessTable.record term.before) term.pstKey name
  logs : term.outcome.logs.length ≤ 1

/-- The signal session is known, and where it names the data session, the node and the TLV are granted and
the deletion of a signal session that waits moves no record from or into the slot of the data session. -/
def Term.Clean (term : Term) : Prop :=
  ∃ own sig, SessTable.search term.before term.pstKey = some own ∧
    SessTable.search term.before (term.before.tuple own).stSignalKey = some sig ∧
    ((term.before.tuple sig).stDataKey = term.pstKey →
      (term.supply.pstNode ≠ none ∧ term.supply.pstFTPLog = true) ∧
      (0 < (term.before.tuple sig).dTimeOutTime →
        ∀ other, term.before.moves sig term.supply.movedSig = some other → sig ≠ own ∧ other ≠ own))

/-- A call on a data session whose record is in the table. -/
structure Term.Called (term : Term) : Prop where
  table : TableOk term.before
  data : term.pstKey.usDestPort ≠ PORT_FTPSIG
  present : (SessTable.search term.before term.pstKey).isSome
  outcome : term.outcome = dTermTCP term.before term.pstKey term.supply

end Spec

section Remaining

variable {records : SessKey → Option SessData} {pstKey name : SessKey} {data signal : SessData}

theorem remaining_own : remaining records pstKey pstKey = none := if_pos rfl

/-- A signal session that does not name the data session stays as it is. -/
theorem remaining_unnamed (own : records pstKey = some data) (known : records data.stSignalKey = some signal)
    (other : signal.stDataKey ≠ pstKey) :
    remaining records pstKey name = if name = pstKey then none else records name := by
  rw [remaining, own, Option.map_some]
  split
  · rfl
  · split
    · next same =>
        rw [← Option.some.inj same, known, Option.bind_some, if_pos other]
    · rfl

theorem remaining_named (own : records pstKey = some data) (known : records data.stSignalKey = some signal)
    (named : signal.stDataKey = pstKey) :
    remaining records pstKey name =
      if name = pstKey then none
      else if name = data.stSignalKey then
        if 0 < signal.dTimeOutTime then none else some { signal with stDataKey := .zero }
      else records name := by
  rw [remaining, own, Option.map_some]
  split
  · rfl
  · by_cases same : name = data.stSignalKey
    · rw [same, if_pos rfl, if_pos rfl, known, Option.bind_some, if_neg (not_not.mpr named)]
    · rw [if_neg (fun equal => same (Option.some.inj equal).symm), if_neg same]

end Remaining

section Own

variable {tbl : SessTable} {pstMMDB : Nat} {supply : TermSupply} {logs : List LogFtp} {freed : List Nat}

theorem own_record (ok : TableOk tbl) (used : pstMMDB ∈ tbl.used) (name : SessKey) :
    SessTable.record (freeOwn tbl pstMMDB supply logs freed).tbl name =
      if name = (tbl.tuple pstMMDB).stKey then none else SessTable.record tbl name := by
  rw [freeOwn, free_used ok used]
  exact deleted_record ok used name

theorem own_unnamed (unnamed : (tbl.tuple pstMMDB).stKey = .zero) :
    (freeOwn tbl pstMMDB supply logs freed).tbl = tbl := by
  rw [freeOwn, free_unnamed unnamed]

/-- The slot of the data session after the deletion of the signal session. -/
theorem own_kept (ok : TableOk tbl) (used : pstMMDB ∈ tbl.used) {sig : Nat} {moved : Option Nat}
    (apart : sig ≠ pstMMDB) (stays : ∀ other, tbl.moves sig moved = some other → other ≠ pstMMDB) :
    (deleteSess tbl sig moved).tuple pstMMDB = tbl.tuple pstMMDB ∧
      pstMMDB ∈ (deleteSess tbl sig moved).used := by
  have outside : pstMMDB ≠ emptied sig (tbl.moves sig moved) := by
    cases found : tbl.moves sig moved with
    | none => exact apart.symm
    | some other => exact (stays other found).symm
  refine ⟨?_, (deleted_used ok).mpr ⟨outside, used⟩⟩
  rw [deleted_tuple outside, origin, if_neg apart.symm]

/-- Both records go unless the data session is not any more in its slot. -/
theorem both_freed (ok : TableOk tbl) (used : pstMMDB ∈ tbl.used) {sig : Nat} (waits : sig ∈ tbl.used)
    (moved : Option Nat) :
    (∀ name, SessTable.record (freeOwn (deleteSess tbl sig moved) pstMMDB supply logs freed).tbl name =
        if name = (tbl.tuple pstMMDB).stKey then none
        else if name = (tbl.tuple sig).stKey then none
        else SessTable.record tbl name) ↔
      ∀ other, tbl.moves sig moved = some other → sig ≠ pstMMDB ∧ other ≠ pstMMDB := by
  have deleted : TableOk (deleteSess tbl sig moved) := deleted_ok ok waits
  have in_place (apart : sig ≠ pstMMDB)
      (stays : ∀ other, tbl.moves sig moved = some other → other ≠ pstMMDB) (name : SessKey) :
      SessTable.record (freeOwn (deleteSess tbl sig moved) pstMMDB supply logs freed).tbl name =
        if name = (tbl.tuple pstMMDB).stKey then none
        else if name = (tbl.tuple sig).stKey then none
        else SessTable.record tbl name := by
    obtain ⟨same, inside⟩ := own_kept ok used apart stays
    rw [own_record deleted inside, same, deleted_record ok waits]
  have held {slot : Nat} (member : slot ∈ tbl.used) :
      SessTable.record tbl (tbl.tuple slot).stKey = some (tbl.tuple slot) := record_slot ok.wf member
  have keys {slot place : Nat} (member : slot ∈ tbl.used) (inside : place ∈ tbl.used) (apart : slot ≠ place) :
      (tbl.tuple slot).stKey ≠ (tbl.tuple place).stKey :=
    fun same => apart (ok.wf.keys slot member place inside same)
  cases found : tbl.moves sig moved with
  | none =>
      refine iff_of_true (fun name => ?_) (fun other moves => by cases moves)
      by_cases same : sig = pstMMDB
      · have unnamed : ((deleteSess tbl sig moved).tuple sig).stKey = .zero := by
          have empty := @deleted_emptied tbl sig moved
          rwa [found] at empty
        rw [← same, own_unnamed unnamed, deleted_record ok waits]
        split <;> rfl
      · exact in_place same (fun other moves => by cases found.symm.trans moves) name
  | some other =>
      obtain ⟨member, apart⟩ := moves_some found
      by_cases same : sig = pstMMDB
      · refine iff_of_false (fun all => ?_) (fun clean => (clean other rfl).1 same)
        have here := all (tbl.tuple other).stKey
        have outside : sig ≠ emptied sig (tbl.moves sig moved) := by
          rw [found]
          exact apart.symm
        have there : (deleteSess tbl sig moved).tuple sig = tbl.tuple other := by
          rw [deleted_tuple outside, origin, if_pos rfl, found]
          rfl
        rw [← same, own_record deleted ((deleted_used ok).mpr ⟨outside, waits⟩), there, if_pos rfl,
          if_neg (keys member waits apart), if_neg (keys member waits apart), held member] at here
        cases here
      · by_cases gone : other = pstMMDB
        · refine iff_of_false (fun all => ?_) (fun clean => (clean other rfl).2 gone)
          have here := all (tbl.tuple pstMMDB).stKey
          have unnamed : ((deleteSess tbl sig moved).tuple pstMMDB).stKey = .zero := by
            have empty := @deleted_emptied tbl sig moved
            rwa [found, emptied, Option.getD_some, gone] at empty
          rw [if_pos rfl, own_unnamed unnamed, deleted_record ok waits,
            if_neg (keys used waits (Ne.symm same)), held used] at here
          cases here
        · have stays : ∀ place, tbl.moves sig moved = some place → place ≠ pstMMDB := by
            intro place moves
            rw [found] at moves
            exact Option.some.inj moves ▸ gone
          refine iff_of_true (in_place same stays) fun place moves => ⟨same, ?_⟩
          exact stays place (found.trans moves)

end Own

section Pair

variable {tbl : SessTable} {pstMMDB pstFTPSIG : Nat} {supply : TermSupply}

/-- The signal session does not name a data session any more. -/
def forgotten (tbl : SessTable) (pstFTPSIG : Nat) : SessTable :=
  SessTable.change tbl pstFTPSIG fun data => { data with stDataKey := .zero }

theorem forgotten_ok (ok : TableOk tbl) : TableOk (forgotten tbl pstFTPSIG) :=
  change_ok ok fun _ => rfl

theorem forgotten_record (ok : TableOk tbl) (used : pstFTPSIG ∈ tbl.used) (name : SessKey) :
    SessTable.record (forgotten tbl pstFTPSIG) name =
      if name = (tbl.tuple pstFTPSIG).stKey then some { tbl.tuple pstFTPSIG with stDataKey := .zero }
      else SessTable.record tbl name :=
  @change_record tbl pstFTPSIG ok (fun data => { data with stDataKey := .zero }) used (fun _ => rfl) name

theorem forgotten_key (slot : Nat) :
    ((forgotten tbl pstFTPSIG).tuple slot).stKey = (tbl.tuple slot).stKey := by
  have same : ({ tbl.tuple pstFTPSIG with stDataKey := .zero } : SessData).stKey =
      (tbl.tuple pstFTPSIG).stKey := rfl
  exact set_key same slot

theorem forgotten_timeout :
    ((forgotten tbl pstFTPSIG).tuple pstFTPSIG).dTimeOutTime = (tbl.tuple pstFTPSIG).dTimeOutTime := by
  rw [forgotten, SessTable.change, set_own]

/-- What the pair of sessions leaves when the log gets its node and its TLV. -/
theorem pair_granted (ok : TableOk tbl) (used : pstFTPSIG ∈ tbl.used) (node : supply.pstNode ≠ none)
    (tlv : supply.pstFTPLog = true) :
    ∃ logs freed, logs.length ≤ 1 ∧ termPair tbl pstMMDB pstFTPSIG supply =
      if 0 < (tbl.tuple pstFTPSIG).dTimeOutTime then
        freeOwn (deleteSess (forgotten tbl pstFTPSIG) pstFTPSIG supply.movedSig) pstMMDB supply logs freed
      else freeOwn (forgotten tbl pstFTPSIG) pstMMDB supply logs freed := by
  obtain ⟨pstNode, granted⟩ := Option.ne_none_iff_exists'.mp node
  have free : dFreeMMDB (forgotten tbl pstFTPSIG) pstFTPSIG supply.movedSig =
      (0, deleteSess (forgotten tbl pstFTPSIG) pstFTPSIG supply.movedSig) :=
    free_used (forgotten_ok ok) used
  rw [termPair, granted, tlv]
  dsimp only
  rw [if_neg Bool.noConfusion, ← forgotten, forgotten_timeout, free]
  by_cases refused : supply.dWrite < 0
  · refine ⟨[], [pstNode], Nat.zero_le 1, ?_⟩
    by_cases waits : 0 < (tbl.tuple pstFTPSIG).dTimeOutTime <;>
      simp only [waits, refused, if_true, if_false, Int.lt_irrefl]
  · refine ⟨[termLog (tbl.tuple pstFTPSIG).stFTPSTAT (tbl.tuple pstMMDB).stFTPSTAT], [], Nat.le_refl 1, ?_⟩
    by_cases waits : 0 < (tbl.tuple pstFTPSIG).dTimeOutTime <;>
      simp only [waits, refused, if_true, if_false, Int.lt_irrefl]

theorem pair_refused (refused : ¬ (supply.pstNode ≠ none ∧ supply.pstFTPLog = true)) :
    (termPair tbl pstMMDB pstFTPSIG supply).tbl = tbl := by
  rw [termPair]
  cases node : supply.pstNode with
  | none => rfl
  | some pstNode =>
      have tlv : supply.pstFTPLog = false := by
        by_contra granted
        exact refused ⟨node ▸ Option.some_ne_none pstNode, Bool.eq_true_of_not_eq_false granted⟩
      dsimp only
      rw [if_pos tlv]

end Pair

section Called

variable {term : Term} {own sig : Nat}

theorem Term.Called.slot (called : term.Called) :
    ∃ own, SessTable.search term.before term.pstKey = some own :=
  Option.isSome_iff_exists.mp called.present

theorem Term.Called.outcome_eq (called : term.Called)
    (found : SessTable.search term.before term.pstKey = some own) :
    term.outcome =
      match SessTable.search term.before (term.before.tuple own).stSignalKey with
      | none => ⟨-1, term.before, [], []⟩
      | some sig =>
          if (term.before.tuple sig).stDataKey ≠ (term.before.tuple own).stKey then
            freeOwn term.before own term.supply [] []
          else termPair term.before own sig term.supply := by
  rw [called.outcome, dTermTCP, found]
  refine (if_neg called.data).trans ?_
  rfl

theorem clean_iff (found : SessTable.search term.before term.pstKey = some own) :
    term.Clean ↔ ∃ sig, SessTable.search term.before (term.before.tuple own).stSignalKey = some sig ∧
      ((term.before.tuple sig).stDataKey = term.pstKey →
        (term.supply.pstNode ≠ none ∧ term.supply.pstFTPLog = true) ∧
        (0 < (term.before.tuple sig).dTimeOutTime →
          ∀ other, term.before.moves sig term.supply.movedSig = some other → sig ≠ own ∧ other ≠ own)) := by
  constructor
  · rintro ⟨place, sig, held, known, names⟩
    obtain rfl := Option.some.inj (found.symm.trans held)
    exact ⟨sig, known, names⟩
  · rintro ⟨sig, known, names⟩
    exact ⟨own, sig, found, known, names⟩

/-- A record that stays as it is was not removed. -/
theorem stays_inexact (called : term.Called) (stays : term.outcome.tbl = term.before) : ¬ term.Exact := by
  intro exact
  have gone := exact.records term.pstKey
  obtain ⟨own, found⟩ := called.slot
  have held : SessTable.record term.before term.pstKey = some (term.before.tuple own) := record_search found
  rw [remaining_own, stays, held] at gone
  exact nomatch gone

/-- The signal session names the data session, and the log gets its node and its TLV. -/
theorem granted_exact (called : term.Called) (found : SessTable.search term.before term.pstKey = some own)
    (known : SessTable.search term.before (term.before.tuple own).stSignalKey = some sig)
    (names : (term.before.tuple sig).stDataKey = term.pstKey)
    (granted : term.supply.pstNode ≠ none ∧ term.supply.pstFTPLog = true) :
    term.Exact ↔ (0 < (term.before.tuple sig).dTimeOutTime →
      ∀ other, term.before.moves sig term.supply.movedSig = some other → sig ≠ own ∧ other ≠ own) := by
  have ok := called.table
  obtain ⟨used, own_key⟩ := search_some found
  obtain ⟨sig_used, sig_key⟩ := search_some known
  have forgets : TableOk (forgotten term.before sig) := forgotten_ok ok
  obtain ⟨logs, freed, few, paired⟩ := @pair_granted term.before own sig term.supply ok sig_used
    granted.1 granted.2
  have outcome := called.outcome_eq found
  rw [known] at outcome
  dsimp only at outcome
  rw [own_key, if_neg (not_not.mpr names), paired] at outcome
  have spec (name : SessKey) : remaining (SessTable.record term.before) term.pstKey name =
      if name = term.pstKey then none
      else if name = (term.before.tuple own).stSignalKey then
        if 0 < (term.before.tuple sig).dTimeOutTime then none
        else some { term.before.tuple sig with stDataKey := .zero }
      else SessTable.record term.before name :=
    remaining_named (record_search found) (record_search known) names
  have counted (records : ∀ name, SessTable.record term.outcome.tbl name =
      remaining (SessTable.record term.before) term.pstKey name) : term.Exact := by
    refine ⟨records, ?_⟩
    rw [outcome]
    split <;> exact few
  by_cases waits : 0 < (term.before.tuple sig).dTimeOutTime
  · rw [if_pos waits] at outcome
    have both := @both_freed (forgotten term.before sig) own term.supply logs freed forgets used sig sig_used
      term.supply.movedSig
    have same (name : SessKey) :
        (if name = ((forgotten term.before sig).tuple own).stKey then none
        else if name = ((forgotten term.before sig).tuple sig).stKey then none
        else SessTable.record (forgotten term.before sig) name) =
          remaining (SessTable.record term.before) term.pstKey name := by
      rw [spec, forgotten_key, forgotten_key, own_key, sig_key, forgotten_record ok sig_used, if_pos waits,
        sig_key]
      split
      · rfl
      · split <;> rfl
    simp only [same] at both
    rw [← outcome] at both
    refine Iff.trans ?_ (both.trans ⟨fun clean _ => clean, fun clean => clean waits⟩)
    exact ⟨fun exact => exact.records, counted⟩
  · refine iff_of_true (counted fun name => ?_) fun still => absurd still waits
    rw [if_neg waits] at outcome
    rw [outcome, own_record forgets used, forgotten_key, own_key, forgotten_record ok sig_used, spec,
      if_neg waits, sig_key]

theorem exact_iff_clean (called : term.Called) : term.Exact ↔ term.Clean := by
  obtain ⟨own, found⟩ := called.slot
  obtain ⟨used, own_key⟩ := search_some found
  have outcome := called.outcome_eq found
  rw [clean_iff found]
  cases known : SessTable.search term.before (term.before.tuple own).stSignalKey with
  | none =>
      rw [known] at outcome
      refine iff_of_false (stays_inexact called (congrArg Outcome.tbl outcome)) fun clean => ?_
      obtain ⟨sig, unknown, _⟩ := clean
      exact nomatch unknown
  | some sig =>
      rw [known] at outcome
      dsimp only at outcome
      simp only [Option.some.injEq, exists_eq_left']
      by_cases names : (term.before.tuple sig).stDataKey = term.pstKey
      · by_cases granted : term.supply.pstNode ≠ none ∧ term.supply.pstFTPLog = true
        · rw [granted_exact called found known names granted]
          exact ⟨fun clean _ => ⟨granted, clean⟩, fun clean => (clean names).2⟩
        · refine iff_of_false (stays_inexact called ?_) fun clean => granted (clean names).1
          rw [outcome, own_key, if_neg (not_not.mpr names)]
          exact pair_refused granted
      · refine iff_of_true ⟨fun name => ?_, ?_⟩ fun same => absurd same names
        · rw [outcome, own_key, if_pos names, own_record called.table used, own_key]
          exact (remaining_unnamed (record_search found) (record_search known) names).symm
        · rw [outcome, own_key, if_pos names]
          exact Nat.zero_le 1

end Called

section Run

structure StateOk (state : State) : Prop where
  table : TableOk state.tbl
  terms : ∀ term ∈ state.terms, term.Called

variable {conf : Conf} {state : State} {info : TcpInfo} {supply : TermSupply}

theorem StateOk.term (ok : StateOk state) {pstKey : SessKey} : StateOk (state.term pstKey supply).2 where
  table := term_ok ok.table
  terms term member := by
    rw [State.term] at member
    dsimp only at member
    split at member
    · next data =>
        rcases List.mem_append.mp member with known | new
        · exact ok.terms term known
        · obtain rfl := List.mem_singleton.mp new
          exact ⟨ok.table, data.1, data.2, rfl⟩
    · exact ok.terms term member

theorem StateOk.change (ok : StateOk state) {slot : Nat} (f : SessData → SessData)
    (same : ∀ data, (f data).stKey = data.stKey) : StateOk (state.change slot f) :=
  ⟨change_ok ok.table same, ok.terms⟩

theorem StateOk.insert (ok : StateOk state) {data : SessData}
    (named : data.stKey ≠ .zero ∧ data.stKey ≠ .last) {place : Nat} {after : SessTable}
    (done : dInsertMMDB state.tbl data = .ok (place, after)) : StateOk { state with tbl := after } :=
  ⟨insert_ok ok.table named done, ok.terms⟩

/-- The keys of FTP are not those of the ends of the table. -/
theorem port_named {key : SessKey} (ftp : key.usDestPort = PORT_FTPDATA ∨ key.usDestPort = PORT_FTPSIG) :
    key ≠ .zero ∧ key ≠ .last := by
  constructor
  · rintro rfl
    exact absurd ftp (by decide)
  · rintro rfl
    exact absurd ftp (by decide)

theorem port_key_named (uiDestIP : UInt32) (str : List UInt8) (stack : Nat → Int) :
    (newSess (portKey uiDestIP str stack)).stKey ≠ .zero ∧
      (newSess (portKey uiDestIP str stack)).stKey ≠ .last := by
  apply port_named
  rw [portKey]
  exact Or.inl rfl

theorem port_ok (ok : StateOk state) {pstTcp : Nat} {str : List UInt8} {stack : Nat → Int} :
    StateOk (portCommand state pstTcp str stack supply).2 := by
  rw [portCommand]
  have called : StateOk (if (state.tbl.tuple pstTcp).stDataKey.uiSrcIP ≠ 0 ∧
      (state.tbl.tuple pstTcp).stDataKey.usSrcPort ≠ 0 ∧
      (SessTable.search state.tbl (state.tbl.tuple pstTcp).stDataKey).isSome then
        (state.term (state.tbl.tuple pstTcp).stDataKey supply).2 else state) := by
    split
    · exact ok.term
    · exact ok
  split
  · exact called.change _ fun _ => rfl
  · next done =>
      have asked {after : State} (ok : StateOk after) (key : SessKey) :
          StateOk (after.change pstTcp fun data => { data with stDataKey := key }) :=
        ok.change _ fun _ => rfl
      exact StateOk.change ((asked called _).insert (port_key_named _ _ _) done) _ fun _ => rfl

theorem parse_ok (ok : StateOk state) {pstTcp : Nat} {szData : List UInt8} {stack : Nat → Int} :
    StateOk (CmdParse state pstTcp szData stack supply).2 := by
  rw [CmdParse]
  split
  · exact ok
  · split
    · exact ok
    · exact port_ok ok
  · exact ok

theorem message_ok (ok : StateOk state) {bRtxType : Nat} {szData : List UInt8} {stack : Nat → Int} :
    StateOk (dFTPMessage state info bRtxType szData stack supply).2 := by
  rw [dFTPMessage]
  dsimp only
  split
  · exact ok
  · split
    · exact ok
    · next pstMMDB found =>
        have stamped : StateOk (state.change pstMMDB fun data =>
            { data with stFTPSTAT := { data.stFTPSTAT with uiLastUpdateTime := info.uiCapTime } }) :=
          ok.change _ fun _ => rfl
        split
        · split
          · exact stamped.change _ fun _ => rfl
          · split
            · exact parse_ok stamped
            · exact stamped
        · exact stamped.change _ fun _ => rfl

theorem signal_ok (ok : StateOk state) (signal : info.usSrvPort = PORT_FTPSIG) :
    StateOk (startSignal conf state info supply).2 := by
  rw [startSignal]
  have freed : StateOk (match SessTable.search state.tbl info.key with
      | none => state
      | some pstMMDB =>
          ((state.change pstMMDB fun data => { data with dTimeOutTime := 1 }).term info.key supply).2) := by
    split
    · exact ok
    · next pstMMDB found =>
        have late : StateOk (state.change pstMMDB fun data => { data with dTimeOutTime := 1 }) :=
          ok.change _ fun _ => rfl
        exact late.term
  split
  · exact freed
  · next done => exact (freed.insert (port_named (Or.inr signal)) done).change _ fun _ => rfl

theorem step_ok (ok : StateOk state) (step : Step) : StateOk (state.step conf step) := by
  cases step with
  | start info supply =>
      rw [State.step, dSessStartMessage]
      split
      · next signal => exact signal_ok ok signal
      · split
        · exact ok
        · exact ok.change _ fun _ => rfl
  | message => exact message_ok ok
  | stop info supply =>
      rw [State.step, dSessStopMessage]
      split
      · exact ok
      · next pstMMDB found =>
          have stopped : StateOk (state.change pstMMDB fun data =>
              { data with stFTPSTAT := data.stFTPSTAT.stop info }) := ok.change _ fun _ => rfl
          exact stopped.term
  | term => exact ok.term

theorem run_ok (steps : List Step) (ok : StateOk state) : StateOk (steps.foldl (State.step conf) state) := by
  induction steps generalizing state with
  | nil => exact ok
  | cons step rest ih => exact ih (step_ok ok step)

/-- Each end of a data session in a run is exact just when it is clean. -/
theorem ends_exact (conf : Conf) (tbl : SessTable) (ok : TableOk tbl) (steps : List Step) :
    ∀ term ∈ (runSteps conf tbl steps).terms, term.Exact ↔ term.Clean := by
  have start : StateOk ⟨tbl, []⟩ := ⟨ok, fun _ member => absurd member List.not_mem_nil⟩
  intro term member
  exact exact_iff_clean ((run_ok steps start).terms term member)

def noSessions : SessTable := ⟨fun _ => newSess .zero, [], [0, 1, 2, 3]⟩

theorem no_sessions_ok : TableOk noSessions where
  wf := ⟨by decide, nofun, by decide⟩
  named := nofun

def client (uiCapTime : UInt32) (usCliPort usSrvPort : UInt16) : TcpInfo where
  uiCliIP := 0x0A000001
  uiSrvIP := 0x0A000002
  usCliPort := usCliPort
  usSrvPort := usSrvPort
  uiCapTime := uiCapTime
  uiCapMTime := 0
  usL4Code := 0
  usL7Code := 0
  uiIPTotUpPktSize := 0
  uiIPTotUpPktCnt := 0
  uiIPTotUpRetransSize := 0
  uiIPTotDnPktSize := 0
  uiIPTotDnPktCnt := 0
  uiIPTotDnRetransSize := 0
  uiSeqNum := 0
  usL4FailCode := TCP_NOERR_FIN_E1
  ucTcpClientStatus := 0
  ucTcpServerStatus := 0

def supplied (pstNode : Option Nat) : TermSupply := ⟨100, pstNode, true, 0, none, none⟩

/-- A signal session asks with `PORT 10,0,0,1,4,1` for a data session, which then ends. -/
def oneDownload (pstNode : Option Nat) : List Step :=
  [.start (client 10 1024 PORT_FTPSIG) (supplied none),
    .message (client 11 1024 PORT_FTPSIG) DEF_FROM_CLIENT
      [0x50, 0x4F, 0x52, 0x54, 0x20, 0x31, 0x30, 0x2C, 0x30, 0x2C, 0x30, 0x2C, 0x31, 0x2C, 0x34, 0x2C, 0x31]
      (fun _ => 0) (supplied none),
    .start (client 12 1025 PORT_FTPDATA) (supplied none),
    .stop (client 13 1025 PORT_FTPDATA) (supplied pstNode)]

def anyPlatform : Conf := ⟨fun _ _ => 0⟩

/-- A second signal session starts, the first stops and waits for its data session, and at the end of that the
deletion of the first moves the second into its slot. -/
def waitedDownload : List Step :=
  (oneDownload none).take 3 ++
    [.start (client 12 2048 PORT_FTPSIG) (supplied none), .stop (client 13 1024 PORT_FTPSIG) (supplied none),
      .stop (client 14 1025 PORT_FTPDATA) { supplied (some 7) with movedSig := some 2 }]

theorem ends_exact_waited :
    ((runSteps anyPlatform noSessions waitedDownload).terms.map fun term =>
        (term.outcome.logs.length, term.before.used, term.outcome.tbl.used)) = [(1, [2, 1, 0], [0])] ∧
      ∀ term ∈ (runSteps anyPlatform noSessions waitedDownload).terms, term.Clean ∧ term.Exact := by
  have slots : ∀ term ∈ (runSteps anyPlatform noSessions waitedDownload).terms,
      SessTable.search term.before term.pstKey = some 1 ∧
        SessTable.search term.before (term.before.tuple 1).stSignalKey = some 0 ∧
        (term.supply.pstNode = some 7 ∧ term.supply.pstFTPLog = true) ∧
        term.before.moves 0 term.supply.movedSig = some 2 := by decide +kernel
  refine ⟨by decide +kernel, fun term member => ?_⟩
  obtain ⟨own, sig, ⟨node, log⟩, moves⟩ := slots term member
  have clean : term.Clean := by
    refine ⟨1, 0, own, sig, fun _ => ⟨⟨node ▸ Option.some_ne_none 7, log⟩, fun _ other moved => ?_⟩⟩
    obtain rfl := Option.some.inj (moves.symm.trans moved)
    exact ⟨by decide, by decide⟩
  exact ⟨clean, (ends_exact anyPlatform noSessions no_sessions_ok waitedDownload term member).mpr clean⟩

/-- Without a node for the log the record of the data session stays. -/
theorem end_without_node :
    ¬ ∀ (conf : Conf) (tbl : SessTable) (steps : List Step), TableOk tbl →
      ∀ term ∈ (runSteps conf tbl steps).terms, term.Exact := by
  intro all
  have exact := all anyPlatform noSessions (oneDownload none) no_sessions_ok
  have stays : ((runSteps anyPlatform noSessions (oneDownload none)).terms.map fun term =>
      (SessTable.record term.outcome.tbl term.pstKey).isSome) = [true] := by decide +kernel
  obtain ⟨term, member, here⟩ := List.mem_map.mp (stays ▸ List.mem_singleton_self true)
  rw [(exact term member).records, remaining_own] at here
  exact nomatch here

end Run

end Upst.Aftp
