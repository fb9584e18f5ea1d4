import Upst.ArpFrame

/-!
The entries of the GREENTRY table and the sessions that they name. `RemoveA10` deletes the entries of a
PCF, which it reads from the slot of the session behind the deletion of that one; each turn of its loop
goes on behind the key that the slot of the deleted entry shows then.
-/

namespace Upst.Arp

open Greentry Psess Slots Sweeping Tcp

set_option autoImplicit false

section Loop

/-- Each deletion of the loop leaves in the slot a key that has the same ones behind it. -/
def Follows (moved : Nat → Option Nat) : Nat → Table GreentryData → GreentryKey → GreentryKey → Prop
  | 0, _, _, _ => True
  | count + 1, table, first, last =>
      match Select_GREENTRY table first last with
      | none => True
      | some slot =>
          let after := (Delete_GREENTRY table (table.tuple slot).key (moved count)).2
          (∀ other ∈ after.used, rank (after.tuple other).key < rank last →
            (rank (after.tuple slot).key < rank (after.tuple other).key ↔
              rank (table.tuple slot).key < rank (after.tuple other).key)) ∧
            Follows moved count after (after.tuple slot).key last

variable {moved : Nat → Option Nat} {table : Table GreentryData} {first last : GreentryKey}

theorem delete_entry {slot : Nat} {other : Option Nat} (wf : Wf GreentryData.key table)
    (used : slot ∈ table.used) :
    (Delete_GREENTRY table (table.tuple slot).key other).2 = table.delete slot other := by
  rw [Delete_GREENTRY, deleteKey, search_used wf used]

theorem none_between (wf : Wf GreentryData.key table)
    (clear : ∀ slot ∈ table.used, rank first < rank (table.tuple slot).key →
      rank last ≤ rank (table.tuple slot).key) (name : GreentryKey) :
    table.record GreentryData.key name =
      if rank first < rank name ∧ rank name < rank last then none
      else table.record GreentryData.key name := by
  split
  · next between =>
      cases held : table.record GreentryData.key name with
      | none => rfl
      | some data =>
          obtain ⟨slot, used, rfl, rfl⟩ := (record_eq_some wf).mp held
          exact absurd between.2 (Nat.not_lt.mpr (clear slot used between.1))
  · rfl

/-- The loop deletes the entries between the two keys. -/
theorem remove_entries (count : Nat) (wf : Wf GreentryData.key table) (fuel : table.used.length ≤ count)
    (follows : Follows moved count table first last) :
    Wf GreentryData.key (removeEntries moved count table first last) ∧
      ∀ name, (removeEntries moved count table first last).record GreentryData.key name =
        if rank first < rank name ∧ rank name < rank last then none
        else table.record GreentryData.key name := by
  induction count generalizing table first with
  | zero =>
      have empty : table.used = [] := List.length_eq_zero_iff.mp (Nat.le_zero.mp fuel)
      rw [removeEntries]
      refine ⟨wf, none_between wf fun slot used => ?_⟩
      rw [empty] at used
      cases used
  | succ count ih =>
      rw [removeEntries]
      rw [Follows] at follows
      cases found : Select_GREENTRY table first last with
      | none => exact ⟨wf, none_between wf fun slot used behind => select_key_none found used behind⟩
      | some slot =>
          obtain ⟨used, behind, upper, least⟩ := select_key_some found
          rw [found] at follows
          obtain ⟨same, rest⟩ := follows
          dsimp only at same rest ⊢
          rw [delete_entry wf used] at same rest ⊢
          have fewer : (table.delete slot (moved count)).used.length ≤ count := by
            rw [delete_used, List.length_erase_of_mem (emptied_used used _)]
            exact Nat.sub_le_of_le_add fuel
          obtain ⟨wf', records⟩ := ih (delete_wf wf used (moved count)) fewer rest
          refine ⟨wf', fun name => ?_⟩
          rw [records, delete_record wf used]
          by_cases own : name = (table.tuple slot).key
          · have between : rank first < rank name ∧ rank name < rank last := by
              rw [own]
              exact ⟨behind, upper⟩
            rw [if_pos own, ite_self, if_pos between]
          · rw [if_neg own]
            cases held : table.record GreentryData.key name with
            | none => rw [ite_self, ite_self]
            | some data =>
                -- The record is still there, in the range if and only if it is behind the deleted one.
                obtain ⟨place, inside, known, named⟩ := (record_eq_some wf).mp held
                have kept := delete_record wf used (moved count) name
                rw [if_neg own, held] at kept
                obtain ⟨here, member, hold, key⟩ :=
                  (record_eq_some (delete_wf wf used (moved count))).mp kept
                have order := same here member
                rw [hold, key] at order
                have iff : rank first < rank name ∧ rank name < rank last ↔
                    rank ((table.delete slot (moved count)).tuple slot).key < rank name ∧
                      rank name < rank last := by
                  constructor
                  · intro between
                    refine ⟨(order between.2).mpr ?_, between.2⟩
                    have below := least place inside
                    rw [known, named] at below
                    exact Nat.lt_of_le_of_ne (below between.1) fun ranks => own (entry_rank_inj ranks).symm
                  · intro between
                    exact ⟨Nat.lt_trans behind ((order between.2).mp between.1), between.2⟩
                rw [if_congr iff rfl rfl]

end Loop

section Removal

/-- An entry of the table. -/
def State.entry (state : State) (key : GreentryKey) : Option GreentryData :=
  state.greentry.record GreentryData.key key

/-- The key of the session that an entry names. -/
def GreentryData.main (data : GreentryData) : PsessKey := ⟨data.key.uiPCFIP, data.uiMainGREKey⟩

theorem entry_key {state : State} (wf : Wf GreentryData.key state.greentry) {key : GreentryKey}
    {data : GreentryData} (held : state.entry key = some data) : data.key = key := by
  obtain ⟨slot, -, -, named⟩ := (record_eq_some wf).mp held
  exact named

/-- A call of `RemoveA10`. -/
structure Removing where
  state : State
  slot : Nat
  choice : Choice

def Removing.session (removing : Removing) : Session := removing.state.psess.tuple removing.slot

def Removing.after (removing : Removing) : State :=
  (RemoveA10 removing.state removing.slot removing.choice).2

/-- The PCF that the slot of the session shows behind its deletion. -/
def Removing.shownPCF (removing : Removing) : UInt32 :=
  (removing.state.psess.tuple ((removing.state.psess.moves removing.slot removing.choice.psess).getD
    removing.slot)).key.uiServingPCF

/-- The keys between the first and the last one of a PCF. -/
def Listed (uiPCFIP : UInt32) (key : GreentryKey) : Prop :=
  rank ⟨uiPCFIP, 0⟩ < rank key ∧ rank key < rank ⟨uiPCFIP, 0xFFFFFFFF⟩

instance (uiPCFIP : UInt32) (key : GreentryKey) : Decidable (Listed uiPCFIP key) :=
  inferInstanceAs (Decidable (_ ∧ _))

/-- The PCF that the slot shows has the entries of the session and no others, and the loop misses none. -/
structure Removing.Alone (removing : Removing) : Prop where
  own : ∀ key data, removing.state.entry key = some data →
    (Listed removing.shownPCF key ↔ data.main = removing.session.key)
  follows : Follows removing.choice.greentry removing.state.greentry.used.length removing.state.greentry
    ⟨removing.shownPCF, 0⟩ ⟨removing.shownPCF, 0xFFFFFFFF⟩

/-- The entries of the session are gone, and no others. -/
def Removing.Exact (removing : Removing) : Prop :=
  ∀ key, removing.after.entry key =
    (removing.state.entry key).filter fun data => data.main ≠ removing.session.key

theorem forget_greentry (state : State) (session : Session) :
    (forgetCall state session).greentry = state.greentry := by
  rw [forgetCall]
  split <;> rfl

variable {removing : Removing}

theorem remove_greentry (wf : Wf Session.key removing.state.psess)
    (used : removing.slot ∈ removing.state.psess.used) :
    removing.after.greentry = removeEntries removing.choice.greentry removing.state.greentry.used.length
      removing.state.greentry ⟨removing.shownPCF, 0⟩ ⟨removing.shownPCF, 0xFFFFFFFF⟩ := by
  obtain ⟨state, slot, choice⟩ := removing
  have closed := close_key (state.psess.tuple slot)
  have found := search_used (put_wf wf closed) used
  rw [put_own, closed] at found
  let put := state.put slot (closeBuf (state.psess.tuple slot))
  have shown : ((put.psess.delete slot choice.psess).tuple slot).key.uiServingPCF =
      Removing.shownPCF ⟨state, slot, choice⟩ := by
    have keys : Session.key (put.psess.tuple (origin slot (put.psess.moves slot choice.psess) slot)) =
        (state.psess.tuple (origin slot (put.psess.moves slot choice.psess) slot)).key := set_key closed _
    rw [delete_tuple, keys, origin, if_pos rfl]
    rfl
  rw [← shown]
  simp only [Removing.after, RemoveA10, Delete_PSESS, deleteKey, forget_psess, found, forget_greentry]
  rfl

/-- Where the condition is met, the removal deletes the entries of its session. -/
theorem alone_exact (wf : Wf Session.key removing.state.psess)
    (used : removing.slot ∈ removing.state.psess.used) (table : Wf GreentryData.key removing.state.greentry)
    (alone : removing.Alone) : Wf GreentryData.key removing.after.greentry ∧ removing.Exact := by
  obtain ⟨wf', records⟩ := remove_entries _ table (Nat.le_refl _) alone.follows
  have whole := remove_greentry wf used
  rw [← whole] at wf' records
  refine ⟨wf', fun key => (records key).trans ?_⟩
  show (if Listed removing.shownPCF key then none else removing.state.entry key) = _
  cases held : removing.state.entry key with
  | none => rw [Option.filter_none, ite_self]
  | some data =>
      have own := alone.own key data held
      rw [Option.filter_some]
      by_cases listed : Listed removing.shownPCF key
      · have gone : ¬decide (data.main ≠ removing.session.key) = true := by
          rw [decide_eq_true_iff]
          exact not_not.mpr (own.mp listed)
        rw [if_neg gone, if_pos listed]
      · have stays : decide (data.main ≠ removing.session.key) = true := by
          rw [decide_eq_true_iff]
          exact fun same => listed (own.mpr same)
        rw [if_pos stays, if_neg listed]

end Removal

section Pruned

/-- Every entry names a session. -/
def Grounded (state : State) : Prop :=
  ∀ key data, state.entry key = some data → (state.record data.main).isSome

/-- What the removals of a step leave: the sessions get fewer, and the entries of the others stay. -/
structure Pruned (before after : State) (removings : List Removing) : Prop where
  wf : Wf Session.key after.psess
  table : Wf GreentryData.key after.greentry
  sessions : ∀ name, (after.record name).isSome → (before.record name).isSome
  grounded : Grounded before → Grounded after
  kept : ∀ key data, before.entry key = some data → (after.record data.main).isSome →
    after.entry key = some data
  exact : ∀ removing ∈ removings, removing.Exact

theorem Pruned.trans {first mid last : State} {one two : List Removing} (early : Pruned first mid one)
    (late : Pruned mid last two) : Pruned first last (one ++ two) where
  wf := late.wf
  table := late.table
  sessions name there := early.sessions name (late.sessions name there)
  grounded before := late.grounded (early.grounded before)
  kept key data held there :=
    late.kept key data (early.kept key data held (late.sessions data.main there)) there
  exact removing member := (List.mem_append.mp member).elim (early.exact removing) (late.exact removing)

variable {state after : State} {slot : Nat} {removing : Removing}

/-- The sessions and the entries are the same ones. -/
theorem quiet_pruned (wf : Wf Session.key after.psess) (table : Wf GreentryData.key state.greentry)
    (greentry : after.greentry = state.greentry)
    (sessions : ∀ name, (after.record name).isSome = (state.record name).isSome) :
    Pruned state after [] := by
  have entries (key : GreentryKey) : after.entry key = state.entry key := by
    rw [State.entry, State.entry, greentry]
  refine ⟨wf, greentry ▸ table, fun name there => sessions name ▸ there, fun before key data held => ?_, ?_, ?_⟩
  · rw [entries] at held
    rw [sessions]
    exact before key data held
  · intro key data held _
    rw [entries]
    exact held
  · exact fun _ member => by cases member

theorem put_present (wf : Wf Session.key state.psess) (used : slot ∈ state.psess.used) {session : Session}
    (same : session.key = (state.psess.tuple slot).key) (name : PsessKey) :
    ((state.put slot session).record name).isSome = (state.record name).isSome := by
  rw [put_record wf used same]
  split
  · next own =>
      rw [own, same, State.record, record_slot wf used]
      rfl
  · rfl

theorem put_pruned (wf : Wf Session.key state.psess) (table : Wf GreentryData.key state.greentry)
    (used : slot ∈ state.psess.used) {session : Session} (same : session.key = (state.psess.tuple slot).key) :
    Pruned state (state.put slot session) [] :=
  quiet_pruned (put_wf wf same) table rfl (put_present wf used same)

theorem removal_pruned (wf : Wf Session.key removing.state.psess)
    (used : removing.slot ∈ removing.state.psess.used) (table : Wf GreentryData.key removing.state.greentry)
    (alone : removing.Alone) : Pruned removing.state removing.after [removing] := by
  have removal := remove_spec removing.choice wf used
  obtain ⟨table', exact⟩ := alone_exact wf used table alone
  have records (name : PsessKey) : removing.after.record name =
      if name = removing.session.key then none else removing.state.record name := removal.record name
  refine ⟨removal.wf, table', fun name there => ?_, fun before key data held => ?_, ?_, ?_⟩
  · rw [records] at there
    split at there
    · cases there
    · exact there
  · rw [exact, Option.filter_eq_some_iff] at held
    rw [records, if_neg (of_decide_eq_true held.2)]
    exact before key data held.1
  · intro key data held there
    rw [records] at there
    rw [exact, held, Option.filter_some]
    split at there
    · cases there
    · next other => rw [if_pos (decide_eq_true other)]
  · intro other member
    obtain rfl := List.mem_singleton.mp member
    exact exact

theorem clear_greentry : (clearPair state slot).greentry = state.greentry := by
  rw [clearPair]
  split <;> rfl

end Pruned

section Timer

/-- The removals of a turn. -/
def turnRemovals (call : Call) (choice : Choice) (state : State) (slot : Nat) : List Removing :=
  let state := { state with first := (state.psess.tuple slot).key }
  let session := state.psess.tuple slot
  if call.expired session then
    if ourCall state session ∧ session.uiStopFlag = .recallWait ∧ session.uiCallType = .recall then []
    else
      match session.uiStopFlag with
      | .call | .recallWait => [⟨state.put slot (callNormal session), slot, choice⟩]
      | .dormant => []
  else []

def loopRemovals (call : Call) : Nat → State → List Removing
  | 0, _ => []
  | count + 1, state =>
      match Select_PSESS state.psess state.first lastKey with
      | none => []
      | some slot =>
          let next := turn call (call.choices count) state slot
          turnRemovals call (call.choices count) state slot ++
            if next.1 then [] else loopRemovals call count next.2

variable {state : State} {slot : Nat} {choice : Choice} {call : Call}

theorem turn_pruned (wf : Wf Session.key state.psess) (table : Wf GreentryData.key state.greentry)
    (used : slot ∈ state.psess.used)
    (alone : ∀ removing ∈ turnRemovals call choice state slot, removing.Alone) :
    Pruned state (turn call choice state slot).2 (turnRemovals call choice state slot) := by
  let marked := { state with first := (state.psess.tuple slot).key }
  have noted : Pruned state marked [] := quiet_pruned wf table rfl fun _ => rfl
  have put (session : Session) (same : session.key = (state.psess.tuple slot).key) :
      Pruned state (marked.put slot session) [] :=
    noted.trans (@put_pruned marked slot wf table used session same)
  have normal : Wf Session.key (marked.put slot (callNormal (state.psess.tuple slot))).psess :=
    @put_wf marked slot (callNormal (state.psess.tuple slot)) wf rfl
  have removed (alone : Removing.Alone ⟨marked.put slot (callNormal (state.psess.tuple slot)), slot, choice⟩) :
      Pruned state (RemoveA10 (marked.put slot (callNormal (state.psess.tuple slot))) slot choice).2
        [⟨marked.put slot (callNormal (state.psess.tuple slot)), slot, choice⟩] :=
    (put (callNormal (state.psess.tuple slot)) rfl).trans (removal_pruned normal used table alone)
  simp only [turn, turnRemovals, timeOut] at alone ⊢
  split
  · next expired =>
      rw [if_pos expired] at alone
      split
      · exact put _ rfl
      · next other =>
          rw [if_neg other] at alone
          cases flag : (state.psess.tuple slot).uiStopFlag with
          | call =>
              rw [flag] at alone
              exact removed (alone _ List.mem_cons_self)
          | dormant => exact put _ rfl
          | recallWait =>
              rw [flag] at alone
              exact removed (alone _ List.mem_cons_self)
  · exact noted

theorem loop_pruned (count : Nat) (wf : Wf Session.key state.psess)
    (table : Wf GreentryData.key state.greentry)
    (alone : ∀ removing ∈ loopRemovals call count state, removing.Alone) :
    Pruned state (checkLoop call count state).1 (loopRemovals call count state) := by
  induction count generalizing state with
  | zero => exact quiet_pruned wf table rfl fun _ => rfl
  | succ count ih =>
      cases found : Select_PSESS state.psess state.first lastKey with
      | none =>
          rw [checkLoop, loopRemovals, found]
          exact quiet_pruned wf table rfl fun _ => rfl
      | some slot =>
          have used := (select_some found).1
          rw [loop_step found]
          rw [loopRemovals, found] at alone ⊢
          dsimp only at alone ⊢
          have one := turn_pruned wf table used fun removing member =>
            alone removing (List.mem_append_left _ member)
          by_cases ended : (turn call (call.choices count) state slot).1 = true
          · rw [if_pos ended, if_pos ended, List.append_nil]
            exact one
          · rw [if_neg ended] at alone
            rw [if_neg ended, if_neg ended]
            exact one.trans (ih one.wf one.table fun removing member =>
              alone removing (List.mem_append_right _ member))

end Timer

section Announce

variable {main : PsessKey} {table : Table GreentryData}

/-- The announced keys that are not known find room. -/
def Fits (main : PsessKey) : Table GreentryData → List UInt32 → Prop
  | _, [] => True
  | table, uiGREKey :: rest =>
      (Search_GREENTRY table ⟨main.uiServingPCF, uiGREKey⟩ = none →
        Insert_GREENTRY table { key := ⟨main.uiServingPCF, uiGREKey⟩, uiMainGREKey := main.uiKey } ≠ none) ∧
        Fits main (announce main table uiGREKey) rest

theorem announce_record (uiGREKey : UInt32) (wf : Wf GreentryData.key table)
    (fits : Search_GREENTRY table ⟨main.uiServingPCF, uiGREKey⟩ = none →
      Insert_GREENTRY table { key := ⟨main.uiServingPCF, uiGREKey⟩, uiMainGREKey := main.uiKey } ≠ none) :
    Wf GreentryData.key (announce main table uiGREKey) ∧
      ∀ name, (announce main table uiGREKey).record GreentryData.key name =
        if name = ⟨main.uiServingPCF, uiGREKey⟩ ∧ table.record GreentryData.key name = none then
          some { key := name, uiMainGREKey := main.uiKey }
        else table.record GreentryData.key name := by
  rw [announce]
  cases search : Search_GREENTRY table ⟨main.uiServingPCF, uiGREKey⟩ with
  | some slot =>
      refine ⟨wf, fun name => ?_⟩
      rw [if_neg]
      rintro ⟨rfl, unknown⟩
      cases (record_none.mp unknown).symm.trans search
  | none =>
      cases insert : Insert_GREENTRY table
          { key := ⟨main.uiServingPCF, uiGREKey⟩, uiMainGREKey := main.uiKey } with
      | none => exact absurd insert (fits search)
      | some after =>
          obtain ⟨slot, into⟩ := insert_some wf insert
          refine ⟨into.wf wf, fun name => ?_⟩
          refine (into.record wf name).trans ?_
          by_cases own : name = ⟨main.uiServingPCF, uiGREKey⟩
          · rw [if_pos own, if_pos ⟨own, own ▸ record_none.mpr search⟩, own]
          · rw [if_neg own, if_neg fun both => own both.1]

/-- The entries behind the loop over the announced keys. -/
theorem announced_record (keys : List UInt32) (wf : Wf GreentryData.key table) (fits : Fits main table keys) :
    Wf GreentryData.key (keys.foldl (announce main) table) ∧
      ∀ name, (keys.foldl (announce main) table).record GreentryData.key name =
        if name.uiPCFIP = main.uiServingPCF ∧ name.uiGREKey ∈ keys ∧
            table.record GreentryData.key name = none then
          some { key := name, uiMainGREKey := main.uiKey }
        else table.record GreentryData.key name := by
  induction keys generalizing table with
  | nil => exact ⟨wf, fun name => (if_neg fun all => by cases all.2.1).symm⟩
  | cons uiGREKey rest ih =>
      obtain ⟨room, later⟩ := fits
      obtain ⟨wf', one⟩ := announce_record uiGREKey wf room
      obtain ⟨wf'', records⟩ := ih wf' later
      refine ⟨wf'', fun name => (records name).trans ?_⟩
      have first := one name
      cases held : table.record GreentryData.key name with
      | some data =>
          have known : ¬(some data : Option GreentryData) = none := fun none => by cases none
          rw [held, if_neg fun both => known both.2] at first
          rw [first, if_neg fun all => known all.2.2, if_neg fun all => known all.2.2]
      | none =>
          rw [held] at first
          by_cases own : name = ⟨main.uiServingPCF, uiGREKey⟩
          · have known : ¬(some { key := name, uiMainGREKey := main.uiKey } : Option GreentryData) = none :=
              fun none => by cases none
            have here : name.uiPCFIP = main.uiServingPCF ∧ name.uiGREKey ∈ uiGREKey :: rest ∧
                (none : Option GreentryData) = none := by
              rw [own]
              exact ⟨rfl, List.mem_cons_self, rfl⟩
            rw [if_pos ⟨own, rfl⟩] at first
            rw [first, if_neg fun all => known all.2.2, if_pos here]
          · have same : name.uiPCFIP = main.uiServingPCF ∧ name.uiGREKey ∈ rest ∧
                (none : Option GreentryData) = none ↔ name.uiPCFIP = main.uiServingPCF ∧
                  name.uiGREKey ∈ uiGREKey :: rest ∧ (none : Option GreentryData) = none := by
              rw [List.mem_cons]
              refine and_congr_right fun pcf => and_congr_left fun _ => ⟨Or.inr, fun either => ?_⟩
              refine either.resolve_left fun key => own ?_
              rw [← pcf, ← key]
            rw [if_neg fun both => own both.1] at first
            rw [first, if_congr same rfl rfl]

end Announce

section Message

variable {state : State} {key : PsessKey} {message : Message} {info : InfoA11} {choice : Choice}

/-- The removals of a message. -/
def keyRemovals (state : State) (key : PsessKey) (message : Message) (info : InfoA11) (choice : Choice) :
    List Removing :=
  match findPSESS state key with
  | none => []
  | some slot =>
      let session := state.psess.tuple slot
      if released session info then
        let state := { state with greentry := info.dwKeyEntry.foldl (announce session.key) state.greentry }
        [⟨state.put slot (regRep (touch session message) message info), slot, choice⟩]
      else []

/-- What a message leaves of the entries, with the announced keys of the session. -/
structure Entered (main : PsessKey) (keys : List UInt32) (before after : State) (removings : List Removing) :
    Prop where
  table : Wf GreentryData.key after.greentry
  grounded : Grounded before → Grounded after
  kept : ∀ key data, before.entry key = some data → (after.record data.main).isSome →
    after.entry key = some data
  mapped : (after.record main).isSome → ∀ uiGREKey ∈ keys, before.entry ⟨main.uiServingPCF, uiGREKey⟩ = none →
    ∃ data, after.entry ⟨main.uiServingPCF, uiGREKey⟩ = some data ∧ data.uiMainGREKey = main.uiKey
  exact : ∀ removing ∈ removings, removing.Exact

theorem Registration.grows {ret : Int} {mid : State} (done : Registration state key message info choice ret mid)
    (inv : Inv state) (name : PsessKey) (there : (state.record name).isSome) : (mid.record name).isSome := by
  cases done with
  | idle _ => exact there
  | known sets slot found fine =>
      rw [put_present inv.wf (search_some found).1 (registered_key _)]
      exact there
  | refused _ _ _ => exact there
  | inserted sets slot table room into =>
      have record := into.record inv.wf name
      rw [State.record, record]
      split
      · rfl
      · exact there

theorem Registration.greentry {ret : Int} {mid : State}
    (done : Registration state key message info choice ret mid) : mid.greentry = state.greentry := by
  cases done <;> rfl

theorem switch_pruned {slot : Nat} (inv : Inv state) (table : Wf GreentryData.key state.greentry)
    (used : slot ∈ state.psess.used) {removings : List Removing}
    (calls : removings = if released (state.psess.tuple slot) info then
      [⟨state.put slot (regRep (touch (state.psess.tuple slot) message) message info), slot, choice⟩] else [])
    (alone : ∀ removing ∈ removings, removing.Alone) :
    Pruned state (switchMsg state slot message info choice) removings := by
  by_cases release : released (state.psess.tuple slot) info
  · rw [if_pos release] at calls
    subst calls
    have named := regRep_named (state.psess.tuple slot) message info
    have put := put_pruned inv.wf table used named.key
    have wf := put_wf inv.wf named.key
    have removed := @removal_pruned ⟨_, slot, choice⟩ wf used table (alone _ List.mem_cons_self)
    have others := put_record inv.wf used named.key
    obtain ⟨cleared, -, records⟩ := clear_free inv
      (fun name other => (others name).trans (if_neg (named.key.symm ▸ other)))
      (by rw [put_own, named.key]) (remove_spec choice wf used)
    rw [switch_removes message choice release]
    refine (put.trans removed).trans (quiet_pruned cleared removed.table clear_greentry fun name => ?_)
    rw [records]
    rfl
  · rw [if_neg release] at calls
    subst calls
    rw [switch_kept message info release]
    exact put_pruned inv.wf table used (handled_named (state.psess.tuple slot) message info).key

theorem proc_entries (inv : Inv state) (table : Wf GreentryData.key state.greentry)
    (fits : (procKey state key message info choice).1 = 0 →
      Fits (addressed state key info) state.greentry info.dwKeyEntry)
    (alone : ∀ removing ∈ keyRemovals state key message info choice, removing.Alone) :
    Entered (addressed state key info) info.dwKeyEntry state (procKey state key message info choice).2
      (keyRemovals state key message info choice) := by
  obtain ⟨ret, mid, done, rest⟩ := proc_parts key message info choice inv
  have inv' := done.inv inv
  have same := done.greentry
  have entries (key : GreentryKey) : mid.entry key = state.entry key := by
    rw [State.entry, State.entry, same]
  have setting (sets : setsUp info) : keyRemovals state key message info choice = [] := by
    rw [keyRemovals]
    split
    · rfl
    · exact if_neg (sets_not_released sets)
  rcases rest with ⟨whole, dropped⟩ | ⟨slot, -, found, used, named, whole⟩
  · have missing := (dropped_none inv done dropped).2
    have nothing : keyRemovals state key message info choice = [] := by
      by_cases sets : setsUp info
      · exact setting sets
      · cases done with
        | idle _ =>
            rw [keyRemovals, dropped.resolve_left (by decide)]
        | _ => exact absurd ‹setsUp info› sets
    rw [whole, nothing]
    refine ⟨same ▸ table, fun before name data held => ?_, fun name data held _ => ?_, fun there => ?_, ?_⟩
    · rw [entries] at held
      exact done.grows inv _ (before name data held)
    · rw [entries]
      exact held
    · rw [missing] at there
      cases there
    · exact fun _ member => by cases member
  · rw [whole] at fits ⊢
    rw [named] at whole ⊢
    let mid' := { mid with greentry := info.dwKeyEntry.foldl (announce (addressed state key info)) mid.greentry }
    have room := fits rfl
    rw [← same] at room table
    obtain ⟨table', announced⟩ := announced_record info.dwKeyEntry table room
    have calls : keyRemovals state key message info choice =
        if released (mid'.psess.tuple slot) info then
          [⟨mid'.put slot (regRep (touch (mid'.psess.tuple slot) message) message info), slot, choice⟩]
        else [] := by
      by_cases sets : setsUp info
      · rw [setting sets]
        exact (if_neg (sets_not_released sets)).symm
      · cases done with
        | idle _ =>
            rw [keyRemovals, found]
            simp only [named]
            rfl
        | _ => exact absurd ‹setsUp info› sets
    have there : (mid'.record (addressed state key info)).isSome := by
      have held := record_slot inv'.wf used
      rw [named] at held
      exact Option.isSome_iff_exists.mpr ⟨_, held⟩
    have pruned := @switch_pruned mid' message info choice slot ⟨inv'.wf, inv'.opened⟩ table' used _ calls alone
    have shown (name : GreentryKey) : mid'.entry name =
        if name.uiPCFIP = (addressed state key info).uiServingPCF ∧ name.uiGREKey ∈ info.dwKeyEntry ∧
            state.entry name = none then
          some { key := name, uiMainGREKey := (addressed state key info).uiKey }
        else state.entry name := by
      rw [← entries]
      exact announced name
    refine ⟨pruned.table, fun before => pruned.grounded fun name data held => ?_, fun name data held => ?_,
      fun after uiGREKey member unknown => ?_, pruned.exact⟩
    · rw [shown] at held
      split at held
      · next new =>
          obtain rfl := Option.some.inj held
          have same : GreentryData.main { key := name, uiMainGREKey := (addressed state key info).uiKey } =
              addressed state key info := by
            rw [GreentryData.main, new.1]
          rw [same]
          exact there
      · exact done.grows inv _ (before name data held)
    · refine pruned.kept name data ?_
      rw [shown, held, if_neg fun all => by cases all.2.2]
    · have new := (shown ⟨(addressed state key info).uiServingPCF, uiGREKey⟩).trans
        (if_pos ⟨rfl, member, unknown⟩)
      exact ⟨_, pruned.kept _ _ new after, rfl⟩

end Message

section Runs

variable {state : State}

/-- The calls of `RemoveA10` in a step. -/
def removals (state : State) : Event → List Removing
  | .message message choice =>
      match message.info with
      | none => []
      | some info =>
          if info.bA11 then
            match servingPCF message with
            | none => []
            | some uiServingPCF => keyRemovals state ⟨uiServingPCF, info.dwKey⟩ message info choice
          else []
  | .checkTimer call => loopRemovals call 50 state
  | .recallPSESS _ => []

/-- The keys that a message for the session announces and that are not mapped yet. -/
def newKeys (key : PsessKey) (state : State) : Event → List UInt32
  | .message message _ =>
      if message.session state = some key then
        ((message.info.map InfoA11.dwKeyEntry).getD []).filter fun uiGREKey =>
          (state.entry ⟨key.uiServingPCF, uiGREKey⟩).isNone
      else []
  | .checkTimer _ => []
  | .recallPSESS _ => []

def announcedStep (key : PsessKey) (state : State) (announced : List UInt32) (event : Event) : List UInt32 :=
  if ((step state event).record key).isNone then [] else announced ++ newKeys key state event

/-- The keys that have been announced for the session since its creation, if they were not mapped then. -/
def announcedTo (key : PsessKey) (start : State) (events : List Event) : List UInt32 :=
  (beside (announcedStep key) start [] events).2

/-- The table has room for the keys that are announced. -/
def Room (state : State) : Event → Prop
  | .message message choice =>
      ∀ info, message.info = some info → info.bA11 = true →
        ∀ uiServingPCF, servingPCF message = some uiServingPCF →
        (procKey state ⟨uiServingPCF, info.dwKey⟩ message info choice).1 = 0 →
          Fits (addressed state ⟨uiServingPCF, info.dwKey⟩ info) state.greentry info.dwKeyEntry
  | .checkTimer _ => True
  | .recallPSESS _ => True

/-- What was announced for a session that is there is mapped to it. -/
structure Mapped (key : PsessKey) (state : State) (announced : List UInt32) : Prop where
  absent : state.record key = none → announced = []
  mapped : ∀ uiGREKey ∈ announced, ∃ data, state.entry ⟨key.uiServingPCF, uiGREKey⟩ = some data ∧
    data.uiMainGREKey = key.uiKey

/-- What a step leaves of the entries. -/
structure Stepped (state : State) (event : Event) : Prop where
  table : Wf GreentryData.key (step state event).greentry
  grounded : Grounded state → Grounded (step state event)
  kept : ∀ key data, state.entry key = some data → ((step state event).record data.main).isSome →
    (step state event).entry key = some data
  mapped : ∀ key, ((step state event).record key).isSome → ∀ uiGREKey ∈ newKeys key state event,
    ∃ data, (step state event).entry ⟨key.uiServingPCF, uiGREKey⟩ = some data ∧ data.uiMainGREKey = key.uiKey
  exact : ∀ removing ∈ removals state event, removing.Exact

theorem pruned_stepped {event : Event} (pruned : Pruned state (step state event) (removals state event))
    (silent : ∀ key, newKeys key state event = []) : Stepped state event where
  table := pruned.table
  grounded := pruned.grounded
  kept := pruned.kept
  mapped key _ uiGREKey member := by
    rw [silent] at member
    cases member
  exact := pruned.exact

theorem step_entries (event : Event) (live : Live state) (table : Wf GreentryData.key state.greentry)
    (room : Room state event) (alone : ∀ removing ∈ removals state event, removing.Alone) :
    Stepped state event := by
  cases event with
  | message message choice =>
      have idle (same : step state (.message message choice) = state)
          (nothing : removals state (.message message choice) = [])
          (foreign : message.session state = none) : Stepped state (.message message choice) := by
        refine pruned_stepped ?_ fun key => if_neg fun own => ?_
        · rw [same, nothing]
          exact quiet_pruned live.wf table rfl fun _ => rfl
        · cases foreign.symm.trans own
      cases known : message.info with
      | none =>
          exact idle (by rw [step, ProcA11, known]) (by rw [removals, known]) (by rw [Message.session, known]; rfl)
      | some info =>
          by_cases bA11 : info.bA11 = true
          · cases pcf : servingPCF message with
            | none =>
                refine idle ?_ ?_ ?_
                · rw [step, ProcA11, known]
                  simp only [bA11, if_true, pcf]
                · rw [removals, known]
                  simp only [bA11, if_true, pcf]
                · rw [Message.session, known, Option.bind_some, if_pos bA11, pcf]
                  rfl
            | some uiServingPCF =>
                have whole : step state (.message message choice) =
                    (procKey state ⟨uiServingPCF, info.dwKey⟩ message info choice).2 := by
                  rw [step, ProcA11, known]
                  simp only [bA11, if_true, pcf]
                have calls : removals state (.message message choice) =
                    keyRemovals state ⟨uiServingPCF, info.dwKey⟩ message info choice := by
                  rw [removals, known]
                  simp only [bA11, if_true, pcf]
                have own : message.session state = some (addressed state ⟨uiServingPCF, info.dwKey⟩ info) := by
                  rw [Message.session, known, Option.bind_some, if_pos bA11, pcf, Option.map_some]
                rw [calls] at alone
                have entered := proc_entries live.toInv table (room info known bA11 uiServingPCF pcf) alone
                rw [← whole, ← calls] at entered
                refine ⟨entered.table, entered.grounded, entered.kept, fun key there uiGREKey member => ?_,
                  entered.exact⟩
                rw [newKeys, own] at member
                split at member
                · next same =>
                    obtain rfl := Option.some.inj same
                    rw [known] at member
                    obtain ⟨inside, unknown⟩ := List.mem_filter.mp member
                    exact entered.mapped there uiGREKey inside (Option.isNone_iff_eq_none.mp unknown)
                · cases member
          · refine idle ?_ ?_ ?_
            · rw [step, ProcA11, known]
              simp only [bA11]
              rfl
            · rw [removals, known]
              simp only [bA11]
              rfl
            · rw [Message.session, known, Option.bind_some, if_neg bA11]
  | checkTimer call => exact pruned_stepped (loop_pruned 50 live.wf table alone) fun _ => rfl
  | recallPSESS name =>
      refine pruned_stepped ?_ fun _ => rfl
      rw [step, recallPSESS]
      cases found : Search_PSESS state.psess name with
      | none => exact quiet_pruned live.wf table rfl fun _ => rfl
      | some slot =>
          dsimp only
          split
          · exact put_pruned live.wf table (search_some found).1 rfl
          · exact quiet_pruned live.wf table rfl fun _ => rfl

theorem step_mapped {key : PsessKey} {announced : List UInt32} {event : Event} (stepped : Stepped state event)
    (table : Wf GreentryData.key state.greentry) (before : Mapped key state announced) :
    Mapped key (step state event) (announcedStep key state announced event) := by
  rw [announcedStep]
  cases held : (step state event).record key with
  | none =>
      rw [Option.isNone_none, if_pos rfl]
      exact ⟨fun _ => rfl, (fun _ member => by cases member)⟩
  | some session =>
      have there : ((step state event).record key).isSome := Option.isSome_iff_exists.mpr ⟨_, held⟩
      rw [Option.isNone_some, if_neg Bool.false_ne_true]
      refine ⟨(fun none => by cases held.symm.trans none), fun uiGREKey member => ?_⟩
      rcases List.mem_append.mp member with old | new
      · obtain ⟨data, entry, main⟩ := before.mapped uiGREKey old
        have same : data.main = key := by
          rw [GreentryData.main, entry_key table entry, main]
        exact ⟨data, stepped.kept _ data entry (same ▸ there), main⟩
      · exact stepped.mapped key there uiGREKey new

/-- In a run whose removals all meet the condition, the entries and the sessions fit in every state. -/
theorem entries_run {start : State} (started : Started start) (table : Wf GreentryData.key start.greentry)
    (events : List Event) (room : EachStep events fun front event => Room (run start front) event)
    (alone : EachStep events fun front event =>
      ∀ removing ∈ removals (run start front) event, removing.Alone) :
    (∀ front, front <+: events → Grounded (run start front) ∧
        ∀ key, Mapped key (run start front) (announcedTo key start front)) ∧
      EachStep events fun front event => ∀ removing ∈ removals (run start front) event, removing.Exact := by
  have live (front : List Event) : Live (run start front) := run_live front (started_live started)
  have sound : ∀ front, front <+: events → Wf GreentryData.key (run start front).greentry ∧
      Grounded (run start front) ∧ ∀ key, Mapped key (run start front) (announcedTo key start front) := by
    intro front
    induction front using List.reverseRecOn with
    | nil =>
        intro _
        refine ⟨table, fun key data held => ?_, fun key => ⟨fun _ => rfl, fun _ member => by cases member⟩⟩
        obtain ⟨slot, used, -⟩ := (record_eq_some table).mp held
        rw [started.greentry] at used
        cases used
    | append_singleton front event ih =>
        intro inside
        obtain ⟨table', grounded, mapped⟩ := ih ((List.prefix_append front [event]).trans inside)
        have stepped := step_entries event (live front) table' (room front event inside) (alone front event inside)
        have next : run start (front ++ [event]) = step (run start front) event := run_snoc start front event
        rw [next]
        refine ⟨stepped.table, stepped.grounded grounded, fun key => ?_⟩
        rw [announcedTo, beside_snoc, beside_run]
        exact step_mapped stepped table' (mapped key)
  refine ⟨fun front inside => (sound front inside).2, fun front event inside => ?_⟩
  obtain ⟨table', -⟩ := sound front ((List.prefix_append front [event]).trans inside)
  exact (step_entries event (live front) table' (room front event inside) (alone front event inside)).exact

end Runs

section Witness

instance decidableFollows (moved : Nat → Option Nat) : (count : Nat) → (table : Table GreentryData) →
    (first last : GreentryKey) → Decidable (Follows moved count table first last)
  | 0, _, _, _ => .isTrue trivial
  | count + 1, table, first, last =>
      match found : Select_GREENTRY table first last with
      | none => .isTrue (by rw [Follows, found]; trivial)
      | some slot =>
          let after := (Delete_GREENTRY table (table.tuple slot).key (moved count)).2
          have rest := decidableFollows moved count after (after.tuple slot).key last
          decidable_of_iff
            ((∀ other ∈ after.used, rank (after.tuple other).key < rank last →
              (rank (after.tuple slot).key < rank (after.tuple other).key ↔
                rank (table.tuple slot).key < rank (after.tuple other).key)) ∧
              Follows moved count after (after.tuple slot).key last)
            (by rw [Follows, found])

instance decidableFits (main : PsessKey) : (table : Table GreentryData) → (keys : List UInt32) →
    Decidable (Fits main table keys)
  | _, [] => .isTrue trivial
  | table, uiGREKey :: rest =>
      @instDecidableAnd _ _ inferInstance (decidableFits main (announce main table uiGREKey) rest)

instance (state : State) (event : Event) : Decidable (Room state event) :=
  match event with
  | .message message choice =>
      -- A search would find the instance that tries every number of 32 bits for the PCF.
      have (info : InfoA11) : Decidable (∀ uiServingPCF ∈ servingPCF message,
          (procKey state ⟨uiServingPCF, info.dwKey⟩ message info choice).1 = 0 →
            Fits (addressed state ⟨uiServingPCF, info.dwKey⟩ info) state.greentry info.dwKeyEntry) :=
        Option.decidableForallMem (servingPCF message)
      inferInstanceAs (Decidable (∀ info ∈ message.info, info.bA11 = true →
        ∀ uiServingPCF ∈ servingPCF message,
          (procKey state ⟨uiServingPCF, info.dwKey⟩ message info choice).1 = 0 →
            Fits (addressed state ⟨uiServingPCF, info.dwKey⟩ info) state.greentry info.dwKeyEntry))
  | .checkTimer _ => .isTrue trivial
  | .recallPSESS _ => .isTrue trivial

/-- The condition, by the slots of the table. -/
theorem alone_of_slots {removing : Removing} (wf : Wf GreentryData.key removing.state.greentry)
    (own : ∀ slot ∈ removing.state.greentry.used,
      (Listed removing.shownPCF (removing.state.greentry.tuple slot).key ↔
        (removing.state.greentry.tuple slot).main = removing.session.key))
    (follows : Follows removing.choice.greentry removing.state.greentry.used.length removing.state.greentry
      ⟨removing.shownPCF, 0⟩ ⟨removing.shownPCF, 0xFFFFFFFF⟩) : removing.Alone where
  own key data held := by
    obtain ⟨slot, used, rfl, rfl⟩ := (record_eq_some wf).mp held
    exact own slot used
  follows := follows

/-- The start with room for entries. -/
def roomyState : State :=
  { startState [2, 3, 4] with greentry := { tuple := fun _ => ⟨⟨0, 0⟩, 0⟩, used := [], free := [0, 1, 2] } }

theorem roomy_started : Started roomyState ∧ Wf GreentryData.key roomyState.greentry := by
  obtain ⟨wf, borders, callhash, -, first⟩ := @start_started [2, 3, 4] (by decide) (by decide)
  exact ⟨⟨wf, borders, callhash, rfl, first⟩, by decide, (fun _ member => by cases member), by decide⟩

/-- The message with GRE keys, at a PCF. -/
def announcing (message : Message) (uiServingPCF : UInt32) (dwKeyEntry : List UInt32) : Message :=
  { message with
    dwSrcIP := if message.bRtxType = .client then uiServingPCF else message.dwSrcIP
    info := message.info.map fun info => { info with dwKeyEntry := dwKeyEntry } }

def greStart (uiServingPCF dwKey uiGREKey : UInt32) (seconds : Nat) : Event :=
  .message (announcing (a11Message .client DEF_A11_REG_REQ 1 ACTIVE_START dwKey [49] seconds) uiServingPCF
    [uiGREKey]) (simpleChoice none)

def releaseEvents (psess : Option Nat) : List Event :=
  [.message (a11Message .client DEF_A11_REG_REQ 1 ACTIVE_STOP 1 [49] 20) (simpleChoice none),
    .message (a11Message .server DEF_A11_REG_REP 0 0 1 [] 21) (simpleChoice psess)]

/-- Two sessions at two PCFs, of which that of the PCF 1 is released. -/
def apartEvents : List Event := [greStart 2 5 12 10, greStart 1 1 11 11] ++ releaseEvents none

/-- Two sessions at one PCF, of which the first is released. -/
def neighbourEvents : List Event := [greStart 1 1 11 10, greStart 1 2 12 11] ++ releaseEvents (some 3)

/-- The other PCF keeps its entry, and its session. -/
theorem apart_entries_kept : Grounded (run roomyState apartEvents) ∧
    Mapped ⟨2, 5⟩ (run roomyState apartEvents) (announcedTo ⟨2, 5⟩ roomyState apartEvents) := by
  have slots : EachStep apartEvents fun front event => ∀ removing ∈ removals (run roomyState front) event,
      (removing.state.greentry.used ++ removing.state.greentry.free).Nodup ∧
        (∀ slot ∈ removing.state.greentry.used, ∀ other ∈ removing.state.greentry.used,
          (removing.state.greentry.tuple slot).key = (removing.state.greentry.tuple other).key → slot = other) ∧
        removing.state.greentry.free ≠ [] ∧
        (∀ slot ∈ removing.state.greentry.used,
          (Listed removing.shownPCF (removing.state.greentry.tuple slot).key ↔
            (removing.state.greentry.tuple slot).main = removing.session.key)) ∧
        Follows removing.choice.greentry removing.state.greentry.used.length removing.state.greentry
          ⟨removing.shownPCF, 0⟩ ⟨removing.shownPCF, 0xFFFFFFFF⟩ := by
    decide +kernel
  have whole := entries_run roomy_started.1 roomy_started.2 apartEvents (by decide +kernel)
    fun front event inside removing member => by
      obtain ⟨nodup, keys, room, own, follows⟩ := slots front event inside removing member
      exact alone_of_slots ⟨nodup, keys, room⟩ own follows
  have last := whole.1 apartEvents (List.prefix_refl _)
  exact ⟨last.1, last.2 ⟨2, 5⟩⟩

/-- With its neighbour the session that is still there loses its entry. -/
theorem neighbour_entry_lost :
    Started roomyState ∧ Wf GreentryData.key roomyState.greentry ∧
      (EachStep neighbourEvents fun front event => Room (run roomyState front) event) ∧
      announcedTo ⟨1, 2⟩ roomyState neighbourEvents = [12] ∧
      ((run roomyState neighbourEvents).record ⟨1, 2⟩).isSome ∧
      (run roomyState neighbourEvents).entry ⟨1, 12⟩ = none ∧
      ¬Mapped ⟨1, 2⟩ (run roomyState neighbourEvents) (announcedTo ⟨1, 2⟩ roomyState neighbourEvents) := by
  have announced : announcedTo ⟨1, 2⟩ roomyState neighbourEvents = [12] := by decide +kernel
  have gone : (run roomyState neighbourEvents).entry ⟨1, 12⟩ = none := by decide +kernel
  refine ⟨roomy_started.1, roomy_started.2, by decide +kernel, announced, by decide +kernel, gone, fun mapped => ?_⟩
  rw [announced] at mapped
  obtain ⟨data, held, -⟩ := mapped.mapped 12 List.mem_cons_self
  cases gone.symm.trans held

end Witness

end Upst.Arp
