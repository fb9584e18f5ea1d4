import Upst.ArpRecords
import Upst.Sweeping

/-!
`RP_CheckTimer`: a sweep over the sessions in the order of their keys, in calls of at most fifty turns
that go on behind the key of the last turn. A removal in between moves records to other slots and leaves
their keys, so that each session has one turn and is the only one that the turn changes.
-/

namespace Upst.Arp

open Psess Slots Sweeping Tcp

set_option autoImplicit false

section Keys

theorem entry_rank_inj {first second : Greentry.GreentryKey} (same : Greentry.rank first = Greentry.rank second) :
    first = second := by
  obtain ⟨lower, equal, higher⟩ := Greentry.memcmpKey_rank first second
  rcases Int.lt_trichotomy (Greentry.memcmpKey first second) 0 with less | even | more
  · exact absurd same (Nat.ne_of_lt (lower.mp less))
  · exact equal.mp even
  · exact absurd same.symm (Nat.ne_of_lt (higher.mp more))

theorem rank_inj {first second : PsessKey} (same : first.rank = second.rank) : first = second := by
  injection entry_rank_inj same with pcf key
  cases first
  cases second
  exact congrArg₂ PsessKey.mk pcf key

theorem rank_first : firstKey.rank = 0 := by decide

theorem rank_last : lastKey.rank = 2 ^ 64 - 1 := by decide

theorem rank_le_last (key : PsessKey) : key.rank ≤ lastKey.rank := by
  have bound := Greentry.digits_lt (Greentry.keyBytes ⟨key.uiServingPCF, key.uiKey⟩)
  have length : (Greentry.keyBytes ⟨key.uiServingPCF, key.uiKey⟩).length = 8 := rfl
  rw [length] at bound
  rw [rank_last, PsessKey.rank, Greentry.rank]
  omega

/-- The keys of the records that are not the border records. -/
def IsSession (key : PsessKey) : Prop := key ≠ firstKey ∧ key ≠ lastKey

theorem session_rank {key : PsessKey} : IsSession key ↔ firstKey.rank < key.rank ∧ key.rank < lastKey.rank := by
  constructor
  · intro session
    refine ⟨?_, ?_⟩
    · rw [rank_first]
      apply Nat.pos_of_ne_zero
      intro zero
      exact session.1 (rank_inj (zero.trans rank_first.symm))
    · apply Nat.lt_of_le_of_ne (rank_le_last key)
      intro same
      exact session.2 (rank_inj same)
  · intro inside
    refine ⟨?_, ?_⟩
    · rintro rfl
      exact absurd inside.1 (Nat.lt_irrefl _)
    · rintro rfl
      exact absurd inside.2 (Nat.lt_irrefl _)

end Keys

section Select

variable {κ δ : Type} {keyOf : δ → κ} {rank : κ → Nat} {table : Table δ} {first last : κ} {slot : Nat}

theorem select_key_some (found : selectKey keyOf rank table first last = some slot) :
    slot ∈ table.used ∧ rank first < rank (keyOf (table.tuple slot)) ∧
      rank (keyOf (table.tuple slot)) < rank last ∧
      ∀ other ∈ table.used, rank first < rank (keyOf (table.tuple other)) →
        rank (keyOf (table.tuple slot)) ≤ rank (keyOf (table.tuple other)) := by
  obtain ⟨next, upper⟩ := Option.filter_eq_some_iff.mp found
  obtain ⟨used, behind, least⟩ := next_some next
  exact ⟨used, behind, of_decide_eq_true upper, least⟩

theorem select_key_none (none : selectKey keyOf rank table first last = none) (used : slot ∈ table.used)
    (behind : rank first < rank (keyOf (table.tuple slot))) : rank last ≤ rank (keyOf (table.tuple slot)) := by
  cases next : table.next keyOf rank (rank first) with
  | none => exact absurd behind (Nat.not_lt.mpr (next_none next used))
  | some other =>
      obtain ⟨-, -, least⟩ := next_some next
      have upper : rank last ≤ rank (keyOf (table.tuple other)) := by
        rw [selectKey, next] at none
        apply Nat.le_of_not_lt
        intro lower
        rw [Option.filter_some, if_pos (decide_eq_true lower)] at none
        cases none
      exact Nat.le_trans upper (least slot used behind)

end Select

section Turn

/-- What becomes of a session whose timer has expired. -/
def Visit.advanced (visit : Visit) : Option Session :=
  match visit.session.uiStopFlag with
  | .call => none
  | .dormant => some { callNormal visit.session with uiStopFlag := .recallWait }
  | .recallWait =>
      if visit.ours ∧ visit.session.uiCallType = .recall then some (callNormal visit.session) else none

def outcome (turn : Call × Visit) : Option Session :=
  if turn.1.expired turn.2.session then turn.2.advanced else some turn.2.session

def turns : Visits PsessKey Session (Call × Visit) where
  rank := PsessKey.rank
  key turn := turn.2.session.key
  data turn := turn.2.session
  outcome := outcome

variable {state : State} {slot : Nat} {choice : Choice}

theorem select_some (found : Select_PSESS state.psess state.first lastKey = some slot) :
    slot ∈ state.psess.used ∧ state.first.rank < (state.psess.tuple slot).key.rank ∧
      (state.psess.tuple slot).key.rank < lastKey.rank ∧
      ∀ other ∈ state.psess.used, state.first.rank < (state.psess.tuple other).key.rank →
        (state.psess.tuple slot).key.rank ≤ (state.psess.tuple other).key.rank :=
  select_key_some found

theorem select_none (none : Select_PSESS state.psess state.first lastKey = none)
    (used : slot ∈ state.psess.used) (behind : state.first.rank < (state.psess.tuple slot).key.rank) :
    lastKey.rank ≤ (state.psess.tuple slot).key.rank :=
  select_key_none none used behind

/-- The branch of an expired timer changes the session of the turn alone. -/
theorem time_out (wf : Wf Session.key state.psess) (used : slot ∈ state.psess.used) :
    Wf Session.key (timeOut state slot choice).2.psess ∧
      ∀ name, (timeOut state slot choice).2.record name =
        if name = (state.psess.tuple slot).key then
          Visit.advanced ⟨state.psess.tuple slot, ourCall state (state.psess.tuple slot)⟩
        else state.record name := by
  have same : (callNormal (state.psess.tuple slot)).key = (state.psess.tuple slot).key := rfl
  have removed : Wf Session.key
        (RemoveA10 (state.put slot (callNormal (state.psess.tuple slot))) slot choice).2.psess ∧
      ∀ name, (RemoveA10 (state.put slot (callNormal (state.psess.tuple slot))) slot choice).2.record name =
        if name = (state.psess.tuple slot).key then none else state.record name := by
    have removal := remove_spec choice (put_wf wf same) used
    refine ⟨removal.wf, fun name => ?_⟩
    rw [removal.record, put_own, same]
    split
    · rfl
    · next other => rw [put_record wf used same, same, if_neg other]
  have written (session : Session) (key : session.key = (state.psess.tuple slot).key) :
      Wf Session.key (state.put slot session).psess ∧ ∀ name, (state.put slot session).record name =
        if name = (state.psess.tuple slot).key then some session else state.record name := by
    refine ⟨put_wf wf key, fun name => ?_⟩
    rw [put_record wf used key, key]
  simp only [timeOut, Visit.advanced]
  split
  · next waiting =>
      obtain ⟨ours, flag, type⟩ := waiting
      rw [flag]
      simp only [ours, type, and_self, if_true]
      exact written _ rfl
  · next other =>
      cases flag : (state.psess.tuple slot).uiStopFlag with
      | call => exact removed
      | dormant => exact written _ rfl
      | recallWait =>
          have gone : ¬(ourCall state (state.psess.tuple slot) = true ∧
              (state.psess.tuple slot).uiCallType = .recall) := fun both => other ⟨both.1, flag, both.2⟩
          simp only [if_neg gone]
          exact removed

theorem remove_first : (RemoveA10 state slot choice).2.first = state.first := by
  have forgotten (session : Session) : (forgetCall (state.put slot (closeBuf session)) session).first =
      state.first := by
    rw [forgetCall]
    split <;> rfl
  simp only [RemoveA10]
  split <;> exact forgotten _

theorem time_out_first : (timeOut state slot choice).2.first = state.first := by
  simp only [timeOut]
  split
  · rfl
  · split
    · exact remove_first
    · exact remove_first
    · rfl

/-- What a turn does with the session that it has found. -/
def turn (call : Call) (choice : Choice) (state : State) (slot : Nat) : Bool × State :=
  let state := { state with first := (state.psess.tuple slot).key }
  if call.expired (state.psess.tuple slot) then timeOut state slot choice else (false, state)

def visitOf (state : State) (slot : Nat) : Visit where
  session := state.psess.tuple slot
  ours := ourCall state (state.psess.tuple slot)

variable {call : Call}

theorem turn_spec (wf : Wf Session.key state.psess) (used : slot ∈ state.psess.used) :
    Wf Session.key (turn call choice state slot).2.psess ∧
      (turn call choice state slot).2.first = (state.psess.tuple slot).key ∧
      ∀ name, (turn call choice state slot).2.record name =
        if name = (state.psess.tuple slot).key then outcome (call, visitOf state slot)
        else state.record name := by
  let marked := { state with first := (state.psess.tuple slot).key }
  simp only [turn]
  split
  · next expired =>
      obtain ⟨wf', records⟩ := @time_out marked slot choice wf used
      have due : outcome (call, visitOf state slot) = (visitOf state slot).advanced := if_pos expired
      rw [due]
      exact ⟨wf', time_out_first, records⟩
  · next waits =>
      have kept : outcome (call, visitOf state slot) = some (state.psess.tuple slot) := if_neg waits
      rw [kept]
      refine ⟨wf, rfl, fun name => ?_⟩
      split
      · next own =>
          rw [own]
          exact record_slot wf used
      · rfl

/-- A turn is the visit of the next session. -/
theorem turn_swept (wf : Wf Session.key state.psess)
    (found : Select_PSESS state.psess state.first lastKey = some slot) :
    Swept turns state.record (turn call choice state slot).2.record [(call, visitOf state slot)]
      state.first.rank (state.psess.tuple slot).key.rank := by
  obtain ⟨used, behind, -, least⟩ := select_some found
  obtain ⟨-, -, records⟩ := @turn_spec state slot choice call wf used
  have own := records (state.psess.tuple slot).key
  rw [if_pos rfl] at own
  refine @Swept.single _ _ _ turns state.record (turn call choice state slot).2.record state.first.rank
    (call, visitOf state slot) (record_slot wf used) behind ?_ own ?_
  · intro key session held above upTo
    obtain ⟨other, inside, rfl, rfl⟩ := (record_eq_some wf).mp held
    exact rank_inj (Nat.le_antisymm upTo (least other inside above))
  · intro name other
    exact (records name).trans (if_neg other)

end Turn

section Loop

/-- The part of a sweep up to a rank: all of it, or up to the key that is remembered. -/
structure Part (before : State) (after : State) (log : List (Call × Visit)) (high : Nat) : Prop where
  wf : Wf Session.key after.psess
  swept : Swept turns before.record after.record log before.first.rank high
  ordered : before.first.rank ≤ high
  ends : after.first = firstKey ∧ high = lastKey.rank - 1 ∨ after.first.rank = high ∧ high < lastKey.rank

variable {call : Call} {state : State}

theorem loop_step {count slot : Nat} (found : Select_PSESS state.psess state.first lastKey = some slot) :
    checkLoop call (count + 1) state =
      if (turn call (call.choices count) state slot).1 then
        ((turn call (call.choices count) state slot).2, [visitOf state slot])
      else
        ((checkLoop call count (turn call (call.choices count) state slot).2).1,
          visitOf state slot :: (checkLoop call count (turn call (call.choices count) state slot).2).2) := by
  rw [checkLoop, found]
  rfl

theorem loop_part (call : Call) (count : Nat) (state : State) (wf : Wf Session.key state.psess)
    (begun : state.first.rank < lastKey.rank) :
    ∃ high, Part state (checkLoop call count state).1 ((checkLoop call count state).2.map (Prod.mk call)) high ∧
      (0 < count → state.first.rank < high ∨
        (checkLoop call count state).1.first = firstKey ∧ high = lastKey.rank - 1) := by
  induction count generalizing state with
  | zero =>
      refine ⟨state.first.rank, ⟨wf, Swept.none fun _ _ _ behind => behind, Nat.le_refl _, ?_⟩, nofun⟩
      exact Or.inr ⟨rfl, begun⟩
  | succ count ih =>
      cases found : Select_PSESS state.psess state.first lastKey with
      | none =>
          rw [checkLoop, found]
          have finished : Swept turns state.record state.record [] state.first.rank (lastKey.rank - 1) := by
            refine Swept.none fun key session held behind => ?_
            obtain ⟨slot, used, rfl, rfl⟩ := (record_eq_some wf).mp held
            have upper := select_none found used behind
            exact Nat.lt_of_lt_of_le (Nat.sub_lt (Nat.zero_lt_of_lt begun) Nat.one_pos) upper
          exact ⟨lastKey.rank - 1, ⟨wf, finished, Nat.le_sub_one_of_lt begun, Or.inl ⟨rfl, rfl⟩⟩,
            fun _ => Or.inr ⟨rfl, rfl⟩⟩
      | some slot =>
          rw [loop_step found]
          obtain ⟨used, behind, upper, -⟩ := select_some found
          obtain ⟨wf', first, -⟩ := @turn_spec state slot (call.choices count) call wf used
          have visited := @turn_swept state slot (call.choices count) call wf found
          split
          · refine ⟨_, ⟨wf', visited, Nat.le_of_lt behind, Or.inr ⟨?_, upper⟩⟩, fun _ => Or.inl behind⟩
            rw [first]
          · have begun' : (turn call (call.choices count) state slot).2.first.rank < lastKey.rank := by
              rw [first]
              exact upper
            obtain ⟨high, part, -⟩ := ih _ wf' begun'
            have ordered := part.ordered
            have rest := part.swept
            rw [first] at ordered rest
            refine ⟨high, ⟨part.wf, ?_, ?_, part.ends⟩, fun _ => Or.inl (Nat.lt_of_lt_of_le behind ordered)⟩
            · exact visited.append rest (Nat.le_of_lt behind) ordered
            · exact Nat.le_trans (Nat.le_of_lt behind) ordered

end Loop

section Sweep

/-- Successive calls, with the sessions that each looks at. -/
def sweep : State → List Call → State × List (Call × Visit)
  | state, [] => (state, [])
  | state, call :: calls =>
      let one := RP_CheckTimer state call
      let rest := sweep one.1 calls
      (rest.1, one.2.map (Prod.mk call) ++ rest.2)

/-- The last of the calls, and no other, finds no further session and goes back to the first key. -/
def FullSweep : State → List Call → Prop
  | _, [] => False
  | state, [call] => (RP_CheckTimer state call).1.first = firstKey
  | state, call :: calls =>
      (RP_CheckTimer state call).1.first ≠ firstKey ∧ FullSweep (RP_CheckTimer state call).1 calls

theorem call_part {call : Call} {state : State} (wf : Wf Session.key state.psess)
    (begun : state.first.rank < lastKey.rank) :
    ∃ high, Part state (RP_CheckTimer state call).1 ((RP_CheckTimer state call).2.map (Prod.mk call)) high ∧
      ((RP_CheckTimer state call).1.first = firstKey ∧ high = lastKey.rank - 1 ∨
        (RP_CheckTimer state call).1.first.rank = high ∧ state.first.rank < high) := by
  obtain ⟨high, part, moves⟩ := loop_part call 50 state wf begun
  refine ⟨high, part, ?_⟩
  rcases part.ends with finished | ⟨there, upper⟩
  · exact Or.inl finished
  · rcases moves (by decide) with behind | first
    · exact Or.inr ⟨there, behind⟩
    · exact Or.inl first

theorem log_calls {call : Call} {calls : List Call} {one : List Visit} {rest : List (Call × Visit)}
    (inside : ∀ turn ∈ rest, turn.1 ∈ calls) :
    ∀ turn ∈ one.map (Prod.mk call) ++ rest, turn.1 ∈ call :: calls := by
  intro turn member
  rcases List.mem_append.mp member with here | later
  · obtain ⟨_, _, rfl⟩ := List.mem_map.mp here
    exact List.mem_cons_self
  · exact List.mem_cons_of_mem call (inside turn later)

theorem sweep_cons (call : Call) (calls : List Call) (state : State) :
    (sweep state (call :: calls)).1 = (sweep (RP_CheckTimer state call).1 calls).1 ∧
      (sweep state (call :: calls)).2 =
        (RP_CheckTimer state call).2.map (Prod.mk call) ++ (sweep (RP_CheckTimer state call).1 calls).2 :=
  ⟨rfl, rfl⟩

/-- The calls of a full sweep visit every session behind the one that is remembered. -/
theorem sweep_full {calls : List Call} {state : State} (wf : Wf Session.key state.psess)
    (begun : state.first.rank < lastKey.rank) (full : FullSweep state calls) :
    Swept turns state.record (sweep state calls).1.record (sweep state calls).2 state.first.rank
      (lastKey.rank - 1) ∧ ∀ turn ∈ (sweep state calls).2, turn.1 ∈ calls := by
  induction calls generalizing state with
  | nil => exact full.elim
  | cons call calls ih =>
      obtain ⟨high, part, moved⟩ := @call_part call state wf begun
      cases calls with
      | nil =>
          have finished : (RP_CheckTimer state call).1.first = firstKey := full
          have whole : high = lastKey.rank - 1 := by
            rcases moved with ⟨-, upTo⟩ | ⟨there, behind⟩
            · exact upTo
            · rw [finished, rank_first] at there
              exact absurd there (Nat.ne_of_lt (Nat.zero_lt_of_lt behind))
          have swept := part.swept
          rw [whole] at swept
          rw [sweep, sweep, List.append_nil]
          refine ⟨swept, ?_⟩
          have inside := @log_calls call [] (RP_CheckTimer state call).2 [] nofun
          rw [List.append_nil] at inside
          exact inside
      | cons next calls =>
          obtain ⟨open_sweep, later⟩ := full
          rcases part.ends with ⟨first, -⟩ | ⟨there, upper⟩
          · exact absurd first open_sweep
          · have begun' : (RP_CheckTimer state call).1.first.rank < lastKey.rank := by
              rw [there]
              exact upper
            obtain ⟨rest, inside⟩ := ih part.wf begun' later
            rw [there] at rest
            have upTo : high ≤ lastKey.rank - 1 := Nat.le_sub_one_of_lt upper
            have swept := part.swept.append rest part.ordered upTo
            obtain ⟨states, logs⟩ := sweep_cons call (next :: calls) state
            rw [states, logs]
            exact ⟨swept, log_calls inside⟩

/-- Calls that follow each other come to the end of a sweep. -/
theorem sweep_ends (calls : Nat → Call) (state : State) (wf : Wf Session.key state.psess)
    (begun : state.first.rank < lastKey.rank) :
    ∃ count, FullSweep state ((List.range count).map calls) := by
  generalize left : lastKey.rank - state.first.rank = measure
  induction measure using Nat.strong_induction_on generalizing calls state with
  | _ measure ih =>
      obtain ⟨high, part, moved⟩ := @call_part (calls 0) state wf begun
      by_cases first : (RP_CheckTimer state (calls 0)).1.first = firstKey
      · exact ⟨1, first⟩
      · rcases part.ends with ⟨finished, -⟩ | ⟨there, upper⟩
        · exact absurd finished first
        rcases moved with ⟨finished, -⟩ | ⟨-, behind⟩
        · exact absurd finished first
        rw [← there] at upper behind
        have less : lastKey.rank - (RP_CheckTimer state (calls 0)).1.first.rank < measure := by
          rw [← left]
          exact Nat.sub_lt_sub_left (Nat.lt_trans behind upper) behind
        obtain ⟨count, rest⟩ := ih _ less (fun turn => calls (turn + 1)) _ part.wf upper rfl
        refine ⟨count + 1, ?_⟩
        rw [List.range_succ_eq_map, List.map_cons, List.map_map]
        cases tail : (List.range count).map (calls ∘ Nat.succ) with
        | nil =>
            have none : FullSweep (RP_CheckTimer state (calls 0)).1 [] := tail ▸ rest
            exact none.elim
        | cons next later =>
            have full : FullSweep (RP_CheckTimer state (calls 0)).1 (next :: later) := tail ▸ rest
            exact ⟨first, full⟩

theorem advanced_differs (visit : Visit) : visit.advanced ≠ some visit.session := by
  intro same
  rw [Visit.advanced] at same
  cases flag : visit.session.uiStopFlag with
  | call =>
      rw [flag] at same
      exact nomatch same
  | dormant =>
      rw [flag] at same
      have flags := congrArg Session.uiStopFlag (Option.some.inj same)
      rw [flag] at flags
      exact nomatch flags
  | recallWait =>
      rw [flag] at same
      dsimp only at same
      split at same
      · next called =>
          have types := congrArg Session.uiCallType (Option.some.inj same)
          rw [called.2] at types
          exact nomatch types
      · exact nomatch same

/-- A full sweep looks once at each session, as it was before, and removes or advances exactly those whose
timer has expired at the call that looks at it. Nothing else changes. -/
theorem sweep_exact {state : State} {calls : List Call} (wf : Wf Session.key state.psess)
    (begins : state.first = firstKey) (full : FullSweep state calls) :
    ((sweep state calls).2.map fun turn => turn.2.session.key).Nodup ∧
      (∀ turn ∈ (sweep state calls).2, IsSession turn.2.session.key ∧
        state.record turn.2.session.key = some turn.2.session) ∧
      (∀ key session, IsSession key → state.record key = some session →
        ∃ call ∈ calls, ∃ ours, (call, ⟨session, ours⟩) ∈ (sweep state calls).2 ∧
          (sweep state calls).1.record key =
            (if call.expired session then Visit.advanced ⟨session, ours⟩ else some session) ∧
          ((sweep state calls).1.record key ≠ some session ↔ call.expired session)) ∧
      ∀ key, ¬(IsSession key ∧ (state.record key).isSome) →
        (sweep state calls).1.record key = state.record key := by
  have begun : state.first.rank < lastKey.rank := by
    rw [begins]
    decide
  obtain ⟨swept, inside⟩ := sweep_full wf begun full
  rw [begins] at swept
  have visited : ∀ turn ∈ (sweep state calls).2, IsSession turn.2.session.key := by
    intro turn member
    obtain ⟨behind, below⟩ := swept.inside turn member
    have upper : turn.2.session.key.rank < lastKey.rank := Nat.lt_of_le_sub_one (by decide) below
    exact session_rank.mpr ⟨behind, upper⟩
  refine ⟨swept.once, fun turn member => ⟨visited turn member, swept.held turn member⟩, ?_, ?_⟩
  · intro key session isSession held
    obtain ⟨behind, upper⟩ := session_rank.mp isSession
    have below : key.rank ≤ lastKey.rank - 1 := Nat.le_sub_one_of_lt upper
    obtain ⟨⟨call, visit⟩, member, rfl⟩ := swept.all key session held behind below
    have same := swept.held _ member
    rw [held] at same
    obtain rfl := Option.some.inj same
    have done := swept.done _ member
    refine ⟨call, inside _ member, visit.ours, member, done, ?_⟩
    by_cases expired : call.expired visit.session
    · have gone : outcome (call, visit) = visit.advanced := if_pos expired
      refine iff_of_true ?_ expired
      rw [done.trans gone]
      exact advanced_differs visit
    · have stays : outcome (call, visit) = some visit.session := if_neg expired
      refine iff_of_false ?_ expired
      rw [done.trans stays]
      exact not_not.mpr rfl
  · intro key other
    apply swept.kept
    intro turn member same
    apply other
    rw [← same]
    exact ⟨visited turn member, Option.isSome_iff_exists.mpr ⟨_, swept.held turn member⟩⟩

/-- Behind the border records a session that times out, one that does not, and one that goes dormant. -/
def threeSessions : List Session :=
  [Session.zero firstKey, Session.zero lastKey,
    { Session.zero ⟨1, 1⟩ with LastUpdate := ⟨10, 0⟩ },
    { Session.zero ⟨1, 2⟩ with LastUpdate := ⟨90, 0⟩ },
    { Session.zero ⟨1, 3⟩ with LastUpdate := ⟨20, 0⟩, uiStopFlag := .dormant }]

def threeState : State where
  psess :=
    { tuple := fun slot => threeSessions.getD slot (Session.zero firstKey)
      used := [0, 1, 2, 3, 4]
      free := [5] }
  greentry := { tuple := fun _ => ⟨⟨0, 0⟩, 0⟩, used := [], free := [] }
  callhash := fun _ => none
  first := firstKey
  checkTime := 0

/-- A removal moves the next session into the slot of the removed one. -/
def threeCall : Call where
  tCheckTime := 100
  timers := { RP_CALL_TIMEOUT := 60, RP_DORM_TIMEOUT := 30, RP_RCALL_TIMEOUT := 60, RP_RCALL_SIGWAIT := 60 }
  choices := fun _ => { psess := some 3, greentry := fun _ => none, added := true, trace := [] }

theorem three_wf : Wf Session.key threeState.psess where
  nodup := by decide
  keys := by decide +kernel
  room := by decide

theorem three_full : FullSweep threeState [threeCall] := by
  show (RP_CheckTimer threeState threeCall).1.first = firstKey
  decide +kernel

/-- One session more than a call has turns, every tenth of which times out. -/
def manyState : State where
  psess :=
    { tuple := fun slot =>
        { Session.zero (if slot = 0 then firstKey else if slot = 1 then lastKey else ⟨1, .ofNat slot⟩) with
          LastUpdate := ⟨if slot % 10 = 0 then 10 else 90, 0⟩ }
      used := List.range 53
      free := [53] }
  greentry := { tuple := fun _ => ⟨⟨0, 0⟩, 0⟩, used := [], free := [] }
  callhash := fun _ => none
  first := firstKey
  checkTime := 0

/-- A removal moves the session of one of the later slots. -/
def manyCall : Call :=
  { threeCall with choices := fun count => { threeCall.choices count with psess := some (52 - count / 10) } }

theorem many_wf : Wf Session.key manyState.psess where
  nodup := by decide +kernel
  keys := by decide +kernel
  room := by decide

/-- One call does not come to the end. -/
theorem sweep_ends_many : (RP_CheckTimer manyState manyCall).1.first ≠ firstKey ∧
    ∃ count, FullSweep manyState ((List.range count).map fun _ => manyCall) :=
  ⟨by decide +kernel, sweep_ends (fun _ => manyCall) manyState many_wf (by decide +kernel)⟩

/-- The session that moves is looked at in its new slot, and the other is gone. -/
theorem three_swept : (sweep threeState [threeCall]).1.record ⟨1, 1⟩ = none ∧
    (sweep threeState [threeCall]).1.record ⟨1, 2⟩ = threeSessions[3]? := by
  obtain ⟨-, -, all, -⟩ := sweep_exact three_wf rfl three_full
  have removed := all ⟨1, 1⟩ { Session.zero ⟨1, 1⟩ with LastUpdate := ⟨10, 0⟩ } ⟨by decide, by decide⟩ rfl
  have kept := all ⟨1, 2⟩ { Session.zero ⟨1, 2⟩ with LastUpdate := ⟨90, 0⟩ } ⟨by decide, by decide⟩ rfl
  obtain ⟨call, inside, ours, -, done, -⟩ := removed
  obtain rfl := List.mem_singleton.mp inside
  obtain ⟨call, inside, ours', -, done', -⟩ := kept
  obtain rfl := List.mem_singleton.mp inside
  exact ⟨done, done'⟩

end Sweep

end Upst.Arp
