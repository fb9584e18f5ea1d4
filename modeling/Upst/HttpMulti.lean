import Upst.HttpBody
import Upst.Matching

/-!
The end of a multipart body. `dGetMultiData` keeps one index into the boundary, starts again at its
first byte after every mismatch, and looks at the index in front of each byte.
-/

namespace Upst.Http

open Matching

set_option autoImplicit false

section Claim

/-- `key[0..len-1)`. -/
def boundary (key : List UInt8) : List UInt8 := key.take (key.length - 1)

/-- The stream in small letters. -/
def lowered (segments : List (Bool × List UInt8)) : List UInt8 := (streamOf segments).map toLower

/-- The call for the segment with the last of so many bytes finds the end and has consumed just them;
the calls before it consume all they are given. -/
def ReportedIn (segments : List (Bool × List UInt8)) (reports : List (Got × Nat)) (size : Nat) : Prop :=
  ∃ front segment back last, segments = front ++ segment :: back ∧
    reports = front.map (fun segment => (.more, segment.2.length)) ++ [(.ended, last)] ∧
    (streamOf front).length + last = size ∧ 0 < last ∧ last ≤ segment.2.length

/-- The end is found where the boundary ends first, in capital or small letters, and never if the
boundary does not occur, unless a node is refused. -/
def FindsBoundary (key : List UInt8) (segments : List (Bool × List UInt8)) : Prop :=
  ∀ env client isNotREQ (msg : MsgInfo) world, msg.body.isSome → msg.multiKey = ⟨key, 0⟩ →
    ∃ reports after world', readSegments (multiRead env client isNotREQ) segments msg world =
        some ((reports, after), world') ∧
      (Fails reports ∧ Refused env client isNotREQ ∨
        (∀ place, FirstAt ((boundary key).map toLower) (lowered segments) place →
          ReportedIn segments reports (place + (boundary key).length)) ∧
        ((∀ place, ¬OccursAt ((boundary key).map toLower) (lowered segments) place) →
          AllMore reports))

/-- No segment ends with the last of so many bytes. -/
def NoCut (segments : List (Bool × List UInt8)) (size : Nat) : Prop :=
  ∀ front back, segments = front ++ back → (streamOf front).length ≠ size

/-- The boundary has no capital letters, the search comes to its first occurrence with nothing
matched, and the occurrence does not end a segment. -/
def Catches (key : List UInt8) (segments : List (Bool × List UInt8)) (place : Nat) : Prop :=
  (boundary key).map toLower = boundary key ∧
    Attempts (boundary key) ((lowered segments).take place) ∧
    NoCut segments (place + (boundary key).length)

end Claim

section Reading

variable {env : Env} {client : TSessKey} {isNotREQ : Bool} {key : List UInt8}

theorem boundary_length (key : List UInt8) : (boundary key).length = key.length - 1 :=
  List.length_take_of_le (Nat.sub_le _ _)

theorem next_advance {state : Nat} (short : state < (boundary key).length) (byte : UInt8) :
    MultiKey.next ⟨key, state⟩ byte = ⟨key, advance (boundary key) state (toLower byte)⟩ := by
  rw [boundary_length] at short
  have here : (boundary key)[state]? = key[state]? := List.getElem?_take_of_lt short
  rw [MultiKey.next, advance, here]

/-- What a call does, apart from the bytes that it keeps. -/
def MultiDone (env : Env) (client : TSessKey) (isNotREQ : Bool) (key : List UInt8) (state : Nat)
    (data : List UInt8) (got : Got) (dLen : Nat) (after : MsgInfo) : Prop :=
  match got with
  | .failed => Refused env client isNotREQ
  | .ended => stop (boundary key) state (data.map toLower) = some dLen
  | .more => stop (boundary key) state (data.map toLower) = none ∧ dLen = data.length ∧
      after.body.isSome ∧
      after.multiKey = ⟨key, stateAfter (boundary key) state (data.map toLower)⟩

theorem multi_turn_cases {state : Nat} {msg : MsgInfo} (multi : msg.multiKey = ⟨key, state⟩)
    (short : state < (boundary key).length) (body : msg.body.isSome) (limit : Bool) (byte : UInt8)
    (world : World) :
    (∃ next after, multiTurn env client isNotREQ limit byte msg world =
        some ((.failed, 0, next), after) ∧ Refused env client isNotREQ) ∨
    ∃ next after, multiTurn env client isNotREQ limit byte msg world =
        some ((.more, 1, next), after) ∧ next.body.isSome ∧
      next.multiKey = ⟨key, advance (boundary key) state (toLower byte)⟩ := by
  have going : ¬msg.multiKey.key.length - 1 ≤ msg.multiKey.state := by
    rw [multi, ← boundary_length]
    exact Nat.not_le.mpr short
  obtain ⟨chain, found⟩ := Option.isSome_iff_exists.mp body
  rw [multiTurn, if_neg going, multi, next_advance short]
  generalize (⟨key, advance (boundary key) state (toLower byte)⟩ : MultiKey) = multi'
  rcases @put_multi_cases env client isNotREQ { msg with multiKey := multi' } chain found byte world with
    ⟨after, put, refused⟩ | ⟨chain', after, put, -⟩
  · rw [put]
    exact Or.inl ⟨_, _, rfl, refused⟩
  · rw [put]
    exact Or.inr ⟨_, _, rfl, rfl, rfl⟩

theorem multi_read (limit : Bool) (data : List UInt8) {state : Nat} {msg : MsgInfo} {world : World}
    (multi : msg.multiKey = ⟨key, state⟩) (body : msg.body.isSome) :
    ∃ got dLen after world', multiRead env client isNotREQ limit data msg world =
        some ((got, dLen, after), world') ∧
      MultiDone env client isNotREQ key state data got dLen after := by
  induction data generalizing state msg world with
  | nil => exact ⟨.more, 0, msg, world, rfl, rfl, rfl, body, multi⟩
  | cons byte rest ih =>
      by_cases full : (boundary key).length ≤ state
      · have last : msg.multiKey.key.length - 1 ≤ msg.multiKey.state := by
          rw [multi, ← boundary_length]
          exact full
        refine ⟨.ended, 0, { msg with ucEndStatus := .s0D0A0D0A }, world, ?_, ?_⟩
        · rw [multiRead, readLoop, multiTurn, if_pos last]
        · rw [MultiDone, List.map_cons, stop, if_pos full]
      · rcases multi_turn_cases multi (Nat.lt_of_not_le full) body limit byte world with
          ⟨next, after, turn, refused⟩ | ⟨next, after, turn, body', multi'⟩
        · refine ⟨.failed, 0, next, after, ?_, refused⟩
          rw [multiRead, readLoop, turn]
        · obtain ⟨got, dLen, final, world', read, done⟩ := @ih _ next after multi' body'
          have whole : multiRead env client isNotREQ limit (byte :: rest) msg world =
              some ((got, 1 + dLen, final), world') := by
            rw [multiRead] at read
            rw [multiRead, readLoop, turn]
            dsimp only
            rw [read]
            rfl
          refine ⟨got, 1 + dLen, final, world', whole, ?_⟩
          cases got with
          | failed => exact done
          | ended =>
              have here : stop (boundary key) _ (rest.map toLower) = _ := done
              rw [MultiDone, List.map_cons, stop, if_neg full, here, Nat.add_comm]
              rfl
          | more =>
              obtain ⟨none, length, body'', multi''⟩ := done
              refine ⟨?_, ?_, body'', multi''⟩
              · rw [List.map_cons, stop, if_neg full, none]
                rfl
              · rw [length, List.length_cons, Nat.add_comm]

/-- The call that finds the end has another byte behind the occurrence. -/
def StoppedIn (segments : List (Bool × List UInt8)) (reports : List (Got × Nat)) (size : Nat) : Prop :=
  ∃ front segment back last, segments = front ++ segment :: back ∧
    reports = front.map (fun segment => (.more, segment.2.length)) ++ [(.ended, last)] ∧
    (streamOf front).length + last = size ∧ last < segment.2.length

theorem stopped_cons {segments : List (Bool × List UInt8)} {reports : List (Got × Nat)} {size : Nat}
    (segment : Bool × List UInt8) (stopped : StoppedIn segments reports size) :
    StoppedIn (segment :: segments) ((.more, segment.2.length) :: reports)
      (segment.2.length + size) := by
  obtain ⟨front, other, back, last, rfl, rfl, sum, inside⟩ := stopped
  refine ⟨segment :: front, other, back, last, rfl, rfl, ?_, inside⟩
  rw [stream_cons, List.length_append, Nat.add_assoc, sum]

theorem multi_segments (segments : List (Bool × List UInt8)) {state : Nat} {msg : MsgInfo}
    {world : World} (multi : msg.multiKey = ⟨key, state⟩) (body : msg.body.isSome) :
    ∃ reports after world', readSegments (multiRead env client isNotREQ) segments msg world =
        some ((reports, after), world') ∧
      (Fails reports ∧ Refused env client isNotREQ ∨
        match stop (boundary key) state (lowered segments) with
        | some size => StoppedIn segments reports size
        | none => AllMore reports) := by
  induction segments generalizing state msg world with
  | nil => exact ⟨[], msg, world, rfl, Or.inr nofun⟩
  | cons segment segments ih =>
      obtain ⟨limit, data⟩ := segment
      have stream : lowered ((limit, data) :: segments) = data.map toLower ++ lowered segments := by
        rw [lowered, stream_cons, List.map_append]
        rfl
      obtain ⟨got, dLen, next, middle, read, done⟩ :=
        @multi_read env client isNotREQ key limit data state msg world multi body
      rw [readSegments, read, stream, stop_append, List.length_map]
      cases got with
      | failed => exact ⟨_, _, _, rfl, Or.inl ⟨fails_alone dLen, done⟩⟩
      | ended =>
          have here : stop _ _ _ = _ := done
          have inside := ((stop_iff _ _ _).mp here).2
          rw [List.length_map] at inside
          refine ⟨_, _, _, rfl, Or.inr ?_⟩
          rw [here]
          exact ⟨[], (limit, data), segments, dLen, rfl, rfl, Nat.zero_add dLen, inside⟩
      | more =>
          obtain ⟨none, length, body', multi'⟩ := done
          obtain ⟨reports, after, world', run, outcome⟩ := @ih _ next middle multi' body'
          dsimp only
          rw [run, none, Option.none_or, length]
          refine ⟨_, _, _, rfl, ?_⟩
          rcases outcome with ⟨fails, refused⟩ | outcome
          · exact Or.inl ⟨fails_cons data.length fails, refused⟩
          · refine Or.inr ?_
            cases found : stop (boundary key) (stateAfter (boundary key) state (data.map toLower))
              (lowered segments) with
            | none =>
                rw [found] at outcome
                exact all_more_cons outcome
            | some size =>
                rw [found] at outcome
                exact stopped_cons (limit, data) outcome

end Reading

section Found

variable {key : List UInt8} {segments : List (Bool × List UInt8)} {reports : List (Got × Nat)}

theorem to_lower_twice (byte : UInt8) : toLower (toLower byte) = toLower byte := by
  rw [toLower, toLower]
  split
  · next capital =>
      rw [if_neg]
      rintro ⟨-, small⟩
      have low := UInt8.le_iff_toNat_le.mp capital.1
      have high := UInt8.le_iff_toNat_le.mp capital.2
      have below := UInt8.le_iff_toNat_le.mp small
      rw [UInt8.toNat_add] at below
      change 65 ≤ byte.toNat at low
      change byte.toNat ≤ 90 at high
      change (byte.toNat + 32) % 2 ^ 8 ≤ 90 at below
      omega
  · rfl

/-- What occurs in small letters has no capital letters. -/
theorem occurs_lowered {place : Nat} (occurs : OccursAt (boundary key) (lowered segments) place) :
    (boundary key).map toLower = boundary key := by
  refine (List.map_congr_left fun letter member => ?_).trans (List.map_id _)
  obtain ⟨byte, -, rfl⟩ := List.mem_map.mp (List.mem_of_mem_drop (occurs.2.subset member))
  exact to_lower_twice byte

theorem segments_compare {front front' back back' : List (Bool × List UInt8)}
    (same : front ++ back = front' ++ back') : front <+: front' ∨ front' <+: front :=
  List.prefix_or_prefix_of_prefix ⟨back, rfl⟩ ⟨back', same.symm⟩

theorem stream_append (front back : List (Bool × List UInt8)) :
    streamOf (front ++ back) = streamOf front ++ streamOf back :=
  List.flatMap_append

theorem taken_segments (front : List (Bool × List UInt8)) :
    taken (front.map fun segment => ((Got.more, segment.2.length) : Got × Nat)) =
      (streamOf front).length := by
  induction front with
  | nil => rfl
  | cons segment front ih => rw [List.map_cons, taken_cons, ih, stream_cons, List.length_append]

/-- A count inside a segment, with a byte of it before and behind, is no cut. -/
theorem no_cut_inside {front back : List (Bool × List UInt8)} {segment : Bool × List UInt8} {last : Nat}
    (positive : 0 < last) (inside : last < segment.2.length) :
    NoCut (front ++ segment :: back) ((streamOf front).length + last) := by
  intro front' back' same
  rcases segments_compare same.symm with ⟨more, rfl⟩ | ⟨more, rfl⟩
  · rw [stream_append, List.length_append]
    omega
  · cases more with
    | nil =>
        rw [List.append_nil]
        omega
    | cons other more =>
        rw [List.append_assoc] at same
        obtain ⟨rfl, -⟩ := List.cons.inj (List.append_cancel_left same)
        rw [stream_append, stream_cons, List.length_append, List.length_append]
        omega

/-- The calls report as they should just when the search stops there and the segment goes on. -/
theorem reported_iff {place : Nat} (key : List UInt8) (segments : List (Bool × List UInt8))
    (first : FirstAt ((boundary key).map toLower) (lowered segments) place)
    (long : 2 ≤ key.length)
    (outcome : match stop (boundary key) 0 (lowered segments) with
      | some size => StoppedIn segments reports size
      | none => AllMore reports) :
    ReportedIn segments reports (place + (boundary key).length) ↔ Catches key segments place := by
  have positive : 0 < (boundary key).length := by
    rw [boundary_length]
    omega
  constructor
  · rintro ⟨front, segment, back, last, parts, said, sum, more, most⟩
    cases found : stop (boundary key) 0 (lowered segments) with
    | none =>
        rw [found] at outcome
        have code := outcome (.ended, last) (said ▸ List.mem_append_right _ List.mem_cons_self)
        exact nomatch code
    | some size =>
        rw [found] at outcome
        obtain ⟨front', segment', back', last', parts', said', sum', inside⟩ := outcome
        obtain ⟨fronts, lasts⟩ := last_unique (said.symm.trans said')
        cases lasts
        have sizes := congrArg taken fronts
        rw [taken_segments, taken_segments] at sizes
        have place_end : size = place + (boundary key).length := by omega
        have scanned := ((stop_iff 0 (lowered segments) size).mp found).1
        obtain ⟨before, behind, -, occurrence, -⟩ := scan_found (Nat.zero_le _) scanned
        have low := occurs_lowered (occurs_iff.mpr ⟨before, behind, occurrence, rfl⟩)
        rw [low] at first
        refine ⟨low, (scan_first_iff first).mp (place_end ▸ scanned), ?_⟩
        rw [parts', ← place_end, ← sum']
        exact no_cut_inside more inside
  · rintro ⟨low, attempts, uncut⟩
    rw [low] at first
    have scanned := (scan_first_iff first).mpr attempts
    have within : place + (boundary key).length ≤ (lowered segments).length := by
      have fits := first.1.2.length_le
      have start := first.1.1
      rw [List.length_drop] at fits
      omega
    have total : (lowered segments).length = (streamOf segments).length := List.length_map _
    have whole := uncut segments [] (List.append_nil segments).symm
    rw [(stop_iff 0 (lowered segments) _).mpr ⟨scanned, by omega⟩] at outcome
    obtain ⟨front, segment, back, last, parts, said, sum, inside⟩ := outcome
    have start := uncut front (segment :: back) parts
    exact ⟨front, segment, back, last, parts, said, sum, by omega, Nat.le_of_lt inside⟩

theorem never_found {key : List UInt8} {segments : List (Bool × List UInt8)}
    (nowhere : ∀ place, ¬OccursAt ((boundary key).map toLower) (lowered segments) place) :
    stop (boundary key) 0 (lowered segments) = none := by
  cases found : stop (boundary key) 0 (lowered segments) with
  | none => rfl
  | some size =>
      have scanned := ((stop_iff 0 (lowered segments) size).mp found).1
      obtain ⟨before, behind, -, occurrence, -⟩ := scan_found (Nat.zero_le _) scanned
      have occurs := occurs_iff.mpr ⟨before, behind, occurrence, rfl⟩
      have absent := nowhere before.length
      rw [occurs_lowered occurs] at absent
      exact absurd occurs absent

/-- The end is found as it should be just when the first occurrence of the boundary is caught. -/
theorem multi_end_iff (key : List UInt8) (long : 2 ≤ key.length)
    (segments : List (Bool × List UInt8)) :
    FindsBoundary key segments ↔
      ∀ place, FirstAt ((boundary key).map toLower) (lowered segments) place →
        Catches key segments place := by
  constructor
  · intro finds place first
    let msg : MsgInfo := { freshMsg with multiKey := ⟨key, 0⟩ }
    obtain ⟨reports, after, world', run, outcome⟩ := finds plainEnv oneClient false msg .start rfl rfl
    obtain ⟨reports', after', world'', run', outcome'⟩ :=
      @multi_segments plainEnv oneClient false key segments 0 msg .start rfl rfl
    cases run.symm.trans run'
    have found := outcome.resolve_left fun fails => plainEnv_not_refused fails.2
    have reached := outcome'.resolve_left fun fails => plainEnv_not_refused fails.2
    exact (reported_iff key segments first long reached).mp (found.1 place first)
  · intro catches env client isNotREQ msg world body multi
    obtain ⟨reports, after, world', run, outcome⟩ :=
      @multi_segments env client isNotREQ key segments 0 msg world multi body
    refine ⟨reports, after, world', run, outcome.imp_right fun reached => ⟨fun place first => ?_, ?_⟩⟩
    · exact (reported_iff key segments first long reached).mpr (catches place first)
    · intro nowhere
      rw [never_found nowhere] at reached
      exact reached

/-- The boundary `--a`, read with its line end, behind a single dash and over two segments. -/
theorem dashes_found :
    FindsBoundary [45, 45, 97, 13] [(true, [45, 120, 45]), (true, [45, 65, 13, 10])] := by
  refine (multi_end_iff [45, 45, 97, 13] (by decide) _).mpr fun place first => ?_
  have here : place = 2 := by
    rcases Nat.lt_trichotomy place 2 with before | same | behind
    · exact absurd first.1.2 ((by decide : ∀ before < 2, ¬[45, 45, 97] <+:
        ([45, 120, 45, 45, 97, 13, 10] : List UInt8).drop before) place before)
    · exact same
    · exact absurd ⟨by decide, by decide⟩ (first.2 2 behind)
  rw [here]
  refine ⟨by decide, .missed 1 120 [] (by decide) (by decide) .none, fun front back parts => ?_⟩
  have short : front.length < 3 := by
    have whole : 2 = front.length + back.length := (congrArg List.length parts).trans List.length_append
    omega
  have taken : front = [(true, [45, 120, 45]), (true, [45, 65, 13, 10])].take front.length := by
    rw [parts, List.take_left]
  rw [taken]
  exact (by decide : ∀ count < 3, (streamOf
    ([(true, [45, 120, 45]), (true, [45, 65, 13, 10])].take count)).length ≠ 5) front.length short

/-- One more dash in front of the boundary. -/
theorem third_dash_missed : ¬FindsBoundary [45, 45, 97, 13] [(true, [45, 45, 45, 97, 13, 10])] := by
  intro finds
  let msg : MsgInfo := { freshMsg with multiKey := ⟨[45, 45, 97, 13], 0⟩ }
  obtain ⟨reports, after, world', run, outcome⟩ := finds plainEnv oneClient false msg .start rfl rfl
  have found := outcome.resolve_left fun fails => plainEnv_not_refused fails.2
  have first : FirstAt ((boundary [45, 45, 97, 13]).map toLower)
      (lowered [(true, [45, 45, 45, 97, 13, 10])]) 1 := by
    refine ⟨⟨by decide, by decide⟩, fun before less occurs => ?_⟩
    cases Nat.lt_one_iff.mp less
    exact absurd occurs.2 (by decide)
  obtain ⟨reports', after', world'', run', outcome'⟩ :=
    @multi_segments plainEnv oneClient false [45, 45, 97, 13] [(true, [45, 45, 45, 97, 13, 10])] 0 msg
      .start rfl rfl
  cases run.symm.trans run'
  have reached := outcome'.resolve_left fun fails => plainEnv_not_refused fails.2
  have caught := (reported_iff _ _ first (by decide) reached).mp (found.1 1 first)
  have scanned := (scan_first_iff (caught.1 ▸ first)).mpr caught.2.1
  exact absurd scanned (by decide)

end Found

end Upst.Http
