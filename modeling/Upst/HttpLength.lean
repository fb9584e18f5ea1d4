import Upst.HttpBody

/-!
A body with a length. While it is buffered, `dGetLengthData` takes it byte by byte, and behind that it
only counts. Both count alike up to the largest number, and a call that is buffered at its start is
buffered to its end.
-/

namespace Upst.Http

set_option autoImplicit false

section Claim

/-- The end is reported exactly when `uiBodyLen` reaches `uiLen`, with no byte behind it consumed. -/
def ReachesLen (msg : MsgInfo) (segments : List (Bool × List UInt8)) (reports : List (Got × Nat))
    (after : MsgInfo) : Prop :=
  if msg.uiLen ≤ msg.uiBodyLen + (streamOf segments).length then
    EndsAt reports (msg.uiLen - msg.uiBodyLen) ∧ after.uiBodyLen = msg.uiLen
  else
    GoesOn reports (streamOf segments).length ∧
      after.uiBodyLen = msg.uiBodyLen + (streamOf segments).length

/-- The buffered calls do as the others do, unless a node is refused, and buffer at most `uiMaxLen`
bytes where that is set. -/
def BranchesAgree (msg : MsgInfo) (segments : List (Bool × List UInt8)) : Prop :=
  ∀ env client isNotREQ chain world world', chain.bytes.length = msg.uiBodyLen →
    ∃ reports reports' after after' final final',
      readSegments (lengthRead env client isNotREQ) segments
        { msg with body := some chain, buffering := true } world = some ((reports, after), final) ∧
      readSegments (lengthRead env client isNotREQ) segments
        { msg with body := some chain, buffering := false } world' =
          some ((reports', after'), final') ∧
      ReachesLen msg segments reports' after' ∧
      (Fails reports ∧ Refused env client isNotREQ ∨ reports = reports' ∧
        after.uiBodyLen = after'.uiBodyLen ∧ after.uiLimitLen = after'.uiLimitLen ∧
        after.ucEndStatus = after'.ucEndStatus) ∧
      (0 < msg.uiMaxLen → ∃ chain', after.body = some chain' ∧ chain'.bytes.length ≤ msg.uiMaxLen)

/-- No call before the end takes the count to the end of its range. -/
def NoWrap (uiLen start : Nat) (segments : List (Bool × List UInt8)) : Prop :=
  ∀ front segment back, segments = front ++ segment :: back →
    start + (streamOf front).length < uiLen →
      start + (streamOf front).length + segment.2.length < 2 ^ 32

/-- No call begins before and ends behind `uiMaxLen` bytes of a longer body. -/
def NoCross (uiLen uiMaxLen start : Nat) (segments : List (Bool × List UInt8)) : Prop :=
  0 < uiMaxLen → uiMaxLen < uiLen → ∀ front segment back, segments = front ++ segment :: back →
    start + (streamOf front).length < uiMaxLen →
      start + (streamOf front).length + segment.2.length ≤ uiMaxLen

end Claim

variable {env : Env} {client : TSessKey} {isNotREQ : Bool}

section Loop

/-- So many bytes more are counted. -/
structure Counted (msg : MsgInfo) (limit : Bool) (count : Nat) (after : MsgInfo) : Prop where
  body : after.uiBodyLen = msg.uiBodyLen + count
  limit : after.uiLimitLen = (msg.uiLimitLen + limit.toNat * count) % 2 ^ 32
  len : after.uiLen = msg.uiLen
  max : after.uiMaxLen = msg.uiMaxLen
  within : msg.uiBodyLen + count ≤ msg.uiLen

theorem Counted.more {msg middle after : MsgInfo} {limit : Bool} {count count' : Nat}
    (first : Counted msg limit count middle) (second : Counted middle limit count' after) :
    Counted msg limit (count + count') after where
  body := by rw [second.body, first.body, Nat.add_assoc]
  limit := by
    rw [second.limit, first.limit, Nat.mod_add_mod, Nat.mul_add, Nat.add_assoc]
  len := second.len.trans first.len
  max := second.max.trans first.max
  within := by
    have bound := second.within
    rw [first.body, first.len] at bound
    omega

/-- What one call does for the counters, while `uiBodyLen` is below `uiLen`. -/
def LengthDone (msg : MsgInfo) (limit : Bool) (data : List UInt8) (got : Got) (dLen : Nat)
    (after : MsgInfo) : Prop :=
  Counted msg limit dLen after ∧
    if msg.uiLen ≤ msg.uiBodyLen + data.length then
      got = .ended ∧ dLen = msg.uiLen - msg.uiBodyLen ∧ after.ucEndStatus = .s0D0A0D0A
    else got = .more ∧ dLen = data.length ∧ after.ucEndStatus = msg.ucEndStatus

/-- Whether the buffering is over behind the bytes. -/
def Stops (msg : MsgInfo) (count : Nat) : Prop :=
  0 < msg.uiMaxLen ∧ msg.uiBodyLen < msg.uiMaxLen ∧ msg.uiMaxLen ≤ msg.uiBodyLen + count

/-- One byte in the loop: the buffer grows with the count, and the status changes with the last one. -/
structure Taken (msg : MsgInfo) (limit : Bool) (chain : Chain) (next : MsgInfo) : Prop where
  counted : Counted msg limit 1 next
  body : ∃ chain', next.body = some chain' ∧ chain'.bytes.length = chain.bytes.length + 1

theorem stop_buffering_on (msg : MsgInfo) :
    msg.stopBuffering.buffering = true ↔
      msg.buffering = true ∧ ¬(0 < msg.uiMaxLen ∧ msg.uiMaxLen = msg.uiBodyLen) := by
  rw [MsgInfo.stopBuffering]
  split
  · next stops => exact iff_of_false Bool.false_ne_true (fun goes => goes.2 stops)
  · next goes => exact (and_iff_left goes).symm

theorem stop_buffering_taken {msg next : MsgInfo} {limit : Bool} {chain : Chain}
    (taken : Taken msg limit chain next) : Taken msg limit chain next.stopBuffering := by
  rw [MsgInfo.stopBuffering]
  split
  · exact ⟨⟨taken.counted.body, taken.counted.limit, taken.counted.len, taken.counted.max,
      taken.counted.within⟩, taken.body⟩
  · exact taken

theorem length_turn_cases {msg : MsgInfo} {chain : Chain} (found : msg.body = some chain)
    (less : msg.uiBodyLen < msg.uiLen) (width : msg.uiLen < 2 ^ 32) (limit : Bool) (byte : UInt8)
    (world : World) :
    (∃ after, lengthTurn env client isNotREQ limit byte msg world =
        some ((.failed, 0, msg), after) ∧ Refused env client isNotREQ) ∨
    ∃ next after, Taken msg limit chain next ∧
      if msg.uiLen = msg.uiBodyLen + 1 then
        lengthTurn env client isNotREQ limit byte msg world = some ((.ended, 1, next), after) ∧
          next.ucEndStatus = .s0D0A0D0A
      else
        lengthTurn env client isNotREQ limit byte msg world = some ((.more, 1, next), after) ∧
          next.ucEndStatus = msg.ucEndStatus ∧
          (next.buffering = true ↔ msg.buffering = true ∧ ¬Stops msg 1) := by
  rw [lengthTurn]
  rcases put_body_cases found byte world with ⟨after, put, refused⟩ | ⟨chain', after, put, -, bytes⟩
  · rw [put]
    exact Or.inl ⟨after, rfl, refused⟩
  · have count : ({ msg with body := some chain' }.countBody limit 1).uiBodyLen =
        msg.uiBodyLen + 1 := Nat.mod_eq_of_lt (show msg.uiBodyLen + 1 < 2 ^ 32 by omega)
    have longer : chain'.bytes.length = chain.bytes.length + 1 := by
      rw [bytes, List.length_append]
      rfl
    have taken : Taken msg limit chain ({ msg with body := some chain' }.countBody limit 1) :=
      ⟨⟨count, rfl, rfl, rfl, less⟩, chain', rfl, longer⟩
    rw [put]
    dsimp only
    by_cases last : msg.uiLen = msg.uiBodyLen + 1
    · rw [if_pos (last.trans count.symm)]
      refine Or.inr ⟨{ { msg with body := some chain' }.countBody limit 1 with
        ucEndStatus := .s0D0A0D0A }, after, ?_, ?_⟩
      · exact ⟨⟨count, rfl, rfl, rfl, less⟩, chain', rfl, longer⟩
      · rw [if_pos last]
        exact ⟨rfl, rfl⟩
    · rw [if_neg fun same => last (same.trans count)]
      refine Or.inr ⟨({ msg with body := some chain' }.countBody limit 1).stopBuffering, after,
        stop_buffering_taken taken, ?_⟩
      rw [if_neg last]
      refine ⟨rfl, ?_, ?_⟩
      · rw [MsgInfo.stopBuffering]
        split <;> rfl
      · rw [stop_buffering_on, count, Stops]
        change msg.buffering = true ∧ ¬(0 < msg.uiMaxLen ∧ msg.uiMaxLen = msg.uiBodyLen + 1) ↔ _
        refine and_congr_right fun _ => not_congr ⟨fun hits => ⟨hits.1, ?_, ?_⟩, fun hits => ⟨hits.1, ?_⟩⟩
        · omega
        · omega
        · omega

theorem length_loop (limit : Bool) (data : List UInt8) {msg : MsgInfo} {chain : Chain} {world : World}
    (found : msg.body = some chain) (less : msg.uiBodyLen < msg.uiLen) (width : msg.uiLen < 2 ^ 32)
    (narrow : msg.uiLimitLen < 2 ^ 32) :
    ∃ got dLen after final chain',
      readLoop (lengthTurn env client isNotREQ limit) data msg world =
        some ((got, dLen, after), final) ∧
      after.body = some chain' ∧ chain'.bytes.length = chain.bytes.length + dLen ∧
      (got = .failed ∧ Refused env client isNotREQ ∧
          msg.uiBodyLen + dLen ≤ msg.uiLen ∧ dLen ≤ data.length ∨
        LengthDone msg limit data got dLen after ∧
          (got = .more → (after.buffering = true ↔ msg.buffering = true ∧ ¬Stops msg dLen))) := by
  induction data generalizing msg chain world with
  | nil =>
      have short : ¬msg.uiLen ≤ msg.uiBodyLen + ([] : List UInt8).length := Nat.not_le.mpr less
      refine ⟨.more, 0, msg, world, chain, rfl, found, rfl, Or.inr ⟨⟨⟨rfl, ?_, rfl, rfl,
        Nat.le_of_lt less⟩, ?_⟩, fun _ => ?_⟩⟩
      · rw [Nat.mul_zero, Nat.add_zero, Nat.mod_eq_of_lt narrow]
      · rw [if_neg short]
        exact ⟨rfl, rfl, rfl⟩
      · refine ⟨fun on => ⟨on, fun stops => ?_⟩, fun on => on.1⟩
        exact Nat.not_le.mpr stops.2.1 stops.2.2
  | cons byte rest ih =>
      rcases length_turn_cases found less width limit byte world with
        ⟨after, turn, refused⟩ | ⟨next, after, taken, turn⟩
      · refine ⟨.failed, 0, msg, after, chain, ?_, found, rfl, Or.inl ⟨rfl, refused, ?_, Nat.zero_le _⟩⟩
        · rw [readLoop, turn]
        · exact Nat.le_of_lt less
      · obtain ⟨chain', body, longer⟩ := taken.body
        have count := taken.counted.body
        have same_len := taken.counted.len
        have same_max := taken.counted.max
        by_cases last : msg.uiLen = msg.uiBodyLen + 1
        · rw [if_pos last] at turn
          have reached : msg.uiLen ≤ msg.uiBodyLen + (byte :: rest).length := by
            rw [List.length_cons]
            omega
          refine ⟨.ended, 1, next, after, chain', ?_, body, longer,
            Or.inr ⟨⟨taken.counted, ?_⟩, fun absurd => by cases absurd⟩⟩
          · rw [readLoop, turn.1]
          · rw [if_pos reached]
            exact ⟨rfl, by omega, turn.2⟩
        · rw [if_neg last] at turn
          obtain ⟨turn, status, on⟩ := turn
          have narrow' : next.uiLimitLen < 2 ^ 32 := by
            rw [taken.counted.limit]
            exact Nat.mod_lt _ (by decide)
          obtain ⟨got, dLen, final, world', chain'', read, body', longer', outcome⟩ :=
            @ih next chain' after body (by omega) (by omega) narrow'
          refine ⟨got, 1 + dLen, final, world', chain'', ?_, body', ?_, ?_⟩
          · rw [readLoop, turn]
            dsimp only
            rw [read]
            rfl
          · rw [longer', longer, Nat.add_assoc]
          · rcases outcome with ⟨failed, refused, bound, most⟩ | ⟨⟨counted, done⟩, still⟩
            · refine Or.inl ⟨failed, refused, by omega, ?_⟩
              rw [List.length_cons]
              omega
            · refine Or.inr ⟨⟨taken.counted.more counted, ?_⟩, fun more => ?_⟩
              · rw [List.length_cons]
                split at done
                · next reached =>
                    rw [if_pos (by omega)]
                    exact ⟨done.1, by omega, done.2.2⟩
                · next short =>
                    rw [if_neg (by omega)]
                    exact ⟨done.1, by omega, done.2.2.trans status⟩
              · rw [still more, on, and_assoc, Stops, Stops, Stops]
                refine and_congr_right fun _ => ?_
                rw [count, same_max]
                omega

/-- The count without the bytes. -/
theorem length_counted (limit : Bool) (data : List UInt8) {msg : MsgInfo} (world : World)
    (off : msg.buffering = false) (less : msg.uiBodyLen < msg.uiLen) (width : msg.uiLen < 2 ^ 32)
    (fits : msg.uiBodyLen + data.length < 2 ^ 32) :
    ∃ got dLen after, lengthRead env client isNotREQ limit data msg world =
        some ((got, dLen, after), world) ∧
      LengthDone msg limit data got dLen after ∧ after.buffering = false ∧ after.body = msg.body := by
  have whole : (msg.uiBodyLen + data.length) % 2 ^ 32 = msg.uiBodyLen + data.length :=
    Nat.mod_eq_of_lt fits
  rw [lengthRead, off, if_neg Bool.false_ne_true, whole]
  rcases Nat.lt_trichotomy msg.uiLen (msg.uiBodyLen + data.length) with behind | same | before
  · have count : (data.length + 2 ^ 32 - (msg.uiBodyLen + data.length - msg.uiLen)) % 2 ^ 32 =
        msg.uiLen - msg.uiBodyLen := by
      omega
    rw [if_neg (Nat.ne_of_lt behind), if_pos behind]
    dsimp only
    rw [count]
    refine ⟨_, _, _, rfl, ⟨⟨Nat.mod_eq_of_lt ?_, rfl, rfl, rfl, ?_⟩, ?_⟩, off, rfl⟩
    · omega
    · omega
    · rw [if_pos (Nat.le_of_lt behind)]
      exact ⟨rfl, rfl, rfl⟩
  · rw [if_pos same]
    refine ⟨_, _, _, rfl, ⟨⟨whole, rfl, rfl, rfl, Nat.le_of_eq same.symm⟩, ?_⟩, off, rfl⟩
    rw [if_pos (Nat.le_of_eq same)]
    exact ⟨rfl, by omega, rfl⟩
  · rw [if_neg (Nat.ne_of_gt before), if_neg (Nat.not_lt.mpr (Nat.le_of_lt before))]
    refine ⟨_, _, _, rfl, ⟨⟨whole, rfl, rfl, rfl, Nat.le_of_lt before⟩, ?_⟩, off, rfl⟩
    rw [if_neg (Nat.not_le.mpr before)]
    exact ⟨rfl, rfl, rfl⟩

/-- A count that goes over its range begins again, and the end is missed. -/
theorem length_wraps (limit : Bool) (data : List UInt8) {msg : MsgInfo} (world : World)
    (off : msg.buffering = false) (less : msg.uiBodyLen < msg.uiLen) (narrow : data.length < 2 ^ 32)
    (width : msg.uiLen < 2 ^ 32) (wraps : 2 ^ 32 ≤ msg.uiBodyLen + data.length) :
    lengthRead env client isNotREQ limit data msg world =
      some ((.more, data.length, msg.countBody limit data.length), world) := by
  have small : (msg.uiBodyLen + data.length) % 2 ^ 32 < msg.uiLen := by omega
  rw [lengthRead, off, if_neg Bool.false_ne_true, if_neg (Nat.ne_of_gt small),
    if_neg (Nat.not_lt.mpr (Nat.le_of_lt small))]

end Loop

section Segments

theorem no_wrap_cons {uiLen start : Nat} {segment : Bool × List UInt8}
    {segments : List (Bool × List UInt8)} :
    NoWrap uiLen start (segment :: segments) ↔
      (start < uiLen → start + segment.2.length < 2 ^ 32) ∧
        NoWrap uiLen (start + segment.2.length) segments := by
  constructor
  · intro fits
    refine ⟨fun less => fits [] segment segments rfl less, fun front other back parts less => ?_⟩
    have later := fits (segment :: front) other back (congrArg (segment :: ·) parts)
    rw [stream_cons, List.length_append, ← Nat.add_assoc] at later
    exact later less
  · rintro ⟨first, later⟩ front other back parts less
    cases front with
    | nil =>
        obtain ⟨rfl, -⟩ := List.cons.inj parts
        exact first less
    | cons here front =>
        obtain ⟨rfl, rest⟩ := List.cons.inj parts
        rw [stream_cons, List.length_append, ← Nat.add_assoc] at less ⊢
        exact later front other back rest less

theorem no_cross_cons {uiLen uiMaxLen start : Nat} {segment : Bool × List UInt8}
    {segments : List (Bool × List UInt8)} :
    NoCross uiLen uiMaxLen start (segment :: segments) ↔
      (0 < uiMaxLen → uiMaxLen < uiLen → start < uiMaxLen → start + segment.2.length ≤ uiMaxLen) ∧
        NoCross uiLen uiMaxLen (start + segment.2.length) segments := by
  constructor
  · intro fits
    refine ⟨fun set long less => fits set long [] segment segments rfl less,
      fun set long front other back parts less => ?_⟩
    have later := fits set long (segment :: front) other back (congrArg (segment :: ·) parts)
    rw [stream_cons, List.length_append, ← Nat.add_assoc] at later
    exact later less
  · rintro ⟨first, later⟩ set long front other back parts less
    cases front with
    | nil =>
        obtain ⟨rfl, -⟩ := List.cons.inj parts
        exact first set long less
    | cons here front =>
        obtain ⟨rfl, rest⟩ := List.cons.inj parts
        rw [stream_cons, List.length_append, ← Nat.add_assoc] at less ⊢
        exact later set long front other back rest less

theorem stream_cons_length (limit : Bool) (data : List UInt8) (segments : List (Bool × List UInt8)) :
    (streamOf ((limit, data) :: segments)).length = data.length + (streamOf segments).length := by
  rw [stream_cons, List.length_append]

theorem reaches_len_cons {msg next after : MsgInfo} {limit : Bool} {data : List UInt8}
    {segments : List (Bool × List UInt8)} {reports : List (Got × Nat)}
    (counted : Counted msg limit data.length next) :
    ReachesLen msg ((limit, data) :: segments) ((.more, data.length) :: reports) after ↔
      ReachesLen next segments reports after := by
  have within := counted.within
  rw [ReachesLen, ReachesLen, stream_cons_length, counted.len, counted.body, ← Nat.add_assoc]
  by_cases reached : msg.uiLen ≤ msg.uiBodyLen + data.length + (streamOf segments).length
  · rw [if_pos reached, if_pos reached]
    refine and_congr_left fun _ => ⟨fun ends => ?_, fun ends => ?_⟩
    · obtain ⟨rest, same, ends⟩ := ends_at_tail ends
      have left : msg.uiLen - (msg.uiBodyLen + data.length) = rest := by omega
      exact left ▸ ends
    · have left : msg.uiLen - msg.uiBodyLen =
          data.length + (msg.uiLen - (msg.uiBodyLen + data.length)) := by omega
      exact left ▸ ends_at_cons data.length ends
  · rw [if_neg reached, if_neg reached]
    exact and_congr_left fun _ => ⟨goes_on_tail, goes_on_cons data.length⟩

theorem reaches_len_ended {msg after : MsgInfo} {limit : Bool} {data : List UInt8}
    (segments : List (Bool × List UInt8)) (reached : msg.uiLen ≤ msg.uiBodyLen + data.length)
    (counted : Counted msg limit (msg.uiLen - msg.uiBodyLen) after) :
    ReachesLen msg ((limit, data) :: segments) [(.ended, msg.uiLen - msg.uiBodyLen)] after := by
  have within := counted.within
  have count := counted.body
  rw [ReachesLen, if_pos]
  · exact ⟨ends_at_alone _, by omega⟩
  · rw [stream_cons_length]
    omega

/-- The branch that only counts, over many calls. -/
theorem counted_run (segments : List (Bool × List UInt8)) {msg : MsgInfo} (world : World)
    (off : msg.buffering = false) (less : msg.uiBodyLen < msg.uiLen) (width : msg.uiLen < 2 ^ 32)
    (fits : NoWrap msg.uiLen msg.uiBodyLen segments) :
    ∃ reports after, readSegments (lengthRead env client isNotREQ) segments msg world =
        some ((reports, after), world) ∧ ReachesLen msg segments reports after := by
  induction segments generalizing msg with
  | nil =>
      refine ⟨[], msg, rfl, ?_⟩
      rw [ReachesLen, if_neg]
      · exact ⟨⟨nofun, rfl⟩, rfl⟩
      · exact Nat.not_le.mpr less
  | cons segment segments ih =>
      obtain ⟨limit, data⟩ := segment
      obtain ⟨first, later⟩ := no_wrap_cons.mp fits
      obtain ⟨got, dLen, next, read, ⟨counted, done⟩, off', -⟩ :=
        @length_counted env client isNotREQ limit data msg world off less width (first less)
      rw [readSegments, read]
      split at done
      · next reached =>
          obtain ⟨rfl, rfl, -⟩ := done
          exact ⟨_, _, rfl, reaches_len_ended segments reached counted⟩
      · next short =>
          obtain ⟨rfl, rfl, -⟩ := done
          have count := counted.body
          have len := counted.len
          obtain ⟨reports, after, run, reaches⟩ :=
            ih off' (by rw [count, len]; exact Nat.lt_of_not_le short) (len ▸ width)
              (by rw [count, len]; exact later)
          dsimp only
          rw [run]
          exact ⟨_, _, rfl, (reaches_len_cons counted).mpr reaches⟩

/-- It misses the end, or reports it elsewhere, where the count goes over its range. -/
theorem counted_wraps (segments : List (Bool × List UInt8))
    (narrow : ∀ segment ∈ segments, segment.2.length < 2 ^ 32) {msg after : MsgInfo}
    {reports : List (Got × Nat)} {world final : World} (off : msg.buffering = false)
    (less : msg.uiBodyLen < msg.uiLen) (width : msg.uiLen < 2 ^ 32)
    (run : readSegments (lengthRead env client isNotREQ) segments msg world =
      some ((reports, after), final))
    (reaches : ReachesLen msg segments reports after) : NoWrap msg.uiLen msg.uiBodyLen segments := by
  induction segments generalizing msg reports world with
  | nil =>
      intro front segment back parts
      exact absurd parts.symm (List.append_ne_nil_of_right_ne_nil front (List.cons_ne_nil segment back))
  | cons segment segments ih =>
      obtain ⟨limit, data⟩ := segment
      have short := narrow (limit, data) List.mem_cons_self
      rw [readSegments] at run
      rcases Nat.lt_or_ge (msg.uiBodyLen + data.length) (2 ^ 32) with fits | wraps
      · refine no_wrap_cons.mpr ⟨fun _ => fits, ?_⟩
        obtain ⟨got, dLen, next, read, ⟨counted, done⟩, off', -⟩ :=
          @length_counted env client isNotREQ limit data msg world off less width fits
        rw [read] at run
        have count := counted.body
        have len := counted.len
        split at done
        · next reached =>
            intro front other back _ below
            exact absurd below (by dsimp only; omega)
        · next more =>
            obtain ⟨rfl, rfl, -⟩ := done
            obtain ⟨rest, tail, same⟩ := Option.map_eq_some_iff.mp run
            cases same
            have later := ih (fun other member => narrow other (List.mem_cons_of_mem _ member)) off'
              (by rw [count, len]; exact Nat.lt_of_not_le more) (len ▸ width) tail
              ((reaches_len_cons counted).mp reaches)
            rw [count, len] at later
            exact later
      · rw [length_wraps limit data world off less short width wraps] at run
        obtain ⟨rest, -, same⟩ := Option.map_eq_some_iff.mp run
        cases same
        rw [ReachesLen, if_pos] at reaches
        · obtain ⟨more, sum, -⟩ := ends_at_tail reaches.1
          omega
        · rw [stream_cons_length]
          omega

end Segments

section Agree

/-- Either branch, for a call that stays in the range of the count. -/
theorem length_read (limit : Bool) (data : List UInt8) {msg : MsgInfo} {chain : Chain} (world : World)
    (found : msg.body = some chain) (less : msg.uiBodyLen < msg.uiLen) (width : msg.uiLen < 2 ^ 32)
    (narrow : msg.uiLimitLen < 2 ^ 32) (fits : msg.uiBodyLen + data.length < 2 ^ 32) :
    ∃ got dLen after final chain', lengthRead env client isNotREQ limit data msg world =
        some ((got, dLen, after), final) ∧ after.body = some chain' ∧
      (got = .failed ∧ Refused env client isNotREQ ∨ LengthDone msg limit data got dLen after) := by
  cases on : msg.buffering with
  | false =>
      obtain ⟨got, dLen, after, read, done, -, body⟩ :=
        @length_counted env client isNotREQ limit data msg world on less width fits
      exact ⟨got, dLen, after, world, chain, read, body.trans found, Or.inr done⟩
  | true =>
      obtain ⟨got, dLen, after, final, chain', read, body, -, outcome⟩ :=
        @length_loop env client isNotREQ limit data msg chain world found less width narrow
      refine ⟨got, dLen, after, final, chain', ?_, body, ?_⟩
      · rw [lengthRead, on, if_pos rfl, read]
      · exact outcome.imp (fun failed => ⟨failed.1, failed.2.1⟩) (fun done => done.1)

theorem done_unique {one two after after' : MsgInfo} {limit : Bool} {data : List UInt8}
    {got got' : Got} {dLen dLen' : Nat} (len : one.uiBodyLen = two.uiBodyLen)
    (limits : one.uiLimitLen = two.uiLimitLen) (ends : one.uiLen = two.uiLen)
    (status : one.ucEndStatus = two.ucEndStatus) (done : LengthDone one limit data got dLen after)
    (done' : LengthDone two limit data got' dLen' after') :
    got = got' ∧ dLen = dLen' ∧ after.uiBodyLen = after'.uiBodyLen ∧
      after.uiLimitLen = after'.uiLimitLen ∧ after.uiLen = after'.uiLen ∧
      after.ucEndStatus = after'.ucEndStatus := by
  obtain ⟨counted, rest⟩ := done
  obtain ⟨counted', rest'⟩ := done'
  rw [len, ends] at rest
  have codes : got = got' ∧ dLen = dLen' ∧ after.ucEndStatus = after'.ucEndStatus := by
    split at rest
    · next reached =>
        rw [if_pos reached] at rest'
        exact ⟨rest.1.trans rest'.1.symm, rest.2.1.trans rest'.2.1.symm,
          rest.2.2.trans rest'.2.2.symm⟩
    · next short =>
        rw [if_neg short] at rest'
        exact ⟨rest.1.trans rest'.1.symm, rest.2.1.trans rest'.2.1.symm,
          rest.2.2.trans (status.trans rest'.2.2.symm)⟩
  obtain ⟨rfl, rfl, statuses⟩ := codes
  refine ⟨rfl, rfl, ?_, ?_, ?_, statuses⟩
  · rw [counted.body, counted'.body, len]
  · rw [counted.limit, counted'.limit, limits]
  · rw [counted.len, counted'.len, ends]

/-- Both branches over many calls. -/
theorem branches_run (segments : List (Bool × List UInt8)) {one two after' : MsgInfo} {chain : Chain}
    {world world' final' : World} {reports' : List (Got × Nat)} (found : one.body = some chain)
    (off : two.buffering = false) (len : one.uiBodyLen = two.uiBodyLen)
    (limits : one.uiLimitLen = two.uiLimitLen) (ends : one.uiLen = two.uiLen)
    (status : one.ucEndStatus = two.ucEndStatus) (less : two.uiBodyLen < two.uiLen)
    (width : two.uiLen < 2 ^ 32) (narrow : two.uiLimitLen < 2 ^ 32)
    (fits : NoWrap two.uiLen two.uiBodyLen segments)
    (run' : readSegments (lengthRead env client isNotREQ) segments two world' =
      some ((reports', after'), final')) :
    ∃ reports after final, readSegments (lengthRead env client isNotREQ) segments one world =
        some ((reports, after), final) ∧
      (Fails reports ∧ Refused env client isNotREQ ∨ reports = reports' ∧
        after.uiBodyLen = after'.uiBodyLen ∧ after.uiLimitLen = after'.uiLimitLen ∧
        after.ucEndStatus = after'.ucEndStatus) := by
  induction segments generalizing one two chain world world' reports' with
  | nil =>
      cases run'
      exact ⟨[], one, world, rfl, Or.inr ⟨rfl, len, limits, status⟩⟩
  | cons segment segments ih =>
      obtain ⟨limit, data⟩ := segment
      obtain ⟨first, later⟩ := no_wrap_cons.mp fits
      have here : two.uiBodyLen + data.length < 2 ^ 32 := first less
      obtain ⟨got, dLen, next, middle, chain', read, body, outcome⟩ :=
        @length_read env client isNotREQ limit data one chain world found (len ▸ ends ▸ less)
          (ends ▸ width) (limits ▸ narrow) (len ▸ here)
      obtain ⟨got', dLen', next', read', done', off', -⟩ :=
        @length_counted env client isNotREQ limit data two world' off less width here
      rw [readSegments, read]
      rcases outcome with ⟨rfl, refused⟩ | done
      · exact ⟨_, _, _, rfl, Or.inl ⟨fails_alone dLen, refused⟩⟩
      · obtain ⟨rfl, rfl, len', limits', ends', status'⟩ := done_unique len limits ends status done done'
        rw [readSegments, read'] at run'
        obtain ⟨counted, codes⟩ := done'
        split at codes
        · obtain ⟨rfl, -, -⟩ := codes
          cases run'
          exact ⟨_, _, _, rfl, Or.inr ⟨rfl, len', limits', status'⟩⟩
        · next short =>
            obtain ⟨rfl, rfl, -⟩ := codes
            obtain ⟨rest, tail, same⟩ := Option.map_eq_some_iff.mp run'
            cases same
            have count := counted.body
            have whole := counted.len
            have narrow' : next'.uiLimitLen < 2 ^ 32 := by
              rw [counted.limit]
              exact Nat.mod_lt _ (by decide)
            obtain ⟨reports, after, final, run, agree⟩ :=
              @ih next next' chain' middle world' rest.1.1 body off' len' limits' ends' status'
                (by rw [count, whole]; exact Nat.lt_of_not_le short) (whole ▸ width) narrow'
                (by rw [count, whole]; exact later) tail
            dsimp only
            rw [run]
            refine ⟨_, _, _, rfl, ?_⟩
            rcases agree with ⟨fails, refused⟩ | ⟨same, agree⟩
            · exact Or.inl ⟨fails_cons _ fails, refused⟩
            · exact Or.inr ⟨congrArg _ same, agree⟩

end Agree

section Buffered

/-- How many bytes are buffered in the end. -/
def bufferedEnd (uiLen uiMaxLen : Nat) : Nat → List (Bool × List UInt8) → Nat
  | start, [] => start
  | start, segment :: segments =>
      if uiLen ≤ start + segment.2.length then uiLen
      else if 0 < uiMaxLen ∧ uiMaxLen ≤ start + segment.2.length then start + segment.2.length
      else bufferedEnd uiLen uiMaxLen (start + segment.2.length) segments

theorem buffered_end_ge {uiLen uiMaxLen start : Nat} (less : start < uiLen)
    (segments : List (Bool × List UInt8)) : start ≤ bufferedEnd uiLen uiMaxLen start segments := by
  induction segments generalizing start with
  | nil => exact Nat.le_refl _
  | cons segment segments ih =>
      rw [bufferedEnd]
      split
      · exact Nat.le_of_lt less
      · next short =>
          split
          · exact Nat.le_add_right _ _
          · exact Nat.le_trans (Nat.le_add_right _ _) (ih (Nat.lt_of_not_le short))

theorem buffered_end_le {uiLen uiMaxLen start : Nat} (set : 0 < uiMaxLen) (before : start < uiMaxLen)
    (less : start < uiLen) (segments : List (Bool × List UInt8)) :
    bufferedEnd uiLen uiMaxLen start segments ≤ uiMaxLen ↔
      NoCross uiLen uiMaxLen start segments := by
  induction segments generalizing start with
  | nil =>
      refine iff_of_true (Nat.le_of_lt before) fun _ _ front segment back parts => ?_
      exact absurd parts.symm (List.append_ne_nil_of_right_ne_nil front (List.cons_ne_nil segment back))
  | cons segment segments ih =>
      rw [no_cross_cons, bufferedEnd]
      split
      · next reached =>
          constructor
          · intro short
            exact ⟨fun _ long => by omega, fun _ long => by omega⟩
          · rintro ⟨first, -⟩
            by_contra long
            have inside := first set (Nat.lt_of_not_le long) before
            omega
      · next short =>
          split
          · next full =>
              constructor
              · intro same
                refine ⟨fun _ _ _ => same, fun _ _ front other back _ below => ?_⟩
                omega
              · rintro ⟨first, -⟩
                exact first set (by omega) before
          · next room =>
              rw [ih (by omega) (Nat.lt_of_not_le short)]
              refine ⟨fun later => ⟨fun _ _ _ => by omega, later⟩, fun both => both.2⟩

theorem count_body_kept (msg : MsgInfo) (limit : Bool) (count : Nat) (state : EndState) :
    ({ msg.countBody limit count with ucEndStatus := state } : MsgInfo).body = msg.body ∧
      ({ msg.countBody limit count with ucEndStatus := state } : MsgInfo).buffering = msg.buffering :=
  ⟨rfl, rfl⟩

theorem length_off (limit : Bool) (data : List UInt8) {msg : MsgInfo} (world : World)
    (off : msg.buffering = false) :
    ∃ got dLen after, lengthRead env client isNotREQ limit data msg world =
      some ((got, dLen, after), world) ∧ after.body = msg.body ∧ after.buffering = false := by
  rw [lengthRead, off, if_neg Bool.false_ne_true]
  split
  · have kept := count_body_kept msg limit data.length .s0D0A0D0A
    exact ⟨_, _, _, rfl, kept.1, kept.2.trans off⟩
  · split
    · have kept := fun count => count_body_kept msg limit count .s0D0A0D0A
      exact ⟨_, _, _, rfl, (kept _).1, (kept _).2.trans off⟩
    · have kept := count_body_kept msg limit data.length msg.ucEndStatus
      exact ⟨_, _, _, rfl, kept.1, kept.2.trans off⟩

/-- Behind the buffering the buffer stays. -/
theorem counted_body (segments : List (Bool × List UInt8)) {msg : MsgInfo} (world : World)
    (off : msg.buffering = false) :
    ∃ reports after, readSegments (lengthRead env client isNotREQ) segments msg world =
        some ((reports, after), world) ∧ after.body = msg.body := by
  induction segments generalizing msg with
  | nil => exact ⟨[], msg, rfl, rfl⟩
  | cons segment segments ih =>
      obtain ⟨limit, data⟩ := segment
      obtain ⟨got, dLen, next, read, body, off'⟩ :=
        @length_off env client isNotREQ limit data msg world off
      rw [readSegments, read]
      cases got with
      | ended => exact ⟨_, _, rfl, body⟩
      | failed => exact ⟨_, _, rfl, body⟩
      | more =>
          obtain ⟨reports, after, run, body'⟩ := ih off'
          dsimp only
          rw [run]
          exact ⟨_, _, rfl, body'.trans body⟩

/-- The buffer at the end of the calls, where they begin while the body is buffered. -/
theorem buffered_run (segments : List (Bool × List UInt8)) {msg : MsgInfo} {chain : Chain}
    (world : World) (found : msg.body = some chain) (whole : chain.bytes.length = msg.uiBodyLen)
    (on : msg.buffering = true) (room : 0 < msg.uiMaxLen → msg.uiBodyLen < msg.uiMaxLen)
    (less : msg.uiBodyLen < msg.uiLen) (width : msg.uiLen < 2 ^ 32) (narrow : msg.uiLimitLen < 2 ^ 32) :
    ∃ reports after final chain', readSegments (lengthRead env client isNotREQ) segments msg world =
        some ((reports, after), final) ∧ after.body = some chain' ∧
      (chain'.bytes.length = bufferedEnd msg.uiLen msg.uiMaxLen msg.uiBodyLen segments ∨
        Refused env client isNotREQ ∧
          chain'.bytes.length ≤ bufferedEnd msg.uiLen msg.uiMaxLen msg.uiBodyLen segments) := by
  induction segments generalizing msg chain world with
  | nil => exact ⟨[], msg, world, chain, rfl, found, Or.inl whole⟩
  | cons segment segments ih =>
      obtain ⟨limit, data⟩ := segment
      obtain ⟨got, dLen, next, middle, chain', read, body, longer, outcome⟩ :=
        @length_loop env client isNotREQ limit data msg chain world found less width narrow
      have whole_read : lengthRead env client isNotREQ limit data msg world =
          some ((got, dLen, next), middle) := by
        rw [lengthRead, on, if_pos rfl, read]
      have count : chain'.bytes.length = msg.uiBodyLen + dLen := by rw [longer, whole]
      rw [readSegments, whole_read, bufferedEnd]
      rcases outcome with ⟨rfl, refused, bound, most⟩ | ⟨⟨counted, codes⟩, still⟩
      · refine ⟨_, _, _, chain', rfl, body, Or.inr ⟨refused, ?_⟩⟩
        rw [count]
        split
        · exact bound
        · next short =>
            split
            · exact Nat.add_le_add_left most _
            · exact Nat.le_trans (Nat.add_le_add_left most _)
                (buffered_end_ge (Nat.lt_of_not_le short) segments)
      · split at codes
        · next reached =>
            obtain ⟨rfl, rfl, -⟩ := codes
            refine ⟨_, _, _, chain', rfl, body, Or.inl ?_⟩
            rw [if_pos reached, count]
            exact Nat.add_sub_cancel' (Nat.le_of_lt less)
        · next short =>
            obtain ⟨rfl, rfl, -⟩ := codes
            have len := counted.body
            rw [if_neg short]
            by_cases stops : 0 < msg.uiMaxLen ∧ msg.uiMaxLen ≤ msg.uiBodyLen + data.length
            · have off : next.buffering = false := by
                rw [← Bool.not_eq_true, still rfl]
                exact fun goes => goes.2 ⟨stops.1, room stops.1, stops.2⟩
              obtain ⟨reports, after, run, body'⟩ :=
                @counted_body env client isNotREQ segments next middle off
              dsimp only
              rw [run, if_pos stops]
              exact ⟨_, _, _, chain', rfl, body'.trans body, Or.inl count⟩
            · have on' : next.buffering = true :=
                (still rfl).mpr ⟨on, fun hits => stops ⟨hits.1, hits.2.2⟩⟩
              have narrow' : next.uiLimitLen < 2 ^ 32 := by
                rw [counted.limit]
                exact Nat.mod_lt _ (by decide)
              obtain ⟨reports, after, final, chain'', run, body', outcome⟩ :=
                @ih next chain' middle body (count.trans len.symm) on'
                  (by rw [counted.max, len]; omega) (by rw [len, counted.len]; omega)
                  (counted.len ▸ width) narrow'
              rw [counted.len, counted.max, len] at outcome
              dsimp only
              rw [run, if_neg stops]
              exact ⟨_, _, _, chain'', rfl, body', outcome⟩

/-- The branches agree just when no call goes over the range of the count or over `uiMaxLen`. -/
theorem branches_agree_iff (msg : MsgInfo) (segments : List (Bool × List UInt8))
    (less : msg.uiBodyLen < msg.uiLen) (width : msg.uiLen < 2 ^ 32)
    (narrow : msg.uiLimitLen < 2 ^ 32) (room : 0 < msg.uiMaxLen → msg.uiBodyLen < msg.uiMaxLen)
    (short : ∀ segment ∈ segments, segment.2.length < 2 ^ 32) :
    BranchesAgree msg segments ↔ NoWrap msg.uiLen msg.uiBodyLen segments ∧
      NoCross msg.uiLen msg.uiMaxLen msg.uiBodyLen segments := by
  constructor
  · intro agree
    let chain : Chain := ⟨.reqBody, .read 0, [], List.replicate msg.uiBodyLen 0, 100⟩
    obtain ⟨reports, reports', after, after', final, final', run, run', reaches, -, bound⟩ :=
      agree plainEnv oneClient false chain .start .start List.length_replicate
    refine ⟨?_, fun set => ?_⟩
    · exact @counted_wraps plainEnv oneClient false segments short
        { msg with body := some chain, buffering := false } after' reports' .start final' rfl less width
        run' reaches
    · obtain ⟨reports'', after'', final'', chain', run'', body, outcome⟩ :=
        @buffered_run plainEnv oneClient false segments
          { msg with body := some chain, buffering := true } chain .start rfl List.length_replicate rfl
          room less width narrow
      cases run.symm.trans run''
      obtain ⟨chain'', body', most⟩ := bound set
      cases body.symm.trans body'
      have exact_end := outcome.resolve_right fun failed => plainEnv_not_refused failed.1
      exact (buffered_end_le set (room set) less segments).mp (exact_end ▸ most) set
  · rintro ⟨fits, uncrossed⟩ env client isNotREQ chain world world' whole
    obtain ⟨reports', after', run', reaches⟩ := @counted_run env client isNotREQ segments
      { msg with body := some chain, buffering := false } world' rfl less width fits
    obtain ⟨reports, after, final, run, agree⟩ := @branches_run env client isNotREQ segments
      { msg with body := some chain, buffering := true }
      { msg with body := some chain, buffering := false } after' chain world world' world' reports' rfl
      rfl rfl rfl rfl rfl less width narrow fits run'
    refine ⟨reports, reports', after, after', final, world', run, run', reaches, agree, fun set => ?_⟩
    obtain ⟨reports'', after'', final'', chain', run'', body, outcome⟩ :=
      @buffered_run env client isNotREQ segments { msg with body := some chain, buffering := true } chain
        world rfl whole rfl room less width narrow
    cases run.symm.trans run''
    have most := (buffered_end_le set (room set) less segments).mpr uncrossed
    refine ⟨chain', body, ?_⟩
    rcases outcome with same | ⟨-, fewer⟩
    · exact same ▸ most
    · exact Nat.le_trans fewer most

/-- A body of five bytes of which three are to be buffered. -/
def fiveBytes : MsgInfo := { freshMsg with uiLen := 5, uiMaxLen := 3 }

theorem five_bytes_agree : BranchesAgree fiveBytes [(true, [1, 2, 3]), (false, [4, 5, 6])] := by
  have fits : NoWrap 5 0 [(true, [1, 2, 3]), (false, [4, 5, 6])] := by
    intro front segment back parts _
    have whole : 6 = (streamOf (front ++ segment :: back)).length := parts ▸ rfl
    rw [streamOf, List.flatMap_append, List.length_append, List.flatMap_cons, List.length_append] at whole
    rw [streamOf]
    omega
  have uncrossed : NoCross 5 3 0 [(true, [1, 2, 3]), (false, [4, 5, 6])] := by
    intro _ _ front segment back parts inside
    cases front with
    | nil =>
        obtain ⟨rfl, -⟩ := List.cons.inj parts
        decide
    | cons first front =>
        -- A later segment begins where the limit is.
        obtain ⟨rfl, -⟩ := List.cons.inj parts
        have behind := stream_cons_length true [1, 2, 3] front
        have three : [(1 : UInt8), 2, 3].length = 3 := rfl
        omega
  exact (branches_agree_iff fiveBytes [(true, [1, 2, 3]), (false, [4, 5, 6])] (by decide) (by decide)
    (by decide) (fun _ => by decide) (by decide)).mpr ⟨fits, uncrossed⟩

/-- A longer body of which 1024 bytes are to be buffered. -/
def limitedMsg : MsgInfo := { freshMsg with uiLen := 2000, uiMaxLen := 1024 }

theorem limit_crossed : ¬BranchesAgree limitedMsg [(true, List.replicate 1500 0)] := by
  intro agree
  obtain ⟨reports, -, after, -, final, -, run, -, -, -, bound⟩ :=
    agree plainEnv oneClient false emptyChain .start .start rfl
  obtain ⟨reports', after', final', chain, run', body, outcome⟩ :=
    @buffered_run plainEnv oneClient false [(true, List.replicate 1500 0)]
      { limitedMsg with body := some emptyChain, buffering := true } emptyChain .start rfl rfl rfl
      (fun _ => by decide) (by decide) (by decide) (by decide)
  obtain ⟨pair, -⟩ := Prod.mk.inj (Option.some.inj (run.symm.trans run'))
  obtain ⟨-, rfl⟩ := Prod.mk.inj pair
  obtain ⟨chain', body', most⟩ := bound (by decide)
  obtain rfl := Option.some.inj (body.symm.trans body')
  have size : chain.bytes.length = bufferedEnd 2000 1024 0 [(true, List.replicate 1500 0)] := by
    rcases outcome with stored | failed
    · exact stored
    · exact absurd failed.1 plainEnv_not_refused
  have exceeds : bufferedEnd 2000 1024 0 [(true, List.replicate 1500 0)] = 1500 := by
    rw [bufferedEnd, List.length_replicate]
    rfl
  have limit : chain.bytes.length ≤ 1024 := most
  omega

end Buffered

end Upst.Http
