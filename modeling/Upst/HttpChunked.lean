import Upst.Borders
import Upst.Chunked
import Upst.HttpBody

/-!
The end of a chunked body. `dGetChunkedData` looks for the size zero with its two line ends anywhere in
the stream, so that it can stop inside a chunk.
-/

namespace Upst.Http

open Borders
open Chunked (sizeDigit hexValue)

set_option autoImplicit false

section Automaton

def lastChunk : List UInt8 := [0x30, 0x0D, 0x0A, 0x0D, 0x0A]

def chunkLevel : EndState → Nat
  | .empty => 0
  | .s30 => 1
  | .s0D => 2
  | .s0D0A => 3
  | .s0D0A0D => 4
  | .s0D0A0D0A => 5

def chunkNext (byte : UInt8) (state : EndState) : EndState := (state.chunk byte).getD state

theorem chunk_turns : ∀ index < 256,
    Longest lastChunk [UInt8.ofNat index] (chunkLevel (chunkNext (UInt8.ofNat index) .empty)) ∧
    Longest lastChunk [0x30, UInt8.ofNat index] (chunkLevel (chunkNext (UInt8.ofNat index) .s30)) ∧
    Longest lastChunk [0x30, 0x0D, UInt8.ofNat index]
      (chunkLevel (chunkNext (UInt8.ofNat index) .s0D)) ∧
    Longest lastChunk [0x30, 0x0D, 0x0A, UInt8.ofNat index]
      (chunkLevel (chunkNext (UInt8.ofNat index) .s0D0A)) ∧
    Longest lastChunk [0x30, 0x0D, 0x0A, 0x0D, UInt8.ofNat index]
      (chunkLevel (chunkNext (UInt8.ofNat index) .s0D0A0D)) := by
  decide +kernel

theorem chunk_tracks : Tracks lastChunk chunkLevel chunkNext := by
  intro state going byte
  have turns := chunk_turns byte.toNat byte.toNat_lt
  rw [UInt8.ofNat_toNat] at turns
  cases state with
  | empty => exact turns.1
  | s30 => exact turns.2.1
  | s0D => exact turns.2.2.1
  | s0D0A => exact turns.2.2.2.1
  | s0D0A0D => exact turns.2.2.2.2
  | s0D0A0D0A => exact absurd going (by decide)

theorem chunk_some {state : EndState} (going : chunkLevel state < 5) (byte : UInt8) :
    state.chunk byte = some (chunkNext byte state) := by
  cases state with
  | s0D0A0D0A => exact absurd going (by decide)
  | _ => rfl

theorem chunk_level_last (state : EndState) : 5 ≤ chunkLevel state ↔ state = .s0D0A0D0A := by
  cases state <;> decide

/-- Where the automaton comes to its last state. -/
def chunkReach (state : EndState) (data : List UInt8) : Option Nat :=
  reach 5 chunkLevel chunkNext state data

def chunkAfter (state : EndState) (data : List UInt8) : EndState :=
  data.foldl (fun state byte => chunkNext byte state) state

end Automaton

section Reading

variable {env : Env} {client : TSessKey} {isNotREQ : Bool}

/-- What a call does, apart from the bytes that it buffers. -/
def ChunkedDone (env : Env) (client : TSessKey) (isNotREQ : Bool) (state : EndState)
    (data : List UInt8) (got : Got) (dLen : Nat) (after : MsgInfo) : Prop :=
  match got with
  | .failed => Refused env client isNotREQ
  | .ended => chunkReach state data = some dLen
  | .more => chunkReach state data = none ∧ dLen = data.length ∧ after.body.isSome ∧
      after.ucEndStatus = chunkAfter state data

theorem stop_buffering_body (msg : MsgInfo) : msg.stopBuffering.body = msg.body := by
  rw [MsgInfo.stopBuffering]
  split <;> rfl

theorem stop_buffering_status (msg : MsgInfo) : msg.stopBuffering.ucEndStatus = msg.ucEndStatus := by
  rw [MsgInfo.stopBuffering]
  split <;> rfl

theorem chunked_turn_cases {msg : MsgInfo} (going : chunkLevel msg.ucEndStatus < 5)
    (body : msg.body.isSome) (limit : Bool) (byte : UInt8) (world : World) :
    (∃ next after, chunkedTurn env client isNotREQ limit byte msg world =
        some ((.failed, 0, next), after) ∧ Refused env client isNotREQ) ∨
    ∃ next after, next.body.isSome ∧ next.ucEndStatus = chunkNext byte msg.ucEndStatus ∧
      chunkedTurn env client isNotREQ limit byte msg world =
        some ((if 5 ≤ chunkLevel (chunkNext byte msg.ucEndStatus) then .ended else .more, 1, next),
          after) := by
  rw [chunkedTurn, chunk_some going]
  dsimp only
  generalize chunkNext byte msg.ucEndStatus = state
  rcases @put_chunked_cases env client isNotREQ { msg with ucEndStatus := state } body byte world with
    ⟨after, put, refused⟩ | ⟨chain, after, put, some⟩
  · rw [put]
    exact Or.inl ⟨_, _, rfl, refused⟩
  · rw [put]
    dsimp only
    simp only [chunk_level_last]
    by_cases last : state = .s0D0A0D0A
    · rw [if_pos last, if_pos last]
      exact Or.inr ⟨_, _, some, rfl, rfl⟩
    · rw [if_neg last, if_neg last]
      refine Or.inr ⟨_, _, ?_, ?_, rfl⟩
      · rw [stop_buffering_body]
        exact some
      · rw [stop_buffering_status]
        rfl

theorem chunked_read (limit : Bool) (data : List UInt8) {msg : MsgInfo} {world : World}
    (going : chunkLevel msg.ucEndStatus < 5) (body : msg.body.isSome) :
    ∃ got dLen after world', chunkedRead env client isNotREQ limit data msg world =
        some ((got, dLen, after), world') ∧
      ChunkedDone env client isNotREQ msg.ucEndStatus data got dLen after := by
  induction data generalizing msg world with
  | nil => exact ⟨.more, 0, msg, world, rfl, rfl, rfl, body, rfl⟩
  | cons byte rest ih =>
      rcases chunked_turn_cases going body limit byte world with
        ⟨next, after, turn, refused⟩ | ⟨next, after, some, status, turn⟩
      · refine ⟨.failed, 0, next, after, ?_, refused⟩
        rw [chunkedRead, readLoop, turn]
      · by_cases last : 5 ≤ chunkLevel (chunkNext byte msg.ucEndStatus)
        · rw [if_pos last] at turn
          refine ⟨.ended, 1, next, after, ?_, ?_⟩
          · rw [chunkedRead, readLoop, turn]
          · rw [ChunkedDone, chunkReach, reach, if_pos last]
        · rw [if_neg last] at turn
          obtain ⟨got, dLen, final, world', read, done⟩ :=
            @ih next after (status ▸ Nat.lt_of_not_le last) some
          have whole : chunkedRead env client isNotREQ limit (byte :: rest) msg world =
              Option.some ((got, 1 + dLen, final), world') := by
            rw [chunkedRead] at read
            rw [chunkedRead, readLoop, turn]
            dsimp only
            rw [read]
            rfl
          refine ⟨got, 1 + dLen, final, world', whole, ?_⟩
          rw [status] at done
          cases got with
          | failed => exact done
          | ended =>
              have here : chunkReach _ rest = _ := done
              rw [ChunkedDone, chunkReach, reach, if_neg last, ← chunkReach, here, Nat.add_comm]
              rfl
          | more =>
              obtain ⟨none, length, some, last_status⟩ := done
              refine ⟨?_, ?_, some, last_status⟩
              · rw [chunkReach, reach, if_neg last, ← chunkReach, none]
                rfl
              · rw [length, List.length_cons, Nat.add_comm]

theorem chunk_reach_append (state : EndState) (front back : List UInt8) :
    chunkReach state (front ++ back) = (chunkReach state front).or
      ((chunkReach (chunkAfter state front) back).map (front.length + ·)) :=
  reach_append front back state

/-- The cut into segments does not matter. -/
theorem chunked_segments (segments : List (Bool × List UInt8)) {msg : MsgInfo} {world : World}
    (going : chunkLevel msg.ucEndStatus < 5) (body : msg.body.isSome) :
    ∃ reports after world', readSegments (chunkedRead env client isNotREQ) segments msg world =
        some ((reports, after), world') ∧
      (Fails reports ∧ Refused env client isNotREQ ∨
        match chunkReach msg.ucEndStatus (streamOf segments) with
        | some size => EndsAt reports size
        | none => GoesOn reports (streamOf segments).length) := by
  induction segments generalizing msg world with
  | nil => exact ⟨[], msg, world, rfl, Or.inr ⟨nofun, rfl⟩⟩
  | cons segment segments ih =>
      obtain ⟨limit, data⟩ := segment
      have stream : streamOf ((limit, data) :: segments) = data ++ streamOf segments := rfl
      obtain ⟨got, dLen, next, middle, read, done⟩ :=
        @chunked_read env client isNotREQ limit data msg world going body
      rw [readSegments, read, stream, chunk_reach_append]
      cases got with
      | failed => exact ⟨_, _, _, rfl, Or.inl ⟨fails_alone dLen, done⟩⟩
      | ended =>
          have here : chunkReach _ data = _ := done
          refine ⟨_, _, _, rfl, Or.inr ?_⟩
          rw [here]
          exact ends_at_alone dLen
      | more =>
          obtain ⟨none, length, some, status⟩ := done
          have going' : chunkLevel next.ucEndStatus < 5 := status ▸ reach_going going none
          obtain ⟨reports, after, world', run, outcome⟩ := @ih next middle going' some
          dsimp only
          rw [run, none, Option.none_or]
          refine ⟨_, _, _, rfl, ?_⟩
          rw [status] at outcome
          rcases outcome with ⟨fails, refused⟩ | outcome
          · exact Or.inl ⟨fails_cons dLen fails, refused⟩
          · refine Or.inr ?_
            cases found : chunkReach (chunkAfter msg.ucEndStatus data) (streamOf segments) with
            | none =>
                rw [found] at outcome
                rw [Option.map_none, List.length_append, ← length]
                exact goes_on_cons dLen outcome
            | some size =>
                rw [found] at outcome
                rw [Option.map_some, ← length]
                exact ends_at_cons dLen outcome

end Reading

section Encoding

def crlf : List UInt8 := [0x0D, 0x0A]

/-- A chunk that is not the last one. Its size may have zeros in front. -/
structure BodyChunk where
  digits : List UInt8
  data : List UInt8
  hexDigits : ∀ byte ∈ digits, sizeDigit byte = true
  size : hexValue digits = data.length
  nonempty : data ≠ []

def BodyChunk.bytes (chunk : BodyChunk) : List UInt8 := chunk.digits ++ (crlf ++ (chunk.data ++ crlf))

/-- The size of the last chunk has zeros in front as well. -/
def zeroSize (zeros : Nat) : List UInt8 := List.replicate zeros 0x30 ++ [0x30]

def encoded (chunks : List BodyChunk) (zeros : Nat) : List UInt8 :=
  chunks.flatMap BodyChunk.bytes ++ (zeroSize zeros ++ (crlf ++ crlf))

/-- Nothing in the chunk looks like the last one: neither its data with the line end behind them, nor a
size that ends in a zero with an empty line at the start of the data. -/
def BodyChunk.Plain (chunk : BodyChunk) : Prop :=
  ¬lastChunk <:+: chunk.data ++ crlf ∧ ¬(chunk.digits.getLast? = some 0x30 ∧ crlf <+: chunk.data)

variable {front tail : List UInt8} {digit : UInt8}

theorem chunk_digits_nonempty (chunk : BodyChunk) : chunk.digits ≠ [] := by
  intro none
  have size := chunk.size
  rw [none] at size
  exact chunk.nonempty (List.length_eq_zero_iff.mp size.symm)

/-- A digit can only be the first byte of the pattern. -/
theorem ends_behind (hex : sizeDigit digit = true) (ends : lastChunk <:+ front ++ digit :: tail) :
    lastChunk <:+ digit :: tail := by
  have behind : digit :: tail <:+ front ++ digit :: tail := List.suffix_append front _
  rcases Nat.lt_or_ge tail.length 4 with short | long
  · have inside := List.suffix_of_suffix_length_le behind ends (Nat.succ_le_succ (Nat.le_of_lt short))
    have later : digit = 0x0D ∨ digit = 0x0A := by
      obtain ⟨before, same⟩ := inside
      have width := congrArg List.length same
      rw [List.length_append, List.length_cons] at width
      change before.length + (tail.length + 1) = 5 at width
      have letter : lastChunk[before.length]? = some digit := by
        rw [← same, List.getElem?_append_right (Nat.le_refl _), Nat.sub_self]
        rfl
      have place : before.length = 1 ∨ before.length = 2 ∨ before.length = 3 ∨ before.length = 4 := by
        omega
      rcases place with place | place | place | place <;> rw [place] at letter <;> cases letter
      · exact Or.inl rfl
      · exact Or.inr rfl
      · exact Or.inl rfl
      · exact Or.inr rfl
    rcases later with rfl | rfl
    · exact absurd hex (by decide)
    · exact absurd hex (by decide)
  · exact List.suffix_of_suffix_length_le ends behind (Nat.succ_le_succ long)

theorem infix_split (hex : sizeDigit digit = true) :
    lastChunk <:+: front ++ digit :: tail ↔ lastChunk <:+: front ∨ lastChunk <:+: digit :: tail := by
  constructor
  · rintro ⟨before, behind, same⟩
    rcases List.append_eq_append_iff.mp same with ⟨more, rfl, -⟩ | ⟨more, parts, rest⟩
    · exact Or.inl ⟨before, more, rfl⟩
    · cases more with
      | nil =>
          rw [List.append_nil] at parts
          exact Or.inl ⟨before, [], by rw [List.append_nil, parts]⟩
      | cons other more =>
          obtain ⟨rfl, rfl⟩ := List.cons.inj rest
          obtain ⟨start, starts⟩ := ends_behind hex ⟨before, parts⟩
          exact Or.inr ⟨start, behind, by rw [starts]; rfl⟩
  · rintro (here | here)
    · exact here.trans (List.prefix_append front _).isInfix
    · exact here.trans (List.suffix_append front _).isInfix

theorem line_ends_missing {text : List UInt8} (few : text.count 0x0A < 2) : ¬lastChunk <:+: text := by
  intro here
  exact Nat.not_le.mpr few (List.Sublist.count_le 0x0A here.sublist)

theorem chunk_infix (chunk : BodyChunk) : lastChunk <:+: chunk.bytes ↔ ¬chunk.Plain := by
  obtain ⟨front, digit, digits⟩ : ∃ front digit, chunk.digits = front ++ [digit] :=
    ⟨_, _, (List.dropLast_append_getLast (chunk_digits_nonempty chunk)).symm⟩
  have hex (byte : UInt8) (member : byte ∈ front ++ [digit]) : sizeDigit byte = true :=
    chunk.hexDigits byte (digits ▸ member)
  have none : ¬lastChunk <:+: front := by
    refine line_ends_missing (Nat.lt_of_le_of_lt (Nat.le_of_eq ?_) (Nat.succ_pos 1))
    refine List.count_eq_zero.mpr fun member => ?_
    exact absurd (hex 0x0A (List.mem_append_left _ member)) (by decide)
  have bytes : chunk.bytes = front ++ digit :: (0x0D :: 0x0A :: (chunk.data ++ crlf)) := by
    rw [BodyChunk.bytes, digits, List.append_assoc]
    rfl
  have starts : crlf <+: chunk.data ++ crlf ↔ crlf <+: chunk.data := by
    refine ⟨fun here => ?_, fun here => here.trans (List.prefix_append _ _)⟩
    rcases parts : chunk.data with _ | ⟨first, _ | ⟨second, more⟩⟩
    · exact absurd parts chunk.nonempty
    · rw [parts] at here
      exact absurd (List.cons_prefix_cons.mp (List.cons_prefix_cons.mp here).2).1 (by decide)
    · rw [parts] at here
      obtain ⟨same, here⟩ := List.cons_prefix_cons.mp here
      obtain ⟨same', -⟩ := List.cons_prefix_cons.mp here
      exact ⟨more, by rw [← same, ← same']; rfl⟩
  rw [bytes, infix_split (hex digit (List.mem_append_right _ List.mem_cons_self)), or_iff_right none,
    List.infix_cons_iff, List.infix_cons_iff, List.infix_cons_iff, BodyChunk.Plain, digits,
    List.getLast?_concat, Option.some.injEq, ← starts, lastChunk, ← not_or, not_not]
  have cr : (0x30 : UInt8) ≠ 0x0D := by decide
  have lf : (0x30 : UInt8) ≠ 0x0A := by decide
  simp only [List.cons_prefix_cons, cr, lf, false_and, true_and, false_or, eq_comm (a := digit)]
  exact or_comm

/-- What is in front of the last byte of the encoding. -/
def unfinished (chunks : List BodyChunk) (zeros : Nat) : List UInt8 :=
  chunks.flatMap BodyChunk.bytes ++ (zeroSize zeros ++ [0x0D, 0x0A, 0x0D])

theorem encoded_last (chunks : List BodyChunk) (zeros : Nat) :
    encoded chunks zeros = unfinished chunks zeros ++ [0x0A] := by
  rw [encoded, unfinished, List.append_assoc, List.append_assoc]
  rfl

theorem encoded_ends (chunks : List BodyChunk) (zeros : Nat) : lastChunk <:+ encoded chunks zeros := by
  refine ⟨chunks.flatMap BodyChunk.bytes ++ List.replicate zeros 0x30, ?_⟩
  rw [encoded, zeroSize, List.append_assoc, List.append_assoc]
  rfl

/-- An encoding begins with a digit. -/
theorem unfinished_digit (chunks : List BodyChunk) (zeros : Nat) :
    ∃ digit tail, unfinished chunks zeros = digit :: tail ∧ sizeDigit digit = true := by
  cases chunks with
  | nil =>
      rw [unfinished, List.flatMap_nil, List.nil_append, zeroSize]
      cases zeros with
      | zero => exact ⟨_, _, rfl, rfl⟩
      | succ zeros => exact ⟨_, _, rfl, rfl⟩
  | cons chunk chunks =>
      rw [unfinished, List.flatMap_cons, BodyChunk.bytes]
      cases digits : chunk.digits with
      | nil => exact absurd digits (chunk_digits_nonempty chunk)
      | cons digit more =>
          exact ⟨digit, _, rfl, chunk.hexDigits digit (digits ▸ List.mem_cons_self)⟩

theorem unfinished_inside (chunks : List BodyChunk) (zeros : Nat) :
    lastChunk <:+: unfinished chunks zeros ↔ ∃ chunk ∈ chunks, ¬chunk.Plain := by
  induction chunks with
  | nil =>
      refine iff_of_false (line_ends_missing ?_) (fun ⟨_, member, _⟩ => nomatch member)
      have digits : (zeroSize zeros).count 0x0A = 0 := by
        refine List.count_eq_zero.mpr fun member => ?_
        rcases List.mem_append.mp member with member | member
        · exact absurd (List.eq_of_mem_replicate member) (by decide)
        · exact absurd (List.mem_singleton.mp member) (by decide)
      rw [unfinished, List.flatMap_nil, List.nil_append, List.count_append, digits]
      decide
  | cons chunk chunks ih =>
      obtain ⟨digit, tail, parts, hex⟩ := unfinished_digit chunks zeros
      have whole : unfinished (chunk :: chunks) zeros = chunk.bytes ++ unfinished chunks zeros := by
        rw [unfinished, List.flatMap_cons, List.append_assoc]
        rfl
      rw [whole, parts, infix_split hex, ← parts, ih, chunk_infix]
      simp only [List.mem_cons, exists_eq_or_imp]

/-- The first last chunk is the last one just when every chunk is plain. -/
theorem encoded_first (chunks : List BodyChunk) (zeros : Nat) (behind : List UInt8) :
    EndsFirst lastChunk [] (encoded chunks zeros ++ behind) (encoded chunks zeros).length ↔
      ∀ chunk ∈ chunks, chunk.Plain := by
  have none_inside : (∀ chunk ∈ chunks, chunk.Plain) ↔ ¬lastChunk <:+: unfinished chunks zeros := by
    rw [unfinished_inside]
    simp only [not_exists, not_and, not_not]
  have early (before : Nat) (less : before < (encoded chunks zeros).length) :
      (encoded chunks zeros ++ behind).take before = (unfinished chunks zeros).take before := by
    rw [encoded_last, List.length_append, List.length_singleton] at less
    rw [List.take_append_of_le_length (by rw [encoded_last, List.length_append]; omega), encoded_last,
      List.take_append_of_le_length (by omega)]
  rw [none_inside, EndsFirst, List.take_left]
  constructor
  · rintro ⟨-, least⟩ here
    obtain ⟨start, ends, begins⟩ := List.infix_iff_suffix_prefix.mp here
    have less : start.length < (encoded chunks zeros).length := by
      rw [encoded_last, List.length_append, List.length_singleton]
      exact Nat.lt_succ_of_le begins.length_le
    refine least start.length less ?_
    rw [List.nil_append, early _ less, ← List.prefix_iff_eq_take.mp begins]
    exact ends
  · intro nowhere
    refine ⟨⟨by rw [List.length_append]; omega, encoded_ends chunks zeros⟩, fun before less ends => ?_⟩
    rw [List.nil_append, early before less] at ends
    exact nowhere (ends.isInfix.trans (List.take_prefix _ _).isInfix)

end Encoding

section End

/-- The calls for these segments find the end when so many bytes are consumed, unless a node is
refused. -/
def ReportsEnd (segments : List (Bool × List UInt8)) (size : Nat) : Prop :=
  ∀ env client isNotREQ (msg : MsgInfo) world, msg.body.isSome → msg.ucEndStatus = .empty →
    ∃ reports after world', readSegments (chunkedRead env client isNotREQ) segments msg world =
        some ((reports, after), world') ∧
      (EndsAt reports size ∨ Fails reports ∧ Refused env client isNotREQ)

theorem reports_end_iff (segments : List (Bool × List UInt8)) (size : Nat) :
    ReportsEnd segments size ↔ EndsFirst lastChunk [] (streamOf segments) size := by
  have first := reach_first chunk_tracks (by decide) (show chunkLevel .empty = 0 from rfl)
    (streamOf segments) size
  refine Iff.trans ?_ first
  constructor
  · intro ends
    obtain ⟨reports, after, world', run, outcome⟩ :=
      ends plainEnv oneClient false freshMsg .start rfl rfl
    obtain ⟨reports', after', world'', run', outcome'⟩ :=
      @chunked_segments plainEnv oneClient false segments freshMsg .start (by decide) rfl
    cases run.symm.trans run'
    have found : EndsAt reports size :=
      outcome.resolve_right fun fails => plainEnv_not_refused fails.2
    have reached := outcome'.resolve_left fun fails => plainEnv_not_refused fails.2
    change (match chunkReach .empty (streamOf segments) with
      | some size => EndsAt reports size
      | none => GoesOn reports (streamOf segments).length) at reached
    change chunkReach .empty (streamOf segments) = some size
    cases place : chunkReach .empty (streamOf segments) with
    | none =>
        rw [place] at reached
        exact absurd reached (ends_not_going found)
    | some other =>
        rw [place] at reached
        exact congrArg some (ends_at_unique reached found)
  · intro place env client isNotREQ msg world body status
    obtain ⟨reports, after, world', run, outcome⟩ :=
      @chunked_segments env client isNotREQ segments msg world (by rw [status]; decide) body
    refine ⟨reports, after, world', run, ?_⟩
    have here : chunkReach msg.ucEndStatus (streamOf segments) = some size := by
      rw [status]
      exact place
    rw [here] at outcome
    exact outcome.symm

/-- The end of a chunked body is found with its last byte just when every chunk is plain, however the
body and what follows it are cut. -/
theorem chunked_end_iff (chunks : List BodyChunk) (zeros : Nat) (behind : List UInt8)
    (segments : List (Bool × List UInt8)) (cut : streamOf segments = encoded chunks zeros ++ behind) :
    ReportsEnd segments (encoded chunks zeros).length ↔ ∀ chunk ∈ chunks, chunk.Plain := by
  rw [reports_end_iff, cut, encoded_first]

theorem plain_digits : ∀ byte ∈ [(0x31 : UInt8)], sizeDigit byte = true :=
  List.forall_mem_singleton.mpr (by decide)

theorem plain_size : hexValue [0x31] = [(0x41 : UInt8)].length := by decide +kernel

theorem plain_data : [(0x41 : UInt8)] ≠ [] := List.cons_ne_nil _ _

/-- One byte. -/
def plainChunk : BodyChunk where
  digits := [0x31]
  data := [0x41]
  hexDigits := plain_digits
  size := plain_size
  nonempty := plain_data

theorem plain_chunk_ends : ReportsEnd [(true, [0x31, 0x0D]), (false, [0x0A, 0x41, 0x0D, 0x0A, 0x30]),
    (true, [0x0D, 0x0A, 0x0D, 0x0A])] (encoded [plainChunk] 0).length := by
  refine (chunked_end_iff [plainChunk] 0 [] _ rfl).mpr fun chunk member => ?_
  obtain rfl := List.mem_singleton.mp member
  exact ⟨by decide, by decide⟩

/-- Sixteen bytes that begin with a line end. -/
def lineChunk : BodyChunk where
  digits := [0x31, 0x30]
  data := crlf ++ List.replicate 14 0x41
  hexDigits := by decide +kernel
  size := by decide +kernel
  nonempty := List.cons_ne_nil _ _

theorem line_chunk_cut_short :
    ¬ReportsEnd [(true, encoded [lineChunk] 0)] (encoded [lineChunk] 0).length := by
  intro ends
  rw [reports_end_iff] at ends
  have stream : streamOf [(true, encoded [lineChunk] 0)] = encoded [lineChunk] 0 ++ [] := rfl
  rw [stream, encoded_first] at ends
  have plain := ends lineChunk List.mem_cons_self
  exact plain.2 ⟨rfl, _, rfl⟩

end End

end Upst.Http
