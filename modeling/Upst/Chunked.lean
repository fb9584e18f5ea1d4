import Upst.Guarded
import Upst.Word
import Mathlib.Data.List.TakeWhile

/-!
The decoder of chunked bodies. The buffer for the body has as many bytes as `*outlen` says, and a
store behind it or behind `szTmp` has no result.
-/

namespace Upst.Chunked

open Guarded Word

set_option autoImplicit false

section Source

def BUFSIZ : Nat := 8192

inductive EndState where
  | END_STATE_EMPTY | END_STATE_30 | END_STATE_0D
  deriving DecidableEq, Repr

/-- The characters with a case of their own. -/
def sizeDigit (byte : UInt8) : Bool :=
  (48 ≤ byte && byte ≤ 57) || (65 ≤ byte && byte ≤ 70) || (97 ≤ byte && byte ≤ 102)

/-- `DECFROMHEXA`; a character without a case leaves `tmp`. -/
def decFromHexa (tmp : Nat) (byte : UInt8) : Nat :=
  if 48 ≤ byte ∧ byte ≤ 57 then byte.toNat - 48
  else if 65 ≤ byte ∧ byte ≤ 70 then byte.toNat - 55
  else if 97 ≤ byte ∧ byte ≤ 102 then byte.toNat - 87
  else tmp

def convLoop : List UInt8 → Nat → Nat → Nat
  | [], _, rst => rst
  | byte :: szIn, tmp, rst =>
      let tmp := decFromHexa tmp byte
      convLoop szIn tmp (u32 (u32 (rst * 16) + tmp))

def uiConvDecFromHexa (szIn : List UInt8) : Nat :=
  if szIn.length > 8 then 0 else convLoop szIn 0 0

/-- The variables of the loop; `szTmp` up to `tmp_offset`. -/
structure Reading where
  start : Int
  flag : Bool
  tmp_state : EndState
  szTmp : List UInt8
  offset : Nat
  out : List UInt8
  deriving Repr

inductive Turn where
  | goesOn (reading : Reading)
  | returns (code : Int)
  | outside

def storeDigit (byte : UInt8) (reading : Reading) : Turn :=
  if reading.szTmp.length < BUFSIZ then
    .goesOn { reading with tmp_state := .END_STATE_30, szTmp := reading.szTmp ++ [byte] }
  else .outside

/-- `start == 0`. -/
def sizeTurn (byte : UInt8) (reading : Reading) : Turn :=
  match reading.tmp_state with
  | .END_STATE_EMPTY => if sizeDigit byte then storeDigit byte reading else .returns (-1)
  | .END_STATE_30 =>
      if sizeDigit byte then storeDigit byte reading
      else if byte = 0x0D then .goesOn { reading with tmp_state := .END_STATE_0D }
      else .returns (-2)
  | .END_STATE_0D =>
      if byte = 0x0A then
        if reading.szTmp.length < BUFSIZ then
          .goesOn { reading with
            start := s32 (uiConvDecFromHexa reading.szTmp)
            szTmp := []
            tmp_state := .END_STATE_EMPTY
            flag := true }
        else .outside
      else .returns (-3)

def turn (totlen : Nat) (byte : UInt8) (reading : Reading) : Turn :=
  let start := if reading.flag = true ∧ reading.start = 0 then reading.start - 2 else reading.start
  if start = 0 then sizeTurn byte { reading with start := start }
  else if 0 < start then
    if totlen ≤ reading.offset then .returns (-10)
    else
      match store reading.out reading.offset byte with
      | some out =>
          .goesOn { reading with out := out, offset := reading.offset + 1, start := start - 1 }
      | none => .outside
  else .goesOn { reading with flag := false, start := start + 1 }

/-- The code, `*outlen` and `out`. -/
def chunkedLoop (totlen : Nat) : List UInt8 → Reading → Option (Int × Nat × List UInt8)
  | [], reading => do
      let out ← store reading.out reading.offset 0
      some (0, reading.offset, out)
  | byte :: rest, reading =>
      match turn totlen byte reading with
      | .goesOn reading => chunkedLoop totlen rest reading
      | .returns code => some (code, 0, reading.out)
      | .outside => none

def dGetChunked (out input : List UInt8) : Option (Int × Nat × List UInt8) :=
  chunkedLoop out.length input
    { start := 0, flag := false, tmp_state := .END_STATE_EMPTY, szTmp := [], offset := 0, out := out }

end Source

section Claim

def sizeLine (input : List UInt8) : List UInt8 := input.takeWhile sizeDigit

/-- What an input starts with: nothing but a part of a size, something else, or a size and what
follows it. A size that is negative as a signed number skips bytes. -/
inductive Piece where
  | ended
  | wrong
  | skips (count : Nat) (rest : List UInt8)
  | carries (count : Nat) (rest : List UInt8)

def sized (start : Int) (rest : List UInt8) : Piece :=
  if start < 0 then .skips start.natAbs rest else .carries start.toNat rest

def behindLine (line : List UInt8) : List UInt8 → Piece
  | [] => .ended
  | cr :: rest =>
      if cr = 0x0D then
        match rest with
        | [] => .ended
        | lf :: rest => if lf = 0x0A then sized (s32 (uiConvDecFromHexa line)) rest else .wrong
      else .wrong

def piece (input : List UInt8) : Piece :=
  if input = [] then .ended
  else if sizeLine input = [] then .wrong
  else behindLine (sizeLine input) (input.dropWhile sizeDigit)

def Piece.rest : Piece → List UInt8
  | ended | wrong => []
  | skips _ rest | carries _ rest => rest

theorem sized_rest (start : Int) (rest : List UInt8) : (sized start rest).rest = rest := by
  rw [sized]
  split <;> rfl

theorem behind_line_rest (line dropped : List UInt8) :
    (behindLine line dropped).rest.length ≤ dropped.length := by
  rcases dropped with _ | ⟨cr, _ | ⟨lf, others⟩⟩
  · exact Nat.le_refl _
  · rw [behindLine]
    split <;> exact Nat.zero_le _
  · rw [behindLine]
    split
    · split
      · rw [sized_rest, List.length_cons, List.length_cons]
        omega
      · exact Nat.zero_le _
    · exact Nat.zero_le _

theorem piece_rest {input : List UInt8} (sized : piece input ≠ .ended) :
    (piece input).rest.length < input.length := by
  have nonempty : input ≠ [] := by
    rintro rfl
    exact sized rfl
  rw [piece, if_neg nonempty]
  split
  · exact List.length_pos_iff.mpr nonempty
  · next line =>
      have shorter : (input.dropWhile sizeDigit).length < input.length := by
        have parts := congrArg List.length (List.takeWhile_append_dropWhile (p := sizeDigit) (l := input))
        have positive := List.length_pos_iff.mpr line
        rw [List.length_append] at parts
        rw [sizeLine] at positive
        omega
      exact Nat.lt_of_le_of_lt (behind_line_rest _ _) shorter

theorem skips_shorter {input rest : List UInt8} {count : Nat} (found : piece input = .skips count rest) :
    rest.length < input.length := by
  have shorter := @piece_rest input (by rw [found]; exact Piece.noConfusion)
  rw [found] at shorter
  exact shorter

theorem carries_shorter {input rest : List UInt8} {count : Nat}
    (found : piece input = .carries count rest) : rest.length < input.length := by
  have shorter := @piece_rest input (by rw [found]; exact Piece.noConfusion)
  rw [found] at shorter
  exact shorter

/-- No run of digits is longer than `szTmp`, where a size needs its terminator too, and the data do
not end where the buffer ends; `room` is what is left of the buffer. -/
def Fits (room : Nat) (input : List UInt8) : Prop :=
  (sizeLine input).length ≤ BUFSIZ ∧
    match _piece : piece input with
    | .ended => 0 < room
    | .wrong => True
    | .skips count rest => (sizeLine input).length < BUFSIZ ∧ Fits room (rest.drop count)
    | .carries count rest =>
        (sizeLine input).length < BUFSIZ ∧
          if rest.length ≤ count then rest.length ≠ room
          else count ≤ room → Fits (room - count) (rest.drop (count + 2))
termination_by input.length
decreasing_by
  · have shorter := skips_shorter _piece
    rw [List.length_drop]
    omega
  · have shorter := carries_shorter _piece
    rw [List.length_drop]
    omega

/-- The value of a hexadecimal digit. -/
def digitValue (byte : UInt8) : Nat := decFromHexa 0 byte

def hexValue (digits : List UInt8) : Nat :=
  digits.foldl (fun value byte => value * 16 + digitValue byte) 0

structure Chunk where
  digits : List UInt8
  data : List UInt8
  hexDigits : ∀ byte ∈ digits, sizeDigit byte = true
  short : digits.length ≤ 8
  size : hexValue digits = data.length
  nonempty : data ≠ []
  bounded : data.length < 2 ^ 31

def Chunk.bytes (chunk : Chunk) : List UInt8 :=
  chunk.digits ++ ([0x0D, 0x0A] ++ (chunk.data ++ [0x0D, 0x0A]))

/-- The final chunk may be left out; else its size is a zero with leading zeros. -/
structure Body where
  chunks : List Chunk
  final : Option (Fin 8)

def finalBytes : Option (Fin 8) → List UInt8
  | none => []
  | some zeros => List.replicate (zeros.val + 1) 48 ++ [0x0D, 0x0A, 0x0D, 0x0A]

def Body.bytes (body : Body) : List UInt8 := body.chunks.flatMap Chunk.bytes ++ finalBytes body.final

def Body.data (body : Body) : List UInt8 := body.chunks.flatMap Chunk.data

/-- The body is decoded, or refused when it exceeds the buffer. -/
def Decodes (out : List UInt8) (body : Body) : Prop :=
  if body.data.length ≤ out.length then
    ∃ out', dGetChunked out body.bytes = some (0, body.data.length, out') ∧
      out'.take body.data.length = body.data
  else ∃ out', dGetChunked out body.bytes = some (-10, 0, out')

end Claim

section Loop

variable {totlen : Nat} {written room : List UInt8}

/-- Among the digits of a size. -/
def sizing (szTmp written room : List UInt8) : Reading where
  start := 0
  flag := false
  tmp_state := .END_STATE_30
  szTmp := szTmp
  offset := written.length
  out := written ++ room

/-- Behind a size, or among the data. -/
def carrying (start : Int) (written room : List UInt8) : Reading where
  start := start
  flag := true
  tmp_state := .END_STATE_EMPTY
  szTmp := []
  offset := written.length
  out := written ++ room

/-- In front of bytes that are skipped, or of a size when there are none. -/
def skipping (count : Nat) (written room : List UInt8) : Reading where
  start := -count
  flag := false
  tmp_state := .END_STATE_EMPTY
  szTmp := []
  offset := written.length
  out := written ++ room

/-- What the loop returns where the input ends. -/
def ended (written room : List UInt8) : Option (Int × Nat × List UInt8) :=
  match room with
  | [] => none
  | _ :: room => some (0, written.length, written ++ 0 :: room)

theorem loop_ended {reading : Reading} (offset : reading.offset = written.length)
    (out : reading.out = written ++ room) : chunkedLoop totlen [] reading = ended written room := by
  rw [chunkedLoop, offset, out]
  cases room with
  | nil =>
      rw [store_full]
      rfl
  | cons old room =>
      rw [store_next, List.append_assoc]
      rfl

theorem ended_isSome (written room : List UInt8) :
    (ended written room).isSome = true ↔ 0 < room.length := by
  cases room with
  | nil => exact ⟨fun result => Bool.noConfusion result, fun positive => absurd positive (Nat.lt_irrefl 0)⟩
  | cons old room => exact ⟨fun _ => Nat.succ_pos _, fun _ => rfl⟩

theorem turn_kept {reading : Reading} (kept : ¬(reading.flag = true ∧ reading.start = 0))
    (byte : UInt8) :
    turn totlen byte reading =
      if reading.start = 0 then sizeTurn byte reading
      else if 0 < reading.start then
        if totlen ≤ reading.offset then .returns (-10)
        else
          match store reading.out reading.offset byte with
          | some out =>
              .goesOn { reading with
                out := out, offset := reading.offset + 1, start := reading.start - 1 }
          | none => .outside
      else .goesOn { reading with flag := false, start := reading.start + 1 } := by
  rw [turn, if_neg kept]

theorem turn_sizing (byte : UInt8) (szTmp : List UInt8) :
    turn totlen byte (sizing szTmp written room) = sizeTurn byte (sizing szTmp written room) := by
  simp only [turn, sizing, Bool.false_eq_true, false_and, if_false, if_true]

theorem turn_digit {byte : UInt8} (digit : sizeDigit byte = true) (szTmp : List UInt8)
    (fits : szTmp.length < BUFSIZ) :
    turn totlen byte (sizing szTmp written room) =
      .goesOn (sizing (szTmp ++ [byte]) written room) := by
  rw [turn_sizing, sizeTurn, sizing]
  dsimp only
  rw [if_pos digit, storeDigit, if_pos fits]
  rfl

theorem turn_digit_full {byte : UInt8} (digit : sizeDigit byte = true) (szTmp : List UInt8)
    (full : ¬szTmp.length < BUFSIZ) : turn totlen byte (sizing szTmp written room) = .outside := by
  rw [turn_sizing, sizeTurn, sizing]
  dsimp only
  rw [if_pos digit, storeDigit, if_neg full]

theorem loop_digits (line : List UInt8) (digits : ∀ byte ∈ line, sizeDigit byte = true)
    (rest : List UInt8) (szTmp : List UInt8) (short : szTmp.length ≤ BUFSIZ) :
    chunkedLoop totlen (line ++ rest) (sizing szTmp written room) =
      if szTmp.length + line.length ≤ BUFSIZ then
        chunkedLoop totlen rest (sizing (szTmp ++ line) written room)
      else none := by
  induction line generalizing szTmp with
  | nil =>
      rw [List.length_nil, Nat.add_zero, if_pos short, List.append_nil]
      rfl
  | cons byte line ih =>
      have digit := digits byte List.mem_cons_self
      rw [List.cons_append, chunkedLoop]
      by_cases fits : szTmp.length < BUFSIZ
      · have longer : (szTmp ++ [byte]).length = szTmp.length + 1 := by
          rw [List.length_append, List.length_singleton]
        rw [turn_digit digit szTmp fits]
        dsimp only
        rw [ih (fun other member => digits other (List.mem_cons_of_mem _ member)) _ (by omega), longer,
          List.length_cons, List.append_assoc, List.singleton_append,
          Nat.add_right_comm szTmp.length 1 line.length, Nat.add_assoc szTmp.length line.length 1]
      · rw [turn_digit_full digit szTmp fits, if_neg]
        rw [List.length_cons]
        omega

theorem turn_cr (szTmp : List UInt8) : turn totlen 0x0D (sizing szTmp written room) =
    .goesOn { sizing szTmp written room with tmp_state := .END_STATE_0D } := by
  rw [turn_sizing]
  rfl

theorem loop_body {szTmp : List UInt8} (fits : szTmp.length < BUFSIZ) (rest : List UInt8) :
    chunkedLoop totlen (0x0D :: 0x0A :: rest) (sizing szTmp written room) =
      chunkedLoop totlen rest (carrying (s32 (uiConvDecFromHexa szTmp)) written room) := by
  have lf : turn totlen 0x0A { sizing szTmp written room with tmp_state := .END_STATE_0D } =
      .goesOn (carrying (s32 (uiConvDecFromHexa szTmp)) written room) := by
    simp only [turn, sizing, Bool.false_eq_true, false_and, if_false, if_true, sizeTurn, fits]
    rfl
  rw [chunkedLoop, turn_cr]
  dsimp only
  rw [chunkedLoop, lf]

theorem loop_body_full {szTmp : List UInt8} (full : ¬szTmp.length < BUFSIZ) (rest : List UInt8) :
    chunkedLoop totlen (0x0D :: 0x0A :: rest) (sizing szTmp written room) = none := by
  have lf : turn totlen 0x0A { sizing szTmp written room with tmp_state := .END_STATE_0D } =
      .outside := by
    simp only [turn, sizing, Bool.false_eq_true, false_and, if_false, if_true, sizeTurn, full]
  rw [chunkedLoop, turn_cr]
  dsimp only
  rw [chunkedLoop, lf]

/-- A byte of the data. -/
theorem loop_data {start : Int} (positive : 0 < start) (byte old : UInt8) (rest : List UInt8)
    (size : totlen = written.length + (old :: room).length) :
    chunkedLoop totlen (byte :: rest) (carrying start written (old :: room)) =
      chunkedLoop totlen rest (carrying (start - 1) (written ++ [byte]) room) := by
  have data : turn totlen byte (carrying start written (old :: room)) =
      .goesOn (carrying (start - 1) (written ++ [byte]) room) := by
    have inside : ¬totlen ≤ written.length := by
      rw [size, List.length_cons]
      omega
    have other : start ≠ 0 := Int.ne_of_gt positive
    rw [turn_kept (fun both => other both.2), carrying]
    dsimp only
    rw [if_neg other, if_pos positive, if_neg inside, store_next, carrying, List.length_append]
    rfl
  rw [chunkedLoop, data]

theorem loop_full {start : Int} (positive : 0 < start) (byte : UInt8) (rest : List UInt8)
    (size : totlen = written.length) :
    chunkedLoop totlen (byte :: rest) (carrying start written []) = some (-10, 0, written) := by
  have full : turn totlen byte (carrying start written []) = .returns (-10) := by
    have other : start ≠ 0 := Int.ne_of_gt positive
    rw [turn_kept (fun both => other both.2), carrying]
    dsimp only
    rw [if_neg other, if_pos positive, if_pos (Nat.le_of_eq size)]
  rw [chunkedLoop, full]
  dsimp only [carrying]
  rw [List.append_nil]

theorem loop_skips (input : List UInt8) (count : Nat) :
    chunkedLoop totlen input (skipping count written room) =
      chunkedLoop totlen (input.drop count) (skipping 0 written room) := by
  induction count generalizing input with
  | zero => rfl
  | succ count ih =>
      cases input with
      | nil =>
          rw [List.drop_nil, @loop_ended totlen written room _ rfl rfl,
            @loop_ended totlen written room _ rfl rfl]
      | cons byte rest =>
          have skipped : turn totlen byte (skipping (count + 1) written room) =
              .goesOn (skipping count written room) := by
            rw [turn_kept (fun both => Bool.noConfusion both.1), skipping]
            dsimp only
            rw [if_neg (by omega), if_neg (by omega), skipping]
            congr 2
            omega
          rw [chunkedLoop, skipped]
          exact ih rest

/-- Behind the data, and behind a size of zero, two bytes are skipped. -/
theorem loop_carried (input : List UInt8) :
    chunkedLoop totlen input (carrying 0 written room) =
      chunkedLoop totlen input (skipping 2 written room) := by
  cases input with
  | nil =>
      rw [@loop_ended totlen written room _ rfl rfl, @loop_ended totlen written room _ rfl rfl]
  | cons byte rest => rfl

theorem loop_negative (input : List UInt8) {start : Int} (negative : start < 0) :
    chunkedLoop totlen input (carrying start written room) =
      chunkedLoop totlen input (skipping start.natAbs written room) := by
  cases input with
  | nil =>
      rw [@loop_ended totlen written room _ rfl rfl, @loop_ended totlen written room _ rfl rfl]
  | cons byte rest =>
      have same : turn totlen byte (carrying start written room) =
          turn totlen byte (skipping start.natAbs written room) := by
        have other : start ≠ 0 := Int.ne_of_lt negative
        rw [turn_kept (fun both => other both.2), turn_kept (fun both => Bool.noConfusion both.1),
          carrying, skipping]
        dsimp only
        rw [if_neg other, if_neg (by omega), if_neg (by omega), if_neg (by omega)]
        congr 2
        omega
      rw [chunkedLoop, chunkedLoop, same]
      rfl

/-- Where a size is expected. -/
theorem turn_size (byte : UInt8) : turn totlen byte (skipping 0 written room) =
    if sizeDigit byte then .goesOn (sizing [byte] written room) else .returns (-1) := by
  rw [turn_kept (fun both => Bool.noConfusion both.1), skipping]
  dsimp only
  rw [if_pos (by omega), sizeTurn]
  dsimp only
  split
  · rw [storeDigit, if_pos (by rw [BUFSIZ]; exact Nat.succ_pos _)]
    rfl
  · rfl

theorem loop_line {input : List UInt8} (line : sizeLine input ≠ []) :
    chunkedLoop totlen input (skipping 0 written room) =
      if (sizeLine input).length ≤ BUFSIZ then
        chunkedLoop totlen (input.dropWhile sizeDigit) (sizing (sizeLine input) written room)
      else none := by
  cases input with
  | nil => exact absurd rfl line
  | cons byte input =>
      have digit : sizeDigit byte = true := by
        by_contra other
        exact line (List.takeWhile_cons_of_neg other)
      have first : sizeLine (byte :: input) = byte :: sizeLine input := List.takeWhile_cons_of_pos digit
      have digits : ∀ other ∈ sizeLine input, sizeDigit other = true := fun other member =>
        List.mem_takeWhile_imp member
      have parts : sizeLine input ++ input.dropWhile sizeDigit = input := List.takeWhile_append_dropWhile
      rw [chunkedLoop, turn_size, if_pos digit, first, List.dropWhile_cons_of_pos digit]
      dsimp only
      have run := @loop_digits totlen written room (sizeLine input) digits (input.dropWhile sizeDigit)
        [byte] (by rw [BUFSIZ]; exact Nat.succ_le_succ (Nat.zero_le _))
      rw [parts] at run
      rw [run, List.length_singleton, List.length_cons, Nat.add_comm, List.singleton_append]

theorem loop_wrong {input : List UInt8} (nonempty : input ≠ []) (line : sizeLine input = []) :
    ∃ code, chunkedLoop totlen input (skipping 0 written room) = some (code, 0, written ++ room) := by
  cases input with
  | nil => exact absurd rfl nonempty
  | cons byte input =>
      have other : ¬sizeDigit byte = true := fun digit => by
        rw [sizeLine, List.takeWhile_cons_of_pos digit] at line
        cases line
      refine ⟨-1, ?_⟩
      rw [chunkedLoop, turn_size, if_neg other]
      rfl

/-- When the loop has a result behind the digits of a size. -/
def Settled (totlen : Nat) (line written room : List UInt8) : Piece → Prop
  | .ended => 0 < room.length
  | .wrong => True
  | .skips count rest =>
      line.length < BUFSIZ ∧ (chunkedLoop totlen rest (skipping count written room)).isSome = true
  | .carries count rest =>
      line.length < BUFSIZ ∧ (chunkedLoop totlen rest (carrying count written room)).isSome = true

theorem behind_lf (line rest : List UInt8) :
    behindLine line (0x0D :: 0x0A :: rest) = sized (s32 (uiConvDecFromHexa line)) rest := by
  rw [behindLine.eq_def]
  dsimp only
  rw [if_pos rfl, if_pos rfl]

theorem behind_other (line : List UInt8) {lf : UInt8} (other : lf ≠ 0x0A) (rest : List UInt8) :
    behindLine line (0x0D :: lf :: rest) = .wrong := by
  rw [behindLine.eq_def]
  dsimp only
  rw [if_pos rfl, if_neg other]

theorem settled_fits {line : List UInt8} {start : Int} {rest : List UInt8}
    (settled : Settled totlen line written room (sized start rest)) : line.length < BUFSIZ := by
  rw [sized] at settled
  split at settled
  · exact settled.1
  · exact settled.1

theorem sized_settled {line : List UInt8} (fits : line.length < BUFSIZ) (start : Int)
    (rest : List UInt8) :
    (chunkedLoop totlen rest (carrying start written room)).isSome = true ↔
      Settled totlen line written room (sized start rest) := by
  rw [sized]
  split
  · next negative =>
      rw [loop_negative rest negative, Settled]
      exact (and_iff_right fits).symm
  · next positive =>
      rw [Settled, Int.toNat_of_nonneg (Int.not_lt.mp positive)]
      exact (and_iff_right fits).symm

theorem behind_settled (line : List UInt8) {dropped : List UInt8}
    (other : ∀ byte ∈ dropped.head?, sizeDigit byte = false) :
    (chunkedLoop totlen dropped (sizing line written room)).isSome = true ↔
      Settled totlen line written room (behindLine line dropped) := by
  rcases dropped with _ | ⟨cr, rest⟩
  · rw [@loop_ended totlen written room _ rfl rfl]
    exact ended_isSome written room
  · by_cases isCr : cr = 0x0D
    · subst isCr
      rcases rest with _ | ⟨lf, rest⟩
      · rw [chunkedLoop, turn_cr]
        dsimp only
        rw [@loop_ended totlen written room _ rfl rfl]
        exact ended_isSome written room
      · by_cases isLf : lf = 0x0A
        · subst isLf
          by_cases fits : line.length < BUFSIZ
          · rw [loop_body fits, behind_lf]
            exact sized_settled fits _ rest
          · rw [loop_body_full fits, behind_lf]
            generalize s32 (uiConvDecFromHexa line) = start
            exact iff_of_false Bool.false_ne_true (fun settled => fits (settled_fits settled))
        · have refused : turn totlen lf { sizing line written room with tmp_state := .END_STATE_0D } =
              .returns (-3) := by
            simp only [turn, sizing, Bool.false_eq_true, false_and, if_false, if_true, sizeTurn, isLf]
          rw [chunkedLoop, turn_cr]
          dsimp only
          rw [chunkedLoop, refused, behind_other line isLf]
          exact iff_of_true rfl trivial
    · have refused : turn totlen cr (sizing line written room) = .returns (-2) := by
        have nondigit : ¬sizeDigit cr = true := ne_true_of_eq_false (other cr rfl)
        rw [turn_sizing, sizeTurn, sizing]
        dsimp only
        rw [if_neg nondigit, if_neg isCr]
      rw [chunkedLoop, refused, behindLine.eq_def]
      dsimp only
      rw [if_neg isCr]
      exact iff_of_true rfl trivial

/-- The data that fit the room. -/
theorem loop_taken (data rest : List UInt8) {start : Nat} (short : data.length ≤ start)
    (fits : data.length ≤ room.length) (size : totlen = written.length + room.length) :
    chunkedLoop totlen (data ++ rest) (carrying start written room) =
      chunkedLoop totlen rest
        (carrying (start - data.length : Nat) (written ++ data) (room.drop data.length)) := by
  induction data generalizing written room start with
  | nil =>
      rw [List.nil_append, List.append_nil]
      rfl
  | cons byte data ih =>
      rw [List.length_cons] at short fits
      cases room with
      | nil => exact absurd fits (Nat.not_succ_le_zero _)
      | cons old room =>
          rw [List.length_cons] at fits
          have step := @loop_data totlen written room start (by omega) byte old (data ++ rest) size
          have less : (start : Int) - 1 = (start - 1 : Nat) := by omega
          have count : start - 1 - data.length = start - (data.length + 1) := by omega
          have longer : totlen = (written ++ [byte]).length + room.length := by
            rw [size, List.length_append, List.length_singleton, List.length_cons, Nat.add_assoc,
              Nat.add_comm 1]
          rw [List.cons_append, step, less, ih (by omega) (Nat.le_of_succ_le_succ fits) longer, count,
            List.append_assoc, List.singleton_append, List.length_cons, List.drop_succ_cons]

/-- Data that exceed the room. -/
theorem loop_exceeds (data rest : List UInt8) {start : Nat} (short : data.length ≤ start)
    (exceeds : room.length < data.length) (size : totlen = written.length + room.length) :
    ∃ out, chunkedLoop totlen (data ++ rest) (carrying start written room) = some (-10, 0, out) := by
  have front : (data.take room.length).length = room.length := by
    rw [List.length_take]
    omega
  obtain ⟨byte, tail, behind⟩ := List.exists_cons_of_length_pos
    (show 0 < (data.drop room.length).length by rw [List.length_drop]; omega)
  have parts : data ++ rest = data.take room.length ++ (byte :: tail ++ rest) := by
    rw [← behind, ← List.append_assoc, List.take_append_drop]
  have run := @loop_taken totlen written room (data.take room.length) (byte :: tail ++ rest) start
    (by omega) (Nat.le_of_eq front) size
  have filled : totlen = (written ++ data.take room.length).length := by
    rw [size, List.length_append, front]
  rw [front, List.drop_length] at run
  refine ⟨written ++ data.take room.length, ?_⟩
  rw [parts, run]
  exact loop_full (by omega) byte (tail ++ rest) filled

theorem carried_isSome (rest : List UInt8) (count : Nat) (size : totlen = written.length + room.length) :
    (chunkedLoop totlen rest (carrying count written room)).isSome = true ↔
      if rest.length ≤ count then rest.length ≠ room.length
      else count ≤ room.length →
        (chunkedLoop totlen (rest.drop (count + 2))
          (skipping 0 (written ++ rest.take count) (room.drop count))).isSome = true := by
  by_cases whole : rest.length ≤ count
  · rw [if_pos whole]
    by_cases fits : rest.length ≤ room.length
    · have run := @loop_taken totlen written room rest [] count whole fits size
      rw [List.append_nil] at run
      rw [run, @loop_ended totlen (written ++ rest) (room.drop rest.length) _ rfl rfl, ended_isSome,
        List.length_drop]
      omega
    · obtain ⟨out, run⟩ := @loop_exceeds totlen written room rest [] count whole (by omega) size
      rw [List.append_nil] at run
      rw [run]
      exact iff_of_true rfl (by omega)
  · rw [if_neg whole]
    have taken : (rest.take count).length = count := by
      rw [List.length_take]
      omega
    by_cases fits : count ≤ room.length
    · have run := @loop_taken totlen written room (rest.take count) (rest.drop count) count
        (Nat.le_of_eq taken) (by omega) size
      rw [List.take_append_drop, taken, Nat.sub_self, Int.natCast_zero, loop_carried, loop_skips,
        List.drop_drop] at run
      rw [run]
      exact ⟨fun result _ => result, fun result => result fits⟩
    · obtain ⟨out, run⟩ := @loop_exceeds totlen written room (rest.take count) (rest.drop count) count
        (Nat.le_of_eq taken) (by omega) size
      rw [List.take_append_drop] at run
      rw [run]
      exact iff_of_true rfl (fun less => absurd less fits)

theorem loop_isSome (input : List UInt8) (size : totlen = written.length + room.length) :
    (chunkedLoop totlen input (skipping 0 written room)).isSome = true ↔ Fits room.length input := by
  induction bound : input.length using Nat.strongRecOn generalizing input written room with
  | ind _ shorter =>
      subst bound
      by_cases nonempty : input = []
      · subst nonempty
        rw [@loop_ended totlen written room _ rfl rfl, ended_isSome, Fits]
        exact ⟨fun positive => ⟨Nat.zero_le _, positive⟩, fun fits => fits.2⟩
      · by_cases line : sizeLine input = []
        · obtain ⟨code, run⟩ := @loop_wrong totlen written room input nonempty line
          have wrong : piece input = .wrong := by rw [piece, if_neg nonempty, if_pos line]
          rw [run, Fits, line, wrong]
          exact iff_of_true rfl ⟨Nat.zero_le _, trivial⟩
        · have behind : behindLine (sizeLine input) (input.dropWhile sizeDigit) = piece input := by
            rw [piece, if_neg nonempty, if_neg line]
          rw [loop_line line, Fits]
          split
          · next fits =>
              have other : ∀ byte ∈ (input.dropWhile sizeDigit).head?, sizeDigit byte = false := by
                intro byte first
                have head := List.head?_dropWhile_not sizeDigit input
                rw [Option.mem_def.mp first] at head
                exact head
              have settled := @behind_settled totlen written room (sizeLine input) _ other
              rw [behind] at settled
              rw [settled, and_iff_right fits]
              split
              · next found => rw [found, Settled]
              · next found => rw [found, Settled]
              · next count rest found =>
                  have less := skips_shorter found
                  rw [found, Settled, loop_skips,
                    shorter _ (by rw [List.length_drop]; omega) (rest.drop count) size rfl]
              · next count rest found =>
                  have less := carries_shorter found
                  rw [found, Settled, carried_isSome rest count size]
                  refine and_congr_right fun _ => ?_
                  split
                  · rfl
                  · next partly =>
                      refine forall_congr' fun enough => ?_
                      have left : totlen = (written ++ rest.take count).length +
                          (room.drop count).length := by
                        rw [size, List.length_append, List.length_take, List.length_drop]
                        omega
                      rw [shorter _ (by rw [List.length_drop]; omega) (rest.drop (count + 2)) left rfl,
                        List.length_drop]
          · next long => exact iff_of_false Bool.false_ne_true (fun fits => long fits.1)

end Loop

section Bodies

variable {totlen : Nat} {written room : List UInt8}

theorem digit_lt {byte : UInt8} (tmp : Nat) (digit : sizeDigit byte = true) :
    decFromHexa tmp byte = digitValue byte ∧ digitValue byte < 16 := by
  simp only [sizeDigit, Bool.or_eq_true, Bool.and_eq_true, decide_eq_true_eq, UInt8.le_iff_toNat_le,
    UInt8.reduceToNat] at digit
  rw [digitValue, decFromHexa, decFromHexa]
  simp only [UInt8.le_iff_toNat_le, UInt8.reduceToNat]
  rcases digit with (decimal | upper) | lower
  · rw [if_pos decimal, if_pos decimal]
    exact ⟨rfl, by omega⟩
  · have first : ¬(48 ≤ byte.toNat ∧ byte.toNat ≤ 57) := by omega
    rw [if_neg first, if_pos upper, if_neg first, if_pos upper]
    exact ⟨rfl, by omega⟩
  · have first : ¬(48 ≤ byte.toNat ∧ byte.toNat ≤ 57) := by omega
    have second : ¬(65 ≤ byte.toNat ∧ byte.toNat ≤ 70) := by omega
    rw [if_neg first, if_neg second, if_pos lower, if_neg first, if_neg second, if_pos lower]
    exact ⟨rfl, by omega⟩

theorem conv_loop {szIn : List UInt8} (digits : ∀ byte ∈ szIn, sizeDigit byte = true) {tmp rst used : Nat}
    (short : used + szIn.length ≤ 8) (bound : rst < 16 ^ used) :
    convLoop szIn tmp rst = szIn.foldl (fun value byte => value * 16 + digitValue byte) rst := by
  induction szIn generalizing tmp rst used with
  | nil => rfl
  | cons byte szIn ih =>
      obtain ⟨value, small⟩ := digit_lt tmp (digits byte List.mem_cons_self)
      rw [List.length_cons] at short
      have power : 16 ^ used ≤ 16 ^ 7 := Nat.pow_le_pow_right (by decide) (by omega)
      have next : rst * 16 + digitValue byte < 16 ^ (used + 1) := by
        rw [Nat.pow_succ]
        omega
      have first : u32 (rst * 16) = rst * 16 := u32_small (by omega)
      have second : u32 (rst * 16 + digitValue byte) = rst * 16 + digitValue byte :=
        u32_small (by omega)
      rw [convLoop, value, first, second, List.foldl_cons]
      exact ih (fun other member => digits other (List.mem_cons_of_mem _ member)) (by omega) next

theorem conv_hex {szIn : List UInt8} (digits : ∀ byte ∈ szIn, sizeDigit byte = true)
    (short : szIn.length ≤ 8) : uiConvDecFromHexa szIn = hexValue szIn := by
  rw [uiConvDecFromHexa, if_neg (Nat.not_lt.mpr short)]
  exact @conv_loop szIn digits 0 0 0 (by omega) (by decide)

/-- A size of at most eight digits. -/
theorem loop_size {digits : List UInt8} (hex : ∀ byte ∈ digits, sizeDigit byte = true)
    (nonempty : digits ≠ []) (short : digits.length ≤ 8) (small : hexValue digits < 2 ^ 31)
    (rest : List UInt8) :
    chunkedLoop totlen (digits ++ 0x0D :: 0x0A :: rest) (skipping 0 written room) =
      chunkedLoop totlen rest (carrying (hexValue digits) written room) := by
  have nondigit : ¬sizeDigit 0x0D = true := by decide
  have line : sizeLine (digits ++ 0x0D :: 0x0A :: rest) = digits := by
    rw [sizeLine, List.takeWhile_append_of_pos hex, List.takeWhile_cons_of_neg nondigit,
      List.append_nil]
  have behind : (digits ++ 0x0D :: 0x0A :: rest).dropWhile sizeDigit = 0x0D :: 0x0A :: rest := by
    rw [List.dropWhile_append_of_pos hex, List.dropWhile_cons_of_neg nondigit]
  have fits : digits.length < BUFSIZ := by
    rw [BUFSIZ]
    omega
  have start : s32 (uiConvDecFromHexa digits) = hexValue digits := by
    rw [conv_hex hex short]
    exact s32_small (Int.natCast_nonneg _) (by exact_mod_cast small)
  rw [loop_line (by rw [line]; exact nonempty), line, behind, if_pos (Nat.le_of_lt fits),
    loop_body fits, start]

theorem chunk_digits (chunk : Chunk) : chunk.digits ≠ [] := by
  intro none
  have size := chunk.size
  rw [none] at size
  exact chunk.nonempty (List.length_eq_zero_iff.mp size.symm)

theorem loop_chunk (chunk : Chunk) (rest : List UInt8)
    (size : totlen = written.length + room.length) (fits : chunk.data.length ≤ room.length) :
    chunkedLoop totlen (chunk.bytes ++ rest) (skipping 0 written room) =
      chunkedLoop totlen rest
        (skipping 0 (written ++ chunk.data) (room.drop chunk.data.length)) := by
  have bytes : chunk.bytes ++ rest =
      chunk.digits ++ 0x0D :: 0x0A :: (chunk.data ++ 0x0D :: 0x0A :: rest) := by
    rw [Chunk.bytes, List.append_assoc, List.append_assoc, List.append_assoc]
    rfl
  rw [bytes, loop_size chunk.hexDigits (chunk_digits chunk) chunk.short
    (chunk.size ▸ chunk.bounded), chunk.size,
    loop_taken _ _ (Nat.le_refl _) fits size, Nat.sub_self, Int.natCast_zero, loop_carried, loop_skips]
  rfl

theorem loop_chunk_exceeds (chunk : Chunk) (rest : List UInt8)
    (size : totlen = written.length + room.length) (exceeds : room.length < chunk.data.length) :
    ∃ out, chunkedLoop totlen (chunk.bytes ++ rest) (skipping 0 written room) =
      some (-10, 0, out) := by
  have bytes : chunk.bytes ++ rest =
      chunk.digits ++ 0x0D :: 0x0A :: (chunk.data ++ 0x0D :: 0x0A :: rest) := by
    rw [Chunk.bytes, List.append_assoc, List.append_assoc, List.append_assoc]
    rfl
  rw [bytes, loop_size chunk.hexDigits (chunk_digits chunk) chunk.short
    (chunk.size ▸ chunk.bounded), chunk.size]
  exact loop_exceeds _ _ (Nat.le_refl _) exceeds size

theorem loop_final (final : Option (Fin 8)) :
    chunkedLoop totlen (finalBytes final) (skipping 0 written room) = ended written room := by
  cases final with
  | none => exact loop_ended rfl rfl
  | some zeros =>
      have hex : ∀ byte ∈ List.replicate (zeros.val + 1) (48 : UInt8), sizeDigit byte = true := by
        intro byte member
        rw [List.eq_of_mem_replicate member]
        rfl
      have value (count : Nat) : hexValue (List.replicate count 48) = 0 := by
        rw [hexValue]
        induction count with
        | zero => rfl
        | succ count ih => exact ih
      have short : (List.replicate (zeros.val + 1) (48 : UInt8)).length ≤ 8 := by
        rw [List.length_replicate]
        exact zeros.isLt
      rw [finalBytes, loop_size hex (List.cons_ne_nil _ _) short (by rw [value]; decide), value,
        Int.natCast_zero, loop_carried, loop_skips]
      exact loop_ended rfl rfl

theorem loop_chunks (chunks : List Chunk) (final : Option (Fin 8))
    (size : totlen = written.length + room.length) :
    if (chunks.flatMap Chunk.data).length ≤ room.length then
      chunkedLoop totlen (chunks.flatMap Chunk.bytes ++ finalBytes final) (skipping 0 written room) =
        ended (written ++ chunks.flatMap Chunk.data) (room.drop (chunks.flatMap Chunk.data).length)
    else
      ∃ out, chunkedLoop totlen (chunks.flatMap Chunk.bytes ++ finalBytes final)
        (skipping 0 written room) = some (-10, 0, out) := by
  induction chunks generalizing written room with
  | nil =>
      rw [List.flatMap_nil, List.flatMap_nil, List.length_nil, if_pos (Nat.zero_le _), List.append_nil,
        List.nil_append]
      exact loop_final final
  | cons chunk chunks ih =>
      rw [List.flatMap_cons, List.flatMap_cons, List.append_assoc, List.length_append]
      by_cases fits : chunk.data.length ≤ room.length
      · have left : totlen = (written ++ chunk.data).length + (room.drop chunk.data.length).length := by
          rw [size, List.length_append, List.length_drop]
          omega
        have run := ih left
        rw [List.length_drop, List.append_assoc, List.drop_drop] at run
        rw [loop_chunk chunk _ size fits]
        by_cases all : (chunks.flatMap Chunk.data).length ≤ room.length - chunk.data.length
        · rw [if_pos all] at run
          rw [if_pos (by omega)]
          exact run
        · rw [if_neg all] at run
          rw [if_neg (by omega)]
          exact run
      · rw [if_neg (by omega)]
        exact loop_chunk_exceeds chunk _ size (Nat.lt_of_not_le fits)

theorem decodes_iff (out : List UInt8) (body : Body) :
    Decodes out body ↔ body.data.length ≠ out.length := by
  have run := @loop_chunks out.length [] out body.chunks body.final (Nat.zero_add _).symm
  rw [List.nil_append] at run
  change if body.data.length ≤ out.length then
      dGetChunked out body.bytes = ended body.data (out.drop body.data.length)
    else ∃ out', dGetChunked out body.bytes = some (-10, 0, out') at run
  rw [Decodes]
  split
  · next fits =>
      rw [if_pos fits] at run
      rw [run]
      cases behind : out.drop body.data.length with
      | nil =>
          have full : out.length - body.data.length = 0 := by
            rw [← List.length_drop, behind, List.length_nil]
          refine iff_of_false ?_ (fun other => by omega)
          rintro ⟨out', wrong, -⟩
          cases wrong
      | cons old left =>
          have more : out.length - body.data.length = left.length + 1 := by
            rw [← List.length_drop, behind, List.length_cons]
          refine iff_of_true ⟨body.data ++ 0 :: left, rfl, List.take_left⟩ (by omega)
  · next exceeds =>
      rw [if_neg exceeds] at run
      exact iff_of_true run (fun same => exceeds (Nat.le_of_eq same))

/-- Every well-formed body is decoded or refused as it should be, unless it fills the buffer
exactly, and an input is read without a store outside of the arrays just when it fits. -/
theorem chunked_decoding (out : List UInt8) :
    (∀ body : Body, Decodes out body ↔ body.data.length ≠ out.length) ∧
      ∀ input, (dGetChunked out input).isSome = true ↔ Fits out.length input :=
  ⟨decodes_iff out, fun input => @loop_isSome out.length [] out input (Nat.zero_add _).symm⟩

/-- One chunk of one byte. -/
def oneByte : Body where
  chunks := [⟨[49], [65], List.forall_mem_singleton.mpr (by decide), by decide, by decide, by decide,
    by decide⟩]
  final := none

theorem one_byte_overruns : oneByte.bytes = [49, 13, 10, 65, 13, 10] ∧
    dGetChunked [0] oneByte.bytes = none ∧ ¬Decodes [0] oneByte := by
  refine ⟨by decide, by decide +kernel, ?_⟩
  rw [decodes_iff]
  decide

example : dGetChunked [9, 9, 9] [48, 50, 13, 10, 65, 66, 13, 10, 48, 13, 10, 13, 10] =
    some (0, 2, [65, 66, 0]) := by decide

end Bodies

end Upst.Chunked
