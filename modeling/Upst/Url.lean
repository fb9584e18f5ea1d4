import Mathlib.Data.UInt
import Mathlib.Tactic.IntervalCases

/-!
The encoding and the decoding of URL text. A string handed over is the list of its bytes
before the NUL, and reading behind the last of them reads the NUL; a destination is a
buffer of bytes, and a write behind its end has no result.
-/

namespace Upst.Url

set_option autoImplicit false

section Source

abbrev Buffer := List UInt8

def store (dest : Buffer) (place : Nat) (byte : UInt8) : Option Buffer :=
  if place < dest.length then some (dest.set place byte) else none

def storeAll (dest : Buffer) (place : Nat) : List UInt8 → Option Buffer
  | [] => some dest
  | byte :: rest => do
      let dest ← store dest place byte
      storeAll dest (place + 1) rest

/-- The string that starts at a place of a buffer. -/
def stringAt (buffer : Buffer) (place : Nat) : List UInt8 :=
  (buffer.drop place).takeWhile (· ≠ 0)

/-- At most `n` bytes of `text` behind the string at `place`, and a NUL. -/
def strncat (dest : Buffer) (place : Nat) (text : List UInt8) (n : Nat) : Option Buffer :=
  storeAll dest (place + (stringAt dest place).length) (text.take n ++ [0])

/-- A digit of `%X`. -/
def hexDigit (value : Nat) : UInt8 :=
  if value < 10 then UInt8.ofNat (48 + value) else UInt8.ofNat (55 + value)

/-- `sprintf(hex, "%%%02X", *source)`. -/
def hex (byte : UInt8) : List UInt8 :=
  [37, hexDigit (byte.toNat / 16), hexDigit (byte.toNat % 16)]

/-- The bytes that `urlencode` copies. -/
def copied (byte : UInt8) : Bool :=
  (byte > 47 && byte < 57) || (byte > 64 && byte < 92) || (byte > 96 && byte < 123) ||
    byte == 45 || byte == 46 || byte == 95

def urlencodeLoop : List UInt8 → Nat → Int → Buffer → Option (Int × Buffer)
  | [], _, size, dest => some (size, dest)
  | byte :: source, sbuf, size, dest => do
      if copied byte then
        let dest ← store dest sbuf byte
        urlencodeLoop source (sbuf + 1) (size + 1) dest
      else
        let dest ← strncat dest sbuf (hex byte) 3
        urlencodeLoop source (sbuf + 2 + 1) (size + 2 + 1) dest

def urlencode (source : List UInt8) (dest : Buffer) : Option (Int × Buffer) :=
  urlencodeLoop source 0 0 dest

/-- The value of a digit, in the arithmetic of `int`. -/
def digitValue (byte : UInt8) : Int :=
  if byte < 58 then (byte.toNat : Int) - 48
  else if byte > 64 ∧ byte < 91 then ((byte.toNat : Int) - 65) + 10
  else ((byte.toNat : Int) - 97) + 10

/-- What follows a percent sign, `25` skipped. -/
def skipped : List UInt8 → List UInt8
  | first :: second :: rest => if first = 50 ∧ second = 53 then rest else first :: second :: rest
  | source => source

/-- One turn of `while(*source)`: the byte for `dest[index]` and the source that is left, or
nothing when the string ends among the two digits of an escape. -/
def decodeTurn (byte : UInt8) (source : List UInt8) : Option (UInt8 × List UInt8) :=
  if byte = 37 then
    match skipped source with
    | first :: second :: rest => some (UInt8.ofInt (digitValue first * 16 + digitValue second), rest)
    | _ => none
  else some (byte, source)

theorem decodeTurn_shorter {byte value : UInt8} {source rest : List UInt8}
    (turn : decodeTurn byte source = some (value, rest)) : rest.length < source.length + 1 := by
  have shorter : (skipped source).length ≤ source.length := by
    rcases source with _ | ⟨first, _ | ⟨second, rest⟩⟩
    · exact Nat.le_refl _
    · exact Nat.le_refl _
    · rw [skipped]
      split
      · exact (Nat.le_succ _).trans (Nat.le_succ _)
      · exact Nat.le_refl _
  rw [decodeTurn] at turn
  split at turn
  · rcases tail : skipped source with _ | ⟨first, _ | ⟨second, others⟩⟩
    · rw [tail] at turn
      cases turn
    · rw [tail] at turn
      cases turn
    · rw [tail] at turn shorter
      cases turn
      simp only [List.length_cons] at shorter
      omega
  · cases turn
    exact Nat.lt_succ_self _

def urldecodeLoop : List UInt8 → Nat → Buffer → Option (Int × Buffer)
  | [], index, dest => do
      let dest ← store dest index 0
      some (index, dest)
  | byte :: source, index, dest =>
      match turn : decodeTurn byte source with
      | none => do
          let dest ← store dest index 0
          some (index, dest)
      | some (value, rest) => do
          let dest ← store dest index value
          urldecodeLoop rest (index + 1) dest
termination_by source => source.length
decreasing_by exact decodeTurn_shorter turn

/-- Neither pointer is NULL. -/
def urldecode (source : List UInt8) (dest : Buffer) : Option (Int × Buffer) :=
  urldecodeLoop source 0 dest

end Source

section Buffers

/-- A buffer that starts with `done` and is zero behind it. -/
def filled (written : List UInt8) (room : Nat) : Buffer :=
  written ++ List.replicate room 0

theorem store_filled (written : List UInt8) (room : Nat) (byte : UInt8) :
    store (filled written (room + 1)) written.length byte =
      some (filled (written ++ [byte]) room) := by
  have fits : written.length < (filled written (room + 1)).length := by
    rw [filled, List.length_append, List.length_replicate]
    omega
  rw [store, if_pos fits, filled, filled, List.set_append_right _ _ (Nat.le_refl _), Nat.sub_self,
    List.replicate_succ, List.set_cons_zero, List.append_assoc]
  rfl

theorem storeAll_filled (written bytes : List UInt8) (room : Nat) :
    storeAll (filled written (bytes.length + room)) written.length bytes =
      some (filled (written ++ bytes) room) := by
  induction bytes generalizing written with
  | nil => simp [storeAll]
  | cons byte rest ih =>
      have next := ih (written ++ [byte])
      rw [List.length_append, List.length_singleton, List.append_assoc] at next
      rw [List.length_cons, Nat.add_right_comm, storeAll, store_filled]
      exact next

theorem filled_nul (written : List UInt8) (room : Nat) :
    filled (written ++ [0]) room = filled written (room + 1) := by
  rw [filled, filled, List.append_assoc, List.replicate_succ]
  rfl

theorem stringAt_end (written : List UInt8) (room : Nat) :
    stringAt (filled written room) written.length = [] := by
  rw [stringAt, filled, List.drop_left]
  cases room with
  | zero => rfl
  | succ room => simp [List.replicate_succ]

theorem stringAt_start (written : List UInt8) (room : Nat) :
    stringAt (filled written room) 0 = written.takeWhile (· ≠ 0) := by
  rw [stringAt, filled, List.drop_zero]
  induction written with
  | nil =>
      cases room with
      | zero => rfl
      | succ room => simp [List.replicate_succ]
  | cons byte rest ih => simp only [List.cons_append, List.takeWhile_cons, ih]

theorem strncat_filled (written : List UInt8) {text : List UInt8} (room : Nat)
    (three : text.length = 3) :
    strncat (filled written (3 + 1 + room)) written.length text 3 =
      some (filled (written ++ text) (1 + room)) := by
  have sizes : (text ++ [0]).length + room = 3 + 1 + room := by
    rw [List.length_append, three, List.length_singleton]
  rw [strncat, stringAt_end, List.length_nil, Nat.add_zero written.length,
    List.take_of_length_le three.le,
    ← sizes, storeAll_filled, ← List.append_assoc, filled_nul, Nat.add_comm]

end Buffers

section Texts

def encodedByte (byte : UInt8) : List UInt8 :=
  if copied byte then [byte] else hex byte

/-- What `urlencode` writes. -/
def encoded (source : List UInt8) : List UInt8 :=
  source.flatMap encodedByte

/-- What `urldecode` writes before the NUL. -/
def decoded : List UInt8 → List UInt8
  | [] => []
  | byte :: source =>
      match _turn : decodeTurn byte source with
      | none => []
      | some (value, rest) => value :: decoded rest
termination_by source => source.length
decreasing_by exact decodeTurn_shorter _turn

theorem decoded_stop {byte : UInt8} {source : List UInt8} (stopped : decodeTurn byte source = none) :
    decoded (byte :: source) = [] := by
  rw [decoded]
  split
  · rfl
  · next turn =>
      rw [stopped] at turn
      cases turn

theorem decoded_step {byte value : UInt8} {source rest : List UInt8}
    (turned : decodeTurn byte source = some (value, rest)) :
    decoded (byte :: source) = value :: decoded rest := by
  rw [decoded]
  split
  · next turn =>
      rw [turned] at turn
      cases turn
  · next turn =>
      rw [turned] at turn
      cases turn
      rfl

theorem loop_stop {byte : UInt8} {source : List UInt8} (stopped : decodeTurn byte source = none)
    (index : Nat) (dest : Buffer) :
    urldecodeLoop (byte :: source) index dest = urldecodeLoop [] index dest := by
  rw [urldecodeLoop, urldecodeLoop]
  split
  · rfl
  · next turn =>
      rw [stopped] at turn
      cases turn

theorem loop_step {byte value : UInt8} {source rest : List UInt8}
    (turned : decodeTurn byte source = some (value, rest)) (index : Nat) (dest : Buffer) :
    urldecodeLoop (byte :: source) index dest =
      (store dest index value).bind fun dest => urldecodeLoop rest (index + 1) dest := by
  rw [urldecodeLoop]
  split
  · next turn =>
      rw [turned] at turn
      cases turn
  · next turn =>
      rw [turned] at turn
      cases turn
      rfl

theorem urlencode_loop_spec (source written : List UInt8) (size : Int) {room : Nat}
    (enough : 3 * source.length < room) :
    ∃ ret left, urlencodeLoop source written.length size (filled written room) =
      some (ret, filled (written ++ encoded source) left) := by
  induction source generalizing written size room with
  | nil =>
      refine ⟨size, room, ?_⟩
      rw [urlencodeLoop, encoded, List.flatMap_nil, List.append_nil]
  | cons byte source ih =>
      rw [List.length_cons] at enough
      rw [urlencodeLoop, encoded, List.flatMap_cons, ← List.append_assoc, ← encoded, encodedByte]
      by_cases plain : copied byte = true
      · obtain ⟨less, rfl⟩ : ∃ less, room = less + 1 := ⟨room - 1, by omega⟩
        obtain ⟨ret, left, looped⟩ := @ih (written ++ [byte]) (size + 1) less (by omega)
        refine ⟨ret, left, ?_⟩
        rw [if_pos plain, if_pos plain, store_filled]
        rw [List.length_append, List.length_singleton] at looped
        exact looped
      · obtain ⟨less, rfl⟩ : ∃ less, room = 3 + 1 + less := ⟨room - 4, by omega⟩
        obtain ⟨ret, left, looped⟩ := @ih (written ++ hex byte) (size + 2 + 1) (1 + less) (by omega)
        refine ⟨ret, left, ?_⟩
        rw [if_neg plain, if_neg plain, strncat_filled written less rfl]
        rw [List.length_append] at looped
        exact looped

theorem urldecode_loop_spec (source written : List UInt8) {room : Nat}
    (enough : (decoded source).length < room) :
    ∃ ret left, urldecodeLoop source written.length (filled written room) =
      some (ret, filled (written ++ decoded source) left) := by
  induction source using decoded.induct generalizing written room with
  | case1 =>
      obtain ⟨less, rfl⟩ : ∃ less, room = less + 1 := ⟨room - 1, by omega⟩
      refine ⟨written.length, less + 1, ?_⟩
      rw [urldecodeLoop, store_filled, filled_nul, decoded, List.append_nil]
      rfl
  | case2 byte source stopped =>
      obtain ⟨less, rfl⟩ : ∃ less, room = less + 1 := ⟨room - 1, by omega⟩
      refine ⟨written.length, less + 1, ?_⟩
      rw [loop_stop stopped, urldecodeLoop, store_filled, filled_nul, decoded_stop stopped,
        List.append_nil]
      rfl
  | case3 byte source value rest turned ih =>
      rw [decoded_step turned, List.length_cons] at enough
      obtain ⟨less, rfl⟩ : ∃ less, room = less + 1 := ⟨room - 1, by omega⟩
      obtain ⟨ret, left, looped⟩ := @ih (written ++ [value]) less (by omega)
      rw [List.length_append, List.length_singleton, List.append_assoc] at looped
      refine ⟨ret, left, ?_⟩
      rw [loop_step turned, store_filled, decoded_step turned]
      exact looped

end Texts

section Escapes

theorem of_every_byte {p : UInt8 → Prop} (all : ∀ value : Fin 256, p (UInt8.ofNat value.val))
    (byte : UInt8) : p byte := by
  have here := all ⟨byte.toNat, byte.toNat_lt⟩
  rw [UInt8.ofNat_toNat] at here
  exact here

/-- An escape gives its byte back, and only that of the percent sign starts with `25`. -/
theorem escape_digits (byte : UInt8) :
    UInt8.ofInt (digitValue (hexDigit (byte.toNat / 16)) * 16 +
        digitValue (hexDigit (byte.toNat % 16))) = byte ∧
      hexDigit (byte.toNat / 16) ≠ 37 ∧ hexDigit (byte.toNat % 16) ≠ 37 ∧
      (hexDigit (byte.toNat / 16) = 50 ∧ hexDigit (byte.toNat % 16) = 53 → byte = 37) := by
  revert byte
  apply of_every_byte
  decide +kernel

/-- No digit follows a percent sign to give another percent sign. -/
theorem percent_before_digit (byte : UInt8) :
    UInt8.ofInt (digitValue 37 * 16 + digitValue (hexDigit (byte.toNat / 16))) ≠ 37 := by
  revert byte
  apply of_every_byte
  decide +kernel

/-- A digit before a percent sign gives one, and the escape behind it is its own text, for
`39` only. -/
theorem digit_before_percent (byte : UInt8) (copy : copied byte = false) :
    UInt8.ofInt (digitValue (hexDigit (byte.toNat / 16)) * 16 + digitValue 37) = 37 ∧
      hexDigit (byte.toNat % 16) = byte ↔ byte = 57 := by
  revert byte
  apply of_every_byte
  decide +kernel

end Escapes

section RoundTrip

theorem decoded_plain {byte : UInt8} (copy : byte ≠ 37) (source : List UInt8) :
    decoded (byte :: source) = byte :: decoded source := by
  refine decoded_step ?_
  rw [decodeTurn, if_neg copy]

theorem decoded_escape {first second : UInt8} (other : ¬(first = 50 ∧ second = 53))
    (source : List UInt8) :
    decoded (37 :: first :: second :: source) =
      UInt8.ofInt (digitValue first * 16 + digitValue second) :: decoded source := by
  refine decoded_step ?_
  rw [decodeTurn, if_pos rfl, skipped, if_neg other]

theorem decoded_skip (first second : UInt8) (source : List UInt8) :
    decoded (37 :: 50 :: 53 :: first :: second :: source) =
      UInt8.ofInt (digitValue first * 16 + digitValue second) :: decoded source := by
  refine decoded_step ?_
  rw [decodeTurn, if_pos rfl, skipped, if_pos ⟨rfl, rfl⟩]

theorem decoded_cut {source : List UInt8} (short : source.length < 2) :
    decoded (37 :: 50 :: 53 :: source) = [] := by
  refine decoded_stop ?_
  rw [decodeTurn, if_pos rfl, skipped, if_pos ⟨rfl, rfl⟩]
  rcases source with _ | ⟨first, _ | ⟨second, rest⟩⟩
  · rfl
  · rfl
  · simp only [List.length_cons] at short
    omega

theorem encoded_copied {byte : UInt8} (copy : copied byte = true) (source : List UInt8) :
    encoded (byte :: source) = byte :: encoded source := by
  rw [encoded, List.flatMap_cons, encodedByte, if_pos copy]
  rfl

theorem encoded_escaped {byte : UInt8} (copy : copied byte = false) (source : List UInt8) :
    encoded (byte :: source) =
      37 :: hexDigit (byte.toNat / 16) :: hexDigit (byte.toNat % 16) :: encoded source := by
  rw [encoded, List.flatMap_cons, encodedByte, copy]
  rfl

theorem encoded_percent (source : List UInt8) :
    encoded (37 :: source) = 37 :: 50 :: 53 :: encoded source :=
  encoded_escaped rfl source

/-- Every percent sign is the start of `%39`. -/
def PercentThirtyNine : List UInt8 → Prop
  | [] => True
  | byte :: rest => (byte = 37 → ∃ tail, rest = 51 :: 57 :: tail) ∧ PercentThirtyNine rest

theorem decoded_other {byte : UInt8} (other : byte ≠ 37) (source : List UInt8) :
    decoded (encoded (byte :: source)) = byte :: decoded (encoded source) := by
  cases copy : copied byte with
  | true => rw [encoded_copied copy, decoded_plain other]
  | false =>
      obtain ⟨same, -, -, percent⟩ := escape_digits byte
      rw [encoded_escaped copy, decoded_escape (fun digits => other (percent digits)), same]

theorem thirty_nine_cons {byte : UInt8} (other : byte ≠ 37) (rest : List UInt8) :
    PercentThirtyNine (byte :: rest) ↔ PercentThirtyNine rest :=
  and_iff_right fun percent => absurd percent other

theorem thirty_nine_percent (first second : UInt8) (rest : List UInt8) :
    PercentThirtyNine (37 :: first :: second :: rest) ↔
      (first = 51 ∧ second = 57) ∧ PercentThirtyNine rest := by
  constructor
  · rintro ⟨start, others⟩
    obtain ⟨tail, same⟩ := start rfl
    obtain ⟨rfl, rfl, -⟩ : first = 51 ∧ second = 57 ∧ rest = tail := by
      simpa only [List.cons.injEq] using same
    rw [thirty_nine_cons (by decide), thirty_nine_cons (by decide)] at others
    exact ⟨⟨rfl, rfl⟩, others⟩
  · rintro ⟨⟨rfl, rfl⟩, others⟩
    refine ⟨fun _ => ⟨rest, rfl⟩, ?_⟩
    rw [thirty_nine_cons (by decide), thirty_nine_cons (by decide)]
    exact others

/-- The text does not grow, and is the same only where its percent signs start `%39`. -/
def Kept (source : List UInt8) : Prop :=
  (decoded (encoded source)).length ≤ source.length ∧
    (decoded (encoded source) = source ↔ PercentThirtyNine source)

theorem kept_other {byte : UInt8} (other : byte ≠ 37) {rest : List UInt8} (kept : Kept rest) :
    Kept (byte :: rest) := by
  refine ⟨?_, ?_⟩
  · rw [decoded_other other, List.length_cons, List.length_cons]
    exact Nat.succ_le_succ kept.1
  · rw [decoded_other other, thirty_nine_cons other, ← kept.2, List.cons.injEq, and_iff_right rfl]

theorem kept_short {source : List UInt8} (short : source.length < 2)
    (rest : (encoded source).length < 2) : Kept (37 :: source) := by
  rw [Kept, encoded_percent, decoded_cut rest]
  refine ⟨Nat.zero_le _, ?_⟩
  constructor
  · intro same
    cases same
  · rintro ⟨start, -⟩
    obtain ⟨tail, rfl⟩ := start rfl
    simp only [List.length_cons] at short
    omega

theorem kept_two {first second : UInt8} (one : copied first = true) (two : copied second = true)
    {rest : List UInt8} (kept : Kept rest) : Kept (37 :: first :: second :: rest) := by
  rw [Kept, encoded_percent, encoded_copied one, encoded_copied two, decoded_skip]
  refine ⟨?_, ?_⟩
  · have shorter := kept.1
    simp only [List.length_cons]
    omega
  · rw [thirty_nine_percent]
    constructor
    · intro same
      have shorter := kept.1
      have lengths := congrArg List.length same
      simp only [List.length_cons] at lengths
      omega
    · rintro ⟨⟨-, rfl⟩, -⟩
      cases two

theorem kept_digit {first second : UInt8} (one : copied first = true)
    (two : copied second = false) {rest : List UInt8} (kept : Kept rest) :
    Kept (37 :: first :: second :: rest) := by
  obtain ⟨-, high, low, -⟩ := escape_digits second
  rw [Kept, encoded_percent, encoded_copied one, encoded_escaped two, decoded_skip,
    decoded_plain high, decoded_plain low]
  refine ⟨?_, ?_⟩
  · have shorter := kept.1
    simp only [List.length_cons]
    omega
  · have digits := digit_before_percent second two
    rw [thirty_nine_percent, ← kept.2]
    simp only [List.cons.injEq]
    constructor
    · rintro ⟨percent, rfl, same, others⟩
      obtain rfl := digits.mp ⟨percent, same⟩
      exact ⟨⟨rfl, rfl⟩, others⟩
    · rintro ⟨⟨rfl, rfl⟩, others⟩
      exact ⟨(digits.mpr rfl).1, rfl, rfl, others⟩

theorem kept_percent {first : UInt8} (one : copied first = false) {rest : List UInt8}
    (kept : Kept rest) : Kept (37 :: first :: rest) := by
  obtain ⟨-, -, low, -⟩ := escape_digits first
  rw [Kept, encoded_percent, encoded_escaped one, decoded_skip, decoded_plain low]
  refine ⟨?_, ?_⟩
  · simp only [List.length_cons]
    exact Nat.succ_le_succ (Nat.succ_le_succ kept.1)
  · constructor
    · intro same
      exact absurd (List.cons.inj same).1 (percent_before_digit first)
    · rintro ⟨start, -⟩
      obtain ⟨tail, same⟩ := start rfl
      rw [(List.cons.inj same).1] at one
      cases one

theorem decoded_encoded (source : List UInt8) : Kept source := by
  induction size : source.length using Nat.strong_induction_on generalizing source with
  | _ length ih =>
      subst size
      have shorter (rest : List UInt8) (less : rest.length < source.length) : Kept rest :=
        ih rest.length less rest rfl
      cases source with
      | nil =>
          rw [Kept, encoded, List.flatMap_nil, decoded]
          exact ⟨Nat.le_refl _, fun _ => trivial, fun _ => rfl⟩
      | cons byte rest =>
          by_cases percent : byte = 37
          · subst percent
            rcases rest with _ | ⟨first, rest⟩
            · exact kept_short (by decide) (by decide)
            · cases one : copied first with
              | false => exact kept_percent one (shorter rest (by simp only [List.length_cons]; omega))
              | true =>
                  rcases rest with _ | ⟨second, rest⟩
                  · refine kept_short (by simp) ?_
                    rw [encoded_copied one]
                    exact Nat.lt_succ_self 1
                  · have kept := shorter rest (by simp only [List.length_cons]; omega)
                    cases two : copied second with
                    | true => exact kept_two one two kept
                    | false => exact kept_digit one two kept
          · exact kept_other percent (shorter rest (Nat.lt_succ_self _))

theorem encoded_ne_zero (source : List UInt8) : ∀ byte ∈ encoded source, byte ≠ 0 := by
  have every (byte : UInt8) : (encodedByte byte).all (fun written => written != 0) = true := by
    revert byte
    apply of_every_byte
    decide +kernel
  intro byte member
  obtain ⟨original, -, written⟩ := List.mem_flatMap.mp member
  exact bne_iff_ne.mp (List.all_eq_true.mp (every original) byte written)

theorem takeWhile_nonzero {text : List UInt8} (nonzero : ∀ byte ∈ text, byte ≠ 0) :
    text.takeWhile (· ≠ 0) = text := by
  induction text with
  | nil => rfl
  | cons byte rest ih =>
      have here : decide (byte ≠ 0) = true := decide_eq_true (nonzero byte List.mem_cons_self)
      rw [List.takeWhile_cons, if_pos here,
        ih fun other member => nonzero other (List.mem_cons_of_mem _ member)]

end RoundTrip

/-- Encoding into one zeroed buffer of `room` bytes and decoding from there into another one of
`room'` bytes returns and gives the text back. -/
def RoundTrips (source : List UInt8) (room room' : Nat) : Prop :=
  ∃ size dest length text,
    urlencode source (List.replicate room 0) = some (size, dest) ∧
    urldecode (stringAt dest 0) (List.replicate room' 0) = some (length, text) ∧
    stringAt text 0 = source

theorem round_trips_decoded {source : List UInt8} {room room' : Nat}
    (string : ∀ byte ∈ source, byte ≠ 0) (enough : 3 * source.length < room)
    (enough' : source.length < room') :
    RoundTrips source room room' ↔ decoded (encoded source) = source := by
  have shorter := (decoded_encoded source).1
  obtain ⟨size, left, wrote⟩ := urlencode_loop_spec source [] 0 enough
  obtain ⟨length, left', read⟩ :=
    urldecode_loop_spec (encoded source) [] (Nat.lt_of_le_of_lt shorter enough')
  have middle : stringAt (filled ([] ++ encoded source) left) 0 = encoded source := by
    rw [stringAt_start, List.nil_append, takeWhile_nonzero (encoded_ne_zero source)]
  constructor
  · rintro ⟨_, dest, _, text, wrote', read', back⟩
    rw [urlencode] at wrote'
    obtain ⟨-, rfl⟩ := Prod.mk.inj (Option.some.inj (wrote.symm.trans wrote'))
    rw [urldecode, middle] at read'
    obtain ⟨-, rfl⟩ := Prod.mk.inj (Option.some.inj (read.symm.trans read'))
    rw [stringAt_start, List.nil_append] at back
    -- a NUL among the bytes decoded would leave the string shorter than the text
    have kept := @List.takeWhile_prefix _ (decoded (encoded source)) (· ≠ 0)
    rw [back] at kept
    exact (kept.eq_of_length_le shorter).symm
  · intro back
    refine ⟨size, filled ([] ++ encoded source) left, length,
      filled ([] ++ decoded (encoded source)) left', wrote, ?_, ?_⟩
    · rw [urldecode, middle]
      exact read
    · rw [stringAt_start, List.nil_append, back, takeWhile_nonzero string]

/-- Into zeroed buffers that are large enough the text comes back exactly where each percent
sign in it is the start of `%39`. -/
theorem round_trip_iff (source : List UInt8) (room room' : Nat)
    (string : ∀ byte ∈ source, byte ≠ 0) (enough : 3 * source.length < room)
    (enough' : source.length < room') :
    RoundTrips source room room' ↔ PercentThirtyNine source :=
  (round_trips_decoded string enough enough').trans (decoded_encoded source).2

/-- `a b%39`. -/
theorem round_trip_thirty_nine : RoundTrips [97, 32, 98, 37, 51, 57] 32 32 := by
  rw [round_trip_iff [97, 32, 98, 37, 51, 57] 32 32 (by simp) (by decide) (by decide),
    thirty_nine_cons (by decide), thirty_nine_cons (by decide), thirty_nine_cons (by decide),
    thirty_nine_percent]
  exact ⟨⟨rfl, rfl⟩, trivial⟩

/-- `100%`: the escape of the percent sign is skipped, and the string ends there. -/
theorem percent_sign_lost : ¬RoundTrips [49, 48, 48, 37] 32 32 := by
  rw [round_trips_decoded (by simp) (by decide) (by decide), decoded_other (by decide),
    decoded_other (by decide), decoded_other (by decide), encoded_percent, decoded_cut (by decide)]
  decide

end Upst.Url
