import Upst.Borders
import Upst.Guarded
import Upst.Matching

/-!
The search for the parts of a multipart body. The helpers that read the header of a part are any
functions of what they are given. The output buffer has as many bytes as `*outlen` says; a store
outside of it, or a read behind the key, has no result. Log output takes no part.
-/

namespace Upst.Multipart

open Guarded Matching

set_option autoImplicit false

section Source

inductive EndState where
  | END_STATE_EMPTY | END_STATE_0D | END_STATE_0D0A | END_STATE_0D0A0D | END_STATE_0D0A0D0A
  deriving DecidableEq, Repr

/-- The state after a byte. No turn starts in the last state. -/
def endTurn (byte : UInt8) : EndState → EndState
  | .END_STATE_EMPTY => if byte = 0x0D then .END_STATE_0D else .END_STATE_EMPTY
  | .END_STATE_0D =>
      if byte = 0x0A then .END_STATE_0D0A
      else if byte = 0x0D then .END_STATE_0D
      else .END_STATE_EMPTY
  | .END_STATE_0D0A => if byte = 0x0D then .END_STATE_0D0A0D else .END_STATE_EMPTY
  | .END_STATE_0D0A0D =>
      if byte = 0x0A then .END_STATE_0D0A0D0A
      else if byte = 0x0D then .END_STATE_0D
      else .END_STATE_EMPTY
  | .END_STATE_0D0A0D0A => .END_STATE_0D0A0D0A

def endLoop : List UInt8 → Nat → EndState → Nat
  | [], _, _ => 0
  | byte :: rest, i, state =>
      let state := endTurn byte state
      if state = .END_STATE_0D0A0D0A then i + 1 else endLoop rest (i + 1) state

def dGetEnd (input : List UInt8) : Nat := endLoop input 0 .END_STATE_EMPTY

/-- What `dGetEnd` copies to `out`. -/
def endCopied (input : List UInt8) : List UInt8 :=
  if dGetEnd input = 0 then input else input.take (dGetEnd input)

/-- What is handed to the helpers, but for the output buffer. -/
structure Vars where
  szHostName : List UInt8
  hostlen : Int
  szCType : List UInt8
  ctypelen : Int
  clen : Int
  dChunked : Int
  zip : Int
  pcnt : Int
  ctype : Int
  szTemp : List UInt8
  deriving Repr

structure Helpers where
  httphdrinfo : List UInt8 → Nat → Vars → Int × Vars
  httpctype : Vars → Int × Vars

structure Scan where
  state : Nat
  offset : Nat
  out : List UInt8
  vars : Vars
  deriving Repr

/-- `skip` is what a turn adds to `i` itself. -/
inductive Turn where
  | goesOn (skip : Nat) (scan : Scan)
  | returns (code outlen : Int) (scan : Scan)
  | outside

def tolower (byte : UInt8) : UInt8 := if 65 ≤ byte ∧ byte ≤ 90 then byte + 32 else byte

def copyTurn (key : List UInt8) (byte : UInt8) (scan : Scan) : Turn :=
  if scan.out.length ≤ scan.offset then .returns (-2) 0 scan
  else
    match key[scan.state]?, store scan.out scan.offset byte with
    | some letter, some out =>
        .goesOn 0 { scan with
          state := if letter = tolower byte then scan.state + 1 else 0
          out := out
          offset := scan.offset + 1 }
    | _, _ => .outside

/-- The part-parsing branch. -/
def partTurn (helpers : Helpers) (key : List UInt8) (i : Nat) (byte : UInt8) (scan : Scan) : Turn :=
  let vars := { scan.vars with szCType := scan.vars.szCType.set 0 0, ctypelen := 0, zip := 0, ctype := 0 }
  let header_len := dGetEnd (scan.out.take scan.offset)
  let (failed, vars) := helpers.httphdrinfo scan.out header_len vars
  if failed ≠ 0 then .goesOn 0 { scan with offset := 0, state := 0, vars := vars }
  else
    let (refused, vars) := helpers.httpctype vars
    if refused = 0 then
      if vars.ctype ≠ 0 then
        let body := (scan.out.take scan.offset).drop header_len
        let out := endCopied body ++ scan.out.drop (endCopied body).length
        if dGetEnd body < 4 then .outside
        else
          match store out (dGetEnd body - 4) 0 with
          | some out => .returns i (dGetEnd body - 4) { scan with out := out, vars := vars }
          | none => .outside
      else .goesOn 2 { scan with offset := 0, state := 0, vars := vars }
    else copyTurn key byte { scan with vars := vars }

/-- `entered` are the turns that come to the part-parsing branch; the result is the code, `*outlen`,
`*zip` and `out`. -/
structure Outcome where
  entered : List Nat
  result : Option (Int × Int × Int × List UInt8)

def scanLoop (helpers : Helpers) (key : List UInt8) (input : List UInt8) (i : Nat) (scan : Scan) :
    Outcome :=
  match input with
  | [] => ⟨[], some (0, 0, scan.vars.zip, scan.out)⟩
  | byte :: rest =>
      let keylen := key.length - 2
      let entered := if keylen ≤ scan.state then [i] else []
      match if keylen ≤ scan.state then partTurn helpers key i byte scan
        else copyTurn key byte scan with
      | .goesOn skip scan =>
          let outcome := scanLoop helpers key (rest.drop skip) (i + 1 + skip) scan
          { outcome with entered := entered ++ outcome.entered }
      | .returns code outlen scan => ⟨entered, some (code, outlen, scan.vars.zip, scan.out)⟩
      | .outside => ⟨entered, none⟩
termination_by input.length
decreasing_by
  rw [List.length_drop, List.length_cons]
  omega

/-- `vars` is what the variables without a first value hold. -/
def dGetMultiPart (helpers : Helpers) (out : List UInt8) (zip : Int) (indata key : List UInt8)
    (vars : Vars) : Outcome :=
  if key.length < 2 then ⟨[], some (-1, 0, zip, out)⟩
  else
    scanLoop helpers key (indata.drop key.length) 0
      { state := 0
        offset := 0
        out := out
        vars := { vars with hostlen := 0, ctypelen := 0, clen := 0, dChunked := 0, zip := zip, pcnt := 0 } }

end Source

section Claim

/-- `key[0..keylen-2)`. -/
def delimiter (key : List UInt8) : List UInt8 := key.take (key.length - 2)

/-- What is searched: the input behind as many bytes as the key has, in lower case. -/
def searched (indata key : List UInt8) : List UInt8 := (indata.drop key.length).map tolower

/-- The first delimiter; a key of less than two bytes has none. -/
def DelimitedAt (key text : List UInt8) (place : Nat) : Prop :=
  2 ≤ key.length ∧ FirstAt (delimiter key) text place

/-- The part-parsing branch is first entered right after the first delimiter, and never if there is
none. -/
def EntersBehind (key text : List UInt8) (entered : List Nat) : Prop :=
  (∀ place, DelimitedAt key text place → entered.head? = some (place + (delimiter key).length)) ∧
    ((∀ place, ¬DelimitedAt key text place) → entered = [])

end Claim

section Search

variable {helpers : Helpers} {key : List UInt8}

theorem delimiter_length (key : List UInt8) : (delimiter key).length = key.length - 2 :=
  List.length_take_of_le (Nat.sub_le _ _)

theorem copy_turn_full (byte : UInt8) {scan : Scan} (full : scan.out.length ≤ scan.offset) :
    copyTurn key byte scan = .returns (-2) 0 scan := by
  rw [copyTurn, if_pos full]

/-- A byte in front of the delimiter. -/
theorem copy_turn (byte : UInt8) {scan : Scan} (inside : scan.offset < scan.out.length)
    (short : scan.state < (delimiter key).length) :
    copyTurn key byte scan = .goesOn 0 { scan with
      state := advance (delimiter key) scan.state (tolower byte)
      out := scan.out.set scan.offset byte
      offset := scan.offset + 1 } := by
  rw [delimiter_length] at short
  have here : (delimiter key)[scan.state]? = key[scan.state]? := List.getElem?_take_of_lt short
  have letter : key[scan.state]? = some (key.get ⟨scan.state, by omega⟩) :=
    List.getElem?_eq_getElem (by omega)
  rw [copyTurn, if_neg (Nat.not_le.mpr inside), advance, here, letter, store, if_pos inside]
  simp only [Option.some.injEq]

/-- The first turn that comes to the branch is where the search ends, if the loop comes so far. -/
theorem entered_scan (input : List UInt8) (i : Nat) {scan : Scan}
    (short : scan.state ≤ (delimiter key).length) (inside : scan.offset ≤ scan.out.length) :
    (scanLoop helpers key input i scan).entered.head? =
      (Matching.scan (delimiter key) scan.state (input.map tolower)).bind fun count =>
        if count < input.length ∧ scan.offset + count ≤ scan.out.length then some (i + count)
        else none := by
  induction input generalizing i scan with
  | nil =>
      rw [scanLoop, List.map_nil, Matching.scan]
      split
      · rfl
      · rfl
  | cons byte rest ih =>
      rw [scanLoop, List.map_cons]
      by_cases done : (delimiter key).length ≤ scan.state
      · have reached : key.length - 2 ≤ scan.state := by
          rw [← delimiter_length]
          exact done
        have here : 0 < (byte :: rest).length ∧ scan.offset + 0 ≤ scan.out.length :=
          ⟨Nat.succ_pos _, inside⟩
        rw [scan_done done, Option.bind_some, if_pos here, if_pos reached, if_pos reached]
        split
        · rfl
        · rfl
        · rfl
      · have early : ¬key.length - 2 ≤ scan.state := by
          rw [← delimiter_length]
          exact done
        rw [if_neg early, if_neg early, Matching.scan, if_neg done]
        by_cases full : scan.out.length ≤ scan.offset
        · rw [copy_turn_full byte full]
          cases Matching.scan (delimiter key) (advance (delimiter key) scan.state (tolower byte))
              (rest.map tolower) with
          | none => rfl
          | some count =>
              rw [Option.map_some, Option.bind_some, if_neg (by omega)]
              rfl
        · have next := @ih (i + 1 + 0) { scan with
            state := advance (delimiter key) scan.state (tolower byte)
            out := scan.out.set scan.offset byte
            offset := scan.offset + 1 } (advance_le (Nat.lt_of_not_le done) _)
            (by rw [List.length_set]; exact Nat.lt_of_not_le full)
          rw [copy_turn byte (Nat.lt_of_not_le full) (Nat.lt_of_not_le done)]
          rw [List.length_set] at next
          dsimp only at next ⊢
          rw [List.nil_append, List.drop_zero, next]
          cases Matching.scan (delimiter key) (advance (delimiter key) scan.state (tolower byte))
              (rest.map tolower) with
          | none => rfl
          | some count =>
              rw [Option.map_some, Option.bind_some, Option.bind_some, List.length_cons]
              refine ite_congr (by simp only [eq_iff_iff]; omega) (fun _ => ?_) (fun _ => rfl)
              congr 1
              omega

/-- What stands in front of the first delimiter falls into failed attempts, and the loop comes to
the byte behind it. -/
def Reached (key text : List UInt8) (room place : Nat) : Prop :=
  Attempts (delimiter key) (text.take place) ∧ place + (delimiter key).length < text.length ∧
    place + (delimiter key).length ≤ room

theorem entered_head (long : 2 ≤ key.length) (out : List UInt8) (zip : Int) (indata : List UInt8)
    (vars : Vars) : (dGetMultiPart helpers out zip indata key vars).entered.head? =
      (Matching.scan (delimiter key) 0 (searched indata key)).bind fun count =>
        if count < (searched indata key).length ∧ count ≤ out.length then some count else none := by
  have head := @entered_scan helpers key (indata.drop key.length) 0
    { state := 0
      offset := 0
      out := out
      vars := { vars with hostlen := 0, ctypelen := 0, clen := 0, dChunked := 0, zip := zip, pcnt := 0 } }
    (Nat.zero_le _) (Nat.zero_le _)
  have size : (indata.drop key.length).length = (searched indata key).length := by
    rw [searched, List.length_map]
  rw [size] at head
  simp only [Nat.zero_add] at head
  rw [dGetMultiPart, if_neg (Nat.not_lt.mpr long)]
  exact head

/-- The branch is first entered where it should be just when the first delimiter is reached. -/
theorem multipart_entered_iff (helpers : Helpers) (out : List UInt8) (zip : Int)
    (indata key : List UInt8) (vars : Vars) :
    EntersBehind key (searched indata key) (dGetMultiPart helpers out zip indata key vars).entered ↔
      ∀ place, DelimitedAt key (searched indata key) place →
        Reached key (searched indata key) out.length place := by
  by_cases short : key.length < 2
  · have never : ∀ place, ¬DelimitedAt key (searched indata key) place := fun place first =>
      absurd first.1 (Nat.not_le.mpr short)
    rw [dGetMultiPart, if_pos short]
    exact iff_of_true ⟨fun place first => absurd first (never place), fun _ => rfl⟩
      (fun place first => absurd first (never place))
  · have long : 2 ≤ key.length := Nat.not_lt.mp short
    rw [EntersBehind, ← List.head?_eq_none_iff, entered_head long]
    constructor
    · rintro ⟨enters, -⟩ place first
      have entered := enters place first
      obtain ⟨count, found, taken⟩ := Option.bind_eq_some_iff.mp entered
      split at taken
      · next fits =>
          cases taken
          exact ⟨(scan_first_iff first.2).mp found, fits⟩
      · cases taken
    · intro reached
      constructor
      · intro place first
        obtain ⟨attempts, fits⟩ := reached place first
        rw [(scan_first_iff first.2).mpr attempts, Option.bind_some, if_pos fits]
      · intro never
        rw [scan_none, Option.bind_none]
        intro place occurs
        obtain ⟨first, here⟩ := first_exists occurs
        exact never first ⟨long, here⟩

end Search

section Missed

/-- The key `--a` with its line end, and an input in which one more dash stands in front of it. -/
def dashedKey : List UInt8 := [45, 45, 97, 13, 10]

def dashedInput : List UInt8 := dashedKey ++ [45, 45, 45, 97, 98, 99]

def blankVars : Vars := ⟨[], 0, [], 0, 0, 0, 0, 0, 0, []⟩

def noHelpers : Helpers := ⟨fun _ _ vars => (0, vars), fun vars => (0, vars)⟩

theorem dashes_missed :
    (dGetMultiPart noHelpers (List.replicate 16 0) 0 dashedInput dashedKey blankVars).entered = [] ∧
      DelimitedAt dashedKey (searched dashedInput dashedKey) 1 := by
  refine ⟨?_, by decide, ⟨by decide, by decide⟩, ?_⟩
  · rw [← List.head?_eq_none_iff, entered_head (by decide)]
    decide
  · intro before less occurs
    cases Nat.lt_one_iff.mp less
    exact absurd occurs.2 (by decide)

end Missed

section End

open Borders

def blankLine : List UInt8 := [0x0D, 0x0A, 0x0D, 0x0A]

/-- The bytes from `n - 4` up to `n` are an empty line. -/
def BlankBefore (input : List UInt8) (n : Nat) : Prop :=
  4 ≤ n ∧ n ≤ input.length ∧ (input.take n).drop (n - 4) = blankLine

def endLevel : EndState → Nat
  | .END_STATE_EMPTY => 0
  | .END_STATE_0D => 1
  | .END_STATE_0D0A => 2
  | .END_STATE_0D0A0D => 3
  | .END_STATE_0D0A0D0A => 4

theorem end_turns : ∀ index < 256,
    Longest blankLine [UInt8.ofNat index] (endLevel (endTurn (UInt8.ofNat index) .END_STATE_EMPTY)) ∧
    Longest blankLine [0x0D, UInt8.ofNat index]
      (endLevel (endTurn (UInt8.ofNat index) .END_STATE_0D)) ∧
    Longest blankLine [0x0D, 0x0A, UInt8.ofNat index]
      (endLevel (endTurn (UInt8.ofNat index) .END_STATE_0D0A)) ∧
    Longest blankLine [0x0D, 0x0A, 0x0D, UInt8.ofNat index]
      (endLevel (endTurn (UInt8.ofNat index) .END_STATE_0D0A0D)) := by
  decide +kernel

theorem end_tracks : Tracks blankLine endLevel endTurn := by
  intro state going byte
  have turns := end_turns byte.toNat byte.toNat_lt
  rw [UInt8.ofNat_toNat] at turns
  cases state with
  | END_STATE_EMPTY => exact turns.1
  | END_STATE_0D => exact turns.2.1
  | END_STATE_0D0A => exact turns.2.2.1
  | END_STATE_0D0A0D => exact turns.2.2.2
  | END_STATE_0D0A0D0A => exact absurd going (by decide)

theorem end_level_last (state : EndState) : 4 ≤ endLevel state ↔ state = .END_STATE_0D0A0D0A := by
  cases state <;> decide

theorem end_loop_reach (input : List UInt8) (i : Nat) (state : EndState) :
    endLoop input i state = ((reach 4 endLevel endTurn state input).map (i + ·)).getD 0 := by
  induction input generalizing i state with
  | nil => rfl
  | cons byte rest ih =>
      simp only [endLoop, reach, end_level_last]
      split
      · rfl
      · rw [ih, Option.map_map]
        congr 2
        funext count
        exact Nat.add_right_comm i 1 count

theorem blank_before_iff (input : List UInt8) (n : Nat) :
    BlankBefore input n ↔ n ≤ input.length ∧ blankLine <:+ input.take n := by
  rw [BlankBefore, List.suffix_iff_eq_drop]
  constructor
  · rintro ⟨-, inside, line⟩
    refine ⟨inside, ?_⟩
    rw [List.length_take_of_le inside]
    exact line.symm
  · rintro ⟨inside, line⟩
    rw [List.length_take_of_le inside] at line
    have width := congrArg List.length line
    rw [List.length_drop, List.length_take_of_le inside] at width
    have four : blankLine.length = 4 := rfl
    exact ⟨by omega, inside, line.symm⟩

/-- `dGetEnd` returns where the first empty line ends, and 0 when there is none. -/
theorem get_end_first (input : List UInt8) :
    (∀ n, 0 < n → (dGetEnd input = n ↔ BlankBefore input n ∧ ∀ m < n, ¬BlankBefore input m)) ∧
      (dGetEnd input = 0 ↔ ∀ n, ¬BlankBefore input n) := by
  have first (n : Nat) : EndsFirst blankLine [] input n ↔
      BlankBefore input n ∧ ∀ m < n, ¬BlankBefore input m := by
    rw [EndsFirst, List.nil_append, ← blank_before_iff]
    refine and_congr_right fun blank => forall_congr' fun m => forall_congr' fun less => ?_
    rw [List.nil_append, blank_before_iff, and_iff_right (Nat.le_trans (Nat.le_of_lt less) blank.2.1)]
  have start : endLevel .END_STATE_EMPTY = 0 := rfl
  have found (n : Nat) := (reach_first end_tracks (by decide) start input n).trans (first n)
  have loop : dGetEnd input = _ := end_loop_reach input 0 .END_STATE_EMPTY
  cases place : reach 4 endLevel endTurn .END_STATE_EMPTY input with
  | none =>
      rw [place] at loop
      have never : ∀ n, ¬BlankBefore input n := by
        intro n
        induction n using Nat.strongRecOn with
        | ind n earlier =>
            intro blank
            exact nomatch place.symm.trans ((found n).mpr ⟨blank, earlier⟩)
      refine ⟨fun n positive => ?_, iff_of_true loop never⟩
      exact iff_of_false (fun same => by rw [loop] at same; exact absurd same.symm (Nat.ne_of_gt positive))
        (fun blank => never n blank.1)
  | some count =>
      rw [place, Option.map_some, Option.getD_some, Nat.zero_add] at loop
      have here := (found count).mp place
      refine ⟨fun n _ => ?_, iff_of_false ?_ (fun never => never count here.1)⟩
      · rw [loop, ← found, ← Option.some.injEq, ← place]
        rfl
      · rw [loop]
        exact Nat.ne_of_gt (Nat.lt_of_lt_of_le (by decide) here.1.1)

end End

end Upst.Multipart
