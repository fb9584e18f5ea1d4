import Upst.Gre
import Mathlib.Data.List.Basic

/-!
The frames that `A_GRE` hands on are the runs of data between the flags of a direction's stream.
The buffer holds the flag and the run that is not closed yet, or is marked when that has outgrown
it; so it makes no difference where the stream is cut into payloads.
-/

namespace Upst.Gre

open Ppp (PppState)
open Tcp (Rtx)

set_option autoImplicit false

section Stream

/-- What lies between the flags of the stream; the last of it is not closed by a flag. -/
def runs (stream : List UInt8) : List (List UInt8) := stream.splitOn 0x7E

def openRun (stream : List UInt8) : List UInt8 := (runs stream).getLastD []

/-- A run of data with its two flags, unless it is empty or longer than the buffer. -/
def closeRun (run : List UInt8) : Option (List UInt8) :=
  if run = [] ∨ MAX_PPP_SIZE < run.length + 2 then none else some (0x7E :: run ++ [0x7E])

/-- The frames of a stream: what is closed by a flag. -/
def flagFrames (stream : List UInt8) : List (List UInt8) := (runs stream).dropLast.filterMap closeRun

theorem runs_flagless {bytes : List UInt8} (plain : (0x7E : UInt8) ∉ bytes) : runs bytes = [bytes] :=
  List.splitOn_eq_singleton plain

theorem runs_flag (front back : List UInt8) : runs (front ++ 0x7E :: back) = runs front ++ runs back :=
  List.splitOn_append_cons_self front back

theorem last_flag (stream : List UInt8) : (0x7E : UInt8) ∉ stream ∨
    ∃ front back, stream = front ++ 0x7E :: back ∧ (0x7E : UInt8) ∉ back := by
  by_cases member : (0x7E : UInt8) ∈ stream
  · right
    have turned : (0x7E : UInt8) ∈ stream.reverse := List.mem_reverse.mpr member
    obtain ⟨back, front, split, plain⟩ := List.eq_append_cons_of_mem turned
    refine ⟨front.reverse, back.reverse, ?_, fun inside => plain (List.mem_reverse.mp inside)⟩
    have whole := congrArg List.reverse split
    simpa using whole
  · exact Or.inl member

/-- A stream is closed runs and an open one. -/
theorem runs_open (stream : List UInt8) : ∃ closed, runs stream = closed ++ [openRun stream] ∧
    ∀ bytes, (0x7E : UInt8) ∉ bytes → runs (stream ++ bytes) = closed ++ [openRun stream ++ bytes] := by
  rcases last_flag stream with plain | ⟨front, back, rfl, plain⟩
  · have whole : openRun stream = stream := by simp [openRun, runs_flagless plain]
    refine ⟨[], by rw [runs_flagless plain, whole]; rfl, fun bytes flagless => ?_⟩
    rw [whole, List.nil_append]
    apply runs_flagless
    simp [plain, flagless]
  · have whole : openRun (front ++ 0x7E :: back) = back := by
      simp [openRun, runs_flag, runs_flagless plain]
    refine ⟨runs front, by rw [runs_flag, runs_flagless plain, whole], fun bytes flagless => ?_⟩
    have joined : (0x7E : UInt8) ∉ back ++ bytes := by simp [plain, flagless]
    rw [List.append_assoc, List.cons_append, runs_flag front, whole, runs_flagless joined]

theorem extend_open {stream bytes : List UInt8} (plain : (0x7E : UInt8) ∉ bytes) :
    openRun (stream ++ bytes) = openRun stream ++ bytes ∧
      flagFrames (stream ++ bytes) = flagFrames stream := by
  obtain ⟨closed, split, extended⟩ := runs_open stream
  constructor
  · rw [openRun, extended bytes plain, List.getLastD_concat]
  · rw [flagFrames, flagFrames, extended bytes plain, split, List.dropLast_concat, List.dropLast_concat]

theorem extend_flag (stream : List UInt8) :
    openRun (stream ++ [0x7E]) = [] ∧
      flagFrames (stream ++ [0x7E]) = flagFrames stream ++ (closeRun (openRun stream)).toList := by
  obtain ⟨closed, split, -⟩ := runs_open stream
  have flagged : runs (stream ++ [0x7E]) = runs stream ++ [[]] := runs_flag stream []
  constructor
  · rw [openRun, flagged, List.getLastD_concat]
  · rw [flagFrames, flagFrames, flagged, split, List.dropLast_concat, List.dropLast_concat,
      List.filterMap_append]
    rw [List.filterMap_cons]
    cases closeRun (openRun stream) <;> rfl

theorem close_empty : closeRun [] = none := if_pos (Or.inl rfl)

theorem extend_flags {stream : List UInt8} (empty : openRun stream = []) (count : Nat) :
    openRun (stream ++ List.replicate count 0x7E) = [] ∧
      flagFrames (stream ++ List.replicate count 0x7E) = flagFrames stream := by
  induction count with
  | zero => simpa using empty
  | succ count ih =>
      obtain ⟨opened, frames⟩ := extend_flag (stream ++ List.replicate count 0x7E)
      rw [ih.1, ih.2, close_empty, Option.toList_none, List.append_nil] at frames
      rw [List.replicate_succ', ← List.append_assoc]
      exact ⟨opened, frames⟩

end Stream

section Scan

theorem scan_run {run : List UInt8} (plain : (0x7E : UInt8) ∉ run) (rest : List UInt8) (i : Nat)
    {scan : Scan} (state : scan.nPPPState = .fData) (ret : scan.dRet = 0) :
    scanLoop (run ++ rest) i scan = scanLoop rest (i + run.length) scan := by
  induction run generalizing i with
  | nil => rfl
  | cons byte run ih =>
      simp only [List.mem_cons, not_or] at plain
      have stays : (if byte = 0x7E then scan.flag i else scan.data i) = scan := by
        rw [if_neg (fun flag => plain.1 flag.symm)]
        simp only [Scan.data, state]
        rw [← state]
      rw [List.cons_append, scanLoop, stays, if_neg (by omega), ih plain.2, List.length_cons,
        Nat.add_assoc, Nat.add_comm 1]

/-- The closing flag ends the scan, at once or at the byte behind it. -/
theorem scan_close (rest : List UInt8) (i : Nat) {scan : Scan} (state : scan.nPPPState = .fData) :
    ∃ ret : Int, 0 < ret ∧ scanLoop (0x7E :: rest) i scan =
      { scan with
        dRet := ret
        nPPPState := .fDataF
        nNextPos := if rest = [] then scan.nNextPos else i + 1 } := by
  have closes : scan.flag i = { scan with nPPPState := .fDataF, dRet := 1 } := by
    simp only [Scan.flag, state]
  cases rest with
  | nil =>
      refine ⟨1, by decide, ?_⟩
      rw [scanLoop, if_pos (rfl : (0x7E : UInt8) = 0x7E), closes]
      rfl
  | cons byte rest =>
      refine ⟨2, by decide, ?_⟩
      rw [scanLoop, if_pos rfl, closes, scanLoop]
      by_cases flag : byte = 0x7E
      · simp [flag, Scan.flag]
      · simp [flag, Scan.data]

theorem scan_flags (count : Nat) (rest : List UInt8) (i : Nat) {scan : Scan}
    (state : scan.nPPPState = .f) (ret : scan.dRet = 0) :
    scanLoop (List.replicate count 0x7E ++ rest) i scan =
      scanLoop rest (i + count) { scan with n7EDup := scan.n7EDup + count } := by
  induction count generalizing i scan with
  | zero => rfl
  | succ count ih =>
      have repeated : (if (0x7E : UInt8) = 0x7E then scan.flag i else scan.data i) =
          { scan with n7EDup := scan.n7EDup + 1 } := by
        rw [if_pos rfl]
        simp only [Scan.flag, state]
      have goes : ¬(scan.dRet < 0 ∨ 1 < scan.dRet) := by omega
      have following := @ih (i + 1) { scan with n7EDup := scan.n7EDup + 1 } state ret
      rw [List.replicate_succ, List.cons_append, scanLoop, repeated, if_neg goes, following]
      have place : i + 1 + count = i + (count + 1) := by omega
      have twice : scan.n7EDup + 1 + count = scan.n7EDup + (count + 1) := by omega
      simp only [place, twice]

/-- What a payload begins with: flags, then data, then whatever follows a flag. -/
theorem payload_split (pData : List UInt8) : ∃ count run rest,
    pData = List.replicate count 0x7E ++ (run ++ rest) ∧ (0x7E : UInt8) ∉ run ∧
      (rest = [] ∨ run ≠ [] ∧ ∃ more, rest = 0x7E :: more) := by
  induction pData with
  | nil => exact ⟨0, [], [], rfl, List.not_mem_nil, Or.inl rfl⟩
  | cons byte pData ih =>
      obtain ⟨count, run, rest, split, plain, shape⟩ := ih
      by_cases flag : byte = 0x7E
      · exact ⟨count + 1, run, rest, by rw [flag, split]; rfl, plain, shape⟩
      · cases count with
        | zero =>
            refine ⟨0, byte :: run, rest, by rw [split]; rfl, ?_, ?_⟩
            · simp only [List.mem_cons, not_or]
              exact ⟨fun same => flag same.symm, plain⟩
            · rcases shape with empty | ⟨-, more⟩
              · exact Or.inl empty
              · exact Or.inr ⟨by simp, more⟩
        | succ count =>
            refine ⟨0, [byte], List.replicate (count + 1) 0x7E ++ (run ++ rest), by rw [split]; rfl, ?_,
              Or.inr ⟨by simp, _, rfl⟩⟩
            simp only [List.mem_singleton]
            exact fun same => flag same.symm

/-- Data right behind a flag, or at the start of a frame without one. -/
theorem scan_enter {byte : UInt8} {run : List UInt8} (plain : (0x7E : UInt8) ∉ byte :: run)
    (rest : List UInt8) (i : Nat) {scan : Scan} (state : scan.nPPPState = .x ∨ scan.nPPPState = .f)
    (ret : scan.dRet = 0) :
    scanLoop (byte :: run ++ rest) i scan = scanLoop rest (i + (byte :: run).length)
      { scan with
        nPPPState := .fData
        n7EOmit := if scan.nPPPState = .x then true else scan.n7EOmit } := by
  simp only [List.mem_cons, not_or] at plain
  have entered : (if byte = 0x7E then scan.flag i else scan.data i) =
      { scan with
        nPPPState := .fData
        n7EOmit := if scan.nPPPState = .x then true else scan.n7EOmit } := by
    rw [if_neg (fun flag => plain.1 flag.symm)]
    rcases state with x | f
    · simp [Scan.data, x]
    · simp [Scan.data, f]
  generalize after : ({ scan with
        nPPPState := .fData
        n7EOmit := if scan.nPPPState = .x then true else scan.n7EOmit } : Scan) = inside at entered ⊢
  have state_inside : inside.nPPPState = .fData := by rw [← after]
  have ret_inside : inside.dRet = 0 := by rw [← after, ret]
  rw [List.cons_append, scanLoop, entered, if_neg (by omega),
    scan_run plain.2 rest (i + 1) state_inside ret_inside, List.length_cons, Nat.add_assoc,
    Nat.add_comm 1]

/-- The end of a scan that stands in data. -/
theorem scan_end {rest : List UInt8} (shape : rest = [] ∨ ∃ more, rest = 0x7E :: more) (i : Nat)
    {scan : Scan} (state : scan.nPPPState = .fData) (ret : scan.dRet = 0)
    (size : scan.nNextPos = (i + rest.length : Nat)) :
    ∃ last : Int, 0 ≤ last ∧ scanLoop rest i scan =
      { scan with
        dRet := last
        nPPPState := if rest = [] then .fData else .fDataF
        nNextPos := if rest = [] then (i : Nat) else (i + 1 : Nat) } := by
  rcases shape with rfl | ⟨more, rfl⟩
  · refine ⟨0, by decide, ?_⟩
    rw [List.length_nil, Nat.add_zero] at size
    rw [scanLoop, if_pos rfl, if_pos rfl, ← size, ← state, ← ret]
  · obtain ⟨last, positive, closed⟩ := scan_close more i state
    refine ⟨last, by omega, ?_⟩
    rw [closed, if_neg (List.cons_ne_nil _ _), if_neg (List.cons_ne_nil _ _)]
    by_cases ended : more = []
    · rw [if_pos ended, size, ended]
      rfl
    · rw [if_neg ended]
      rfl

end Scan

section Turn

theorem s16_small {value : Int} (low : 0 ≤ value) (high : value < 2 ^ 15) : s16 value = value := by
  rw [s16, BitVec.toInt_ofInt]
  apply Int.bmod_eq_of_le
  · omega
  · omega

/-- The direction after bytes were copied to its buffer, or not. -/
def afterCopy (info : PppInfo) (bytes : List UInt8) : PppInfo :=
  if MAX_PPP_SIZE < info.buffer.length + bytes.length then { info with bMrgState := true }
  else { info with buffer := info.buffer ++ bytes }

/-- The frame that is handed on when its last bytes were copied. -/
def emitted (info : PppInfo) (bytes : List UInt8) : Option (List UInt8) :=
  if MAX_PPP_SIZE < info.buffer.length + bytes.length then none
  else if info.bMrgState then none
  else some (info.buffer ++ bytes)

/-- The direction that the bytes of a turn are copied to. -/
def PppInfo.start (info : PppInfo) (scan : Scan) : PppInfo :=
  { info with
    dPPPState := scan.nPPPState
    buffer := if scan.n7EOmit then [0x7E] else info.buffer }

theorem copy_packet_eq (buffer pData : List UInt8) {dup next : Nat} (before : dup ≤ next)
    (bound : next ≤ pData.length) (small : pData.length < 2 ^ 15) :
    copyPacket buffer (pData.drop dup) (s16 ((next : Int) - dup)) =
      if MAX_PPP_SIZE < buffer.length + ((pData.take next).drop dup).length then none
      else some (buffer ++ (pData.take next).drop dup) := by
  have size : ((next : Int) - dup) = (next - dup : Nat) := by omega
  have length : ((pData.take next).drop dup).length = next - dup := by
    rw [List.length_drop, List.length_take, Nat.min_eq_left bound]
  rw [size, s16_small (by omega) (by omega), copyPacket, length, Int.toNat_natCast, List.drop_take]
  by_cases fits : MAX_PPP_SIZE < buffer.length + (next - dup)
  · rw [if_pos fits, if_pos (by omega)]
  · rw [if_neg fits, if_neg (by omega)]

theorem merge_turn_eq {info : PppInfo} {pData : List UInt8} {scan : Scan} {next : Nat}
    (scanned : get7EState pData pData.length info.dPPPState = scan) (ret : 0 ≤ scan.dRet)
    (place : scan.nNextPos = next) (before : scan.n7EDup ≤ next) (bound : next ≤ pData.length)
    (small : pData.length < 2 ^ 15) :
    (scan.nPPPState = .fDataF → mergeTurn info pData =
        .ok (.fresh, emitted (info.start scan) ((pData.take next).drop scan.n7EDup), next)) ∧
      (scan.nPPPState = .fData ∨ scan.nPPPState = .f → mergeTurn info pData =
        .ok (afterCopy (info.start scan) ((pData.take next).drop scan.n7EDup), none, next)) := by
  have size : s16 pData.length = pData.length := s16_small (by omega) (by omega)
  have copied := copy_packet_eq (info.start scan).buffer pData before bound small
  rw [mergeTurn, size, scanned]
  dsimp only
  rw [if_neg (by omega), place]
  have started : (if scan.n7EOmit = true then
      { info with dPPPState := scan.nPPPState, buffer := [0x7E] } else
      { info with dPPPState := scan.nPPPState }) = info.start scan := by
    unfold PppInfo.start
    split_ifs <;> rfl
  rw [started, copied]
  have state : (info.start scan).dPPPState = scan.nPPPState := rfl
  rw [state]
  constructor
  · intro closed
    rw [closed]
    unfold emitted
    split_ifs <;> simp_all
  · intro opened
    unfold afterCopy
    rcases opened with opened | opened
    · rw [opened]
      split_ifs <;> simp_all
    · rw [opened]
      split_ifs <;> simp_all

/-- The buffer holds the run that is not closed yet, or it is marked that the run is too long. -/
structure InRun (info : PppInfo) (run : List UInt8) : Prop where
  state : info.dPPPState = .fData
  nonempty : run ≠ []
  bounded : info.buffer.length ≤ MAX_PPP_SIZE
  content : info.bMrgState = false → info.buffer = 0x7E :: run
  outgrown : info.bMrgState = true → MAX_PPP_SIZE < run.length + 1

/-- A direction after `stream`. Between frames its buffer is empty or holds a flag. -/
def Holds (info : PppInfo) (stream : List UInt8) : Prop :=
  openRun stream = [] ∧ (info = .fresh ∨ info = ⟨[0x7E], .f, false⟩) ∨ InRun info (openRun stream)

/-- What the bytes of a turn make of the run, where `start` is ready for them. -/
structure Ready (start : PppInfo) (bytes run : List UInt8) : Prop where
  nonempty : run ≠ []
  bounded : start.buffer.length ≤ MAX_PPP_SIZE
  content : start.bMrgState = false → start.buffer ++ bytes = 0x7E :: run
  outgrown : start.bMrgState = true → MAX_PPP_SIZE < run.length + 1

theorem copy_in_run {start : PppInfo} {bytes run : List UInt8} (state : start.dPPPState = .fData)
    (ready : Ready start bytes run) : InRun (afterCopy start bytes) run := by
  unfold afterCopy
  split_ifs with tooLong
  · refine ⟨state, ready.nonempty, ready.bounded, by simp, fun _ => ?_⟩
    cases mark : start.bMrgState with
    | true => exact ready.outgrown mark
    | false =>
        have length := congrArg List.length (ready.content mark)
        rw [List.length_append, List.length_cons] at length
        omega
  · refine ⟨state, ready.nonempty, ?_, ready.content, ready.outgrown⟩
    rw [List.length_append]
    omega

theorem emitted_run {start : PppInfo} {bytes run : List UInt8} (nonempty : run ≠ [])
    (content : start.bMrgState = false → start.buffer ++ bytes = 0x7E :: run ++ [0x7E])
    (outgrown : start.bMrgState = true → MAX_PPP_SIZE < run.length + 1) :
    emitted start bytes = closeRun run := by
  cases mark : start.bMrgState with
  | true =>
      have long := outgrown mark
      rw [emitted, mark, closeRun, if_pos (Or.inr (by omega)), if_pos rfl, ite_self]
  | false =>
      have whole := content mark
      have length := congrArg List.length whole
      simp only [List.length_append, List.length_cons, List.length_nil] at length
      rw [emitted, mark, closeRun, whole]
      by_cases tooLong : MAX_PPP_SIZE < run.length + 2
      · rw [if_pos (by omega), if_pos (Or.inr tooLong)]
      · have kept : ¬(run = [] ∨ MAX_PPP_SIZE < run.length + 2) := by tauto
        rw [if_neg (by omega), if_neg Bool.false_ne_true, if_neg kept]

/-- A turn took `next` bytes of the payload. -/
def Taken (info : PppInfo) (stream pData : List UInt8) : Prop :=
  ∃ info' frame, ∃ next : Nat, mergeTurn info pData = .ok (info', frame, (next : Int)) ∧ 0 < next ∧
    next ≤ pData.length ∧ Holds info' (stream ++ pData.take next) ∧
    flagFrames (stream ++ pData.take next) = flagFrames stream ++ frame.toList

/-- A turn that ends in data or at the flag that closes it. -/
theorem turn_in_run {info : PppInfo} {stream run rest : List UInt8} {count dup : Nat} {omits : Bool}
    {last : Int} (plain : (0x7E : UInt8) ∉ run) (shape : rest = [] ∨ ∃ more, rest = 0x7E :: more)
    (small : (List.replicate count 0x7E ++ (run ++ rest)).length < 2 ^ 15)
    (flags : flagFrames (stream ++ List.replicate count 0x7E) = flagFrames stream)
    (scanned : get7EState (List.replicate count 0x7E ++ (run ++ rest))
      (List.replicate count 0x7E ++ (run ++ rest)).length info.dPPPState =
        { dRet := last
          nPPPState := if rest = [] then .fData else .fDataF
          nNextPos := if rest = [] then (count + run.length : Nat) else (count + run.length + 1 : Nat)
          n7EOmit := omits
          n7EDup := dup })
    (ret : 0 ≤ last) (repeated : dup ≤ count)
    (ready : Ready { info with buffer := if omits then [0x7E] else info.buffer }
      (List.replicate (count - dup) 0x7E ++ run)
      (openRun (stream ++ List.replicate count 0x7E) ++ run))
    (something : List.replicate count 0x7E ++ (run ++ rest) ≠ []) :
    Taken info stream (List.replicate count 0x7E ++ (run ++ rest)) := by
  obtain ⟨opened, framed⟩ := @extend_open (stream ++ List.replicate count 0x7E) run plain
  rw [List.append_assoc] at opened framed
  have length : (List.replicate count (0x7E : UInt8) ++ run).length = count + run.length := by simp
  rcases shape with rfl | ⟨more, rfl⟩
  · simp only [List.append_nil, if_true] at scanned small something ⊢
    obtain ⟨-, turn⟩ := @merge_turn_eq _ _ _ (count + run.length) scanned ret rfl
      (by dsimp only; omega) (by omega) small
    have whole : (List.replicate count (0x7E : UInt8) ++ run).take (count + run.length) =
        List.replicate count 0x7E ++ run := List.take_of_length_le (by omega)
    have bytes : (List.replicate count (0x7E : UInt8) ++ run).drop dup =
        List.replicate (count - dup) 0x7E ++ run := by
      rw [List.drop_append_of_le_length (by simpa using repeated), List.drop_replicate]
    have positive : 0 < (List.replicate count (0x7E : UInt8) ++ run).length :=
      List.length_pos_iff.mpr something
    refine ⟨_, none, count + run.length, turn (Or.inl rfl), by omega, by omega, ?_, ?_⟩
    · rw [whole, Holds, opened, bytes]
      exact Or.inr (copy_in_run rfl ⟨ready.nonempty, ready.bounded, ready.content, ready.outgrown⟩)
    · rw [whole, framed, flags]
      simp
  · simp only [List.cons_ne_nil, if_false] at scanned
    obtain ⟨turn, -⟩ := @merge_turn_eq _ _ _ (count + run.length + 1) scanned ret rfl
      (by dsimp only; omega) (by simp only [List.length_append, List.length_cons, List.length_replicate]; omega) small
    have front : List.replicate count (0x7E : UInt8) ++ (run ++ 0x7E :: more) =
        (List.replicate count 0x7E ++ run ++ [0x7E]) ++ more := by simp
    have whole : (List.replicate count (0x7E : UInt8) ++ (run ++ 0x7E :: more)).take
        (count + run.length + 1) = List.replicate count 0x7E ++ run ++ [0x7E] := by
      rw [front]
      exact List.take_left' (by simp [Nat.add_assoc])
    have bytes : (List.replicate count (0x7E : UInt8) ++ run ++ [0x7E]).drop dup =
        List.replicate (count - dup) 0x7E ++ run ++ [0x7E] := by
      rw [List.append_assoc, List.drop_append_of_le_length (by simpa using repeated),
        List.drop_replicate, List.append_assoc]
    obtain ⟨closed, emits⟩ := extend_flag (stream ++ (List.replicate count 0x7E ++ run))
    rw [List.append_assoc] at closed emits
    refine ⟨_, _, count + run.length + 1, turn rfl, by omega, ?_, ?_, ?_⟩
    · simp only [List.length_append, List.length_cons, List.length_replicate]
      omega
    · rw [whole, Holds]
      exact Or.inl ⟨closed, Or.inl rfl⟩
    · rw [whole, emits, framed, flags, opened, bytes]
      congr 2
      symm
      apply emitted_run ready.nonempty
      · intro mark
        rw [← List.append_assoc]
        exact congrArg (fun front => front ++ [0x7E]) (ready.content mark)
      · exact ready.outgrown

theorem whole_scan (pData : List UInt8) (nPPPState : PppState) :
    get7EState pData pData.length nPPPState = scanLoop pData 0
      { dRet := 0, nPPPState := nPPPState, nNextPos := pData.length, n7EOmit := false, n7EDup := 0 } := by
  rw [get7EState, Int.toNat_natCast, List.take_length]

/-- A turn from inside a run: the payload goes on with data or with the flag that closes it. -/
theorem turn_from_data {info : PppInfo} {stream pData : List UInt8} (run : InRun info (openRun stream))
    (something : pData ≠ []) (small : pData.length < 2 ^ 15) : Taken info stream pData := by
  obtain ⟨more, rest, split, plain, shape⟩ : ∃ more rest, pData = more ++ rest ∧
      (0x7E : UInt8) ∉ more ∧ (rest = [] ∨ ∃ after, rest = 0x7E :: after) := by
    obtain ⟨count, more, rest, split, plain, shape⟩ := payload_split pData
    cases count with
    | zero => exact ⟨more, rest, by simpa using split, plain, shape.imp id fun closed => closed.2⟩
    | succ count => exact ⟨[], pData, rfl, List.not_mem_nil, Or.inr ⟨_, split⟩⟩
  have none_in_front : pData = List.replicate 0 0x7E ++ (more ++ rest) := by simpa using split
  obtain ⟨last, ret, ended⟩ := @scan_end rest shape more.length
    { dRet := 0, nPPPState := .fData, nNextPos := pData.length, n7EOmit := false, n7EDup := 0 } rfl rfl
    (by rw [split, List.length_append])
  have scanned : get7EState pData pData.length info.dPPPState =
      { dRet := last
        nPPPState := if rest = [] then .fData else .fDataF
        nNextPos := if rest = [] then (0 + more.length : Nat) else (0 + more.length + 1 : Nat)
        n7EOmit := false
        n7EDup := 0 } := by
    rw [whole_scan, run.state, Nat.zero_add, ← ended, ← Nat.zero_add more.length,
      ← scan_run plain rest 0 rfl rfl, ← split]
  subst none_in_front
  apply turn_in_run plain shape small (by simp) scanned ret (Nat.zero_le _) _ something
  refine ⟨by simp [run.nonempty], by simpa using run.bounded, ?_, ?_⟩
  · intro mark
    simp [run.content mark]
  · intro mark
    have long := run.outgrown mark
    simp only [List.replicate_zero, List.append_nil, List.length_append]
    omega

/-- Flags between frames: the first of them is kept, and the others are counted. -/
theorem scan_gap {info : PppInfo} (gap : info = .fresh ∨ info = ⟨[0x7E], .f, false⟩) (count : Nat)
    (more : List UInt8) (size : Int) : ∃ state dup,
    scanLoop (List.replicate count 0x7E ++ more) 0
        { dRet := 0, nPPPState := info.dPPPState, nNextPos := size, n7EOmit := false, n7EDup := 0 } =
      scanLoop more count
        { dRet := 0, nPPPState := state, nNextPos := size, n7EOmit := false, n7EDup := dup } ∧
      dup ≤ count ∧
      (state = .x ∧ count = 0 ∨ state = .f ∧ info.buffer ++ List.replicate (count - dup) 0x7E = [0x7E]) := by
  rcases gap with rfl | rfl
  · cases count with
    | zero => exact ⟨.x, 0, rfl, Nat.le_refl 0, Or.inl ⟨rfl, rfl⟩⟩
    | succ count =>
        refine ⟨.f, count, ?_, Nat.le_succ count, Or.inr ⟨rfl, ?_⟩⟩
        · have first : scanLoop (List.replicate (count + 1) 0x7E ++ more) 0
              { dRet := 0, nPPPState := .x, nNextPos := size, n7EOmit := false, n7EDup := 0 } =
            scanLoop (List.replicate count 0x7E ++ more) 1
              { dRet := 0, nPPPState := .f, nNextPos := size, n7EOmit := false, n7EDup := 0 } := rfl
          rw [PppInfo.fresh, first, scan_flags count more 1 rfl rfl, Nat.zero_add, Nat.add_comm 1]
        · simp [PppInfo.fresh]
  · refine ⟨.f, count, ?_, Nat.le_refl count, Or.inr ⟨rfl, by simp⟩⟩
    rw [scan_flags count more 0 rfl rfl, Nat.zero_add]

/-- A turn between frames. -/
theorem turn_from_gap {info : PppInfo} {stream pData : List UInt8} (empty : openRun stream = [])
    (gap : info = .fresh ∨ info = ⟨[0x7E], .f, false⟩) (something : pData ≠ [])
    (small : pData.length < 2 ^ 15) : Taken info stream pData := by
  have unmarked : info.bMrgState = false := by
    rcases gap with rfl | rfl
    · rfl
    · rfl
  obtain ⟨count, run, rest, rfl, plain, shape⟩ := payload_split pData
  obtain ⟨opened, framed⟩ := extend_flags empty count
  generalize size : (List.replicate count (0x7E : UInt8) ++ (run ++ rest)).length = length at small
  obtain ⟨state, dup, flagged, repeated, start⟩ := scan_gap gap count (run ++ rest) length
  cases run with
  | nil =>
      obtain rfl : rest = [] := by tauto
      simp only [List.append_nil, List.length_replicate] at something size flagged ⊢
      subst size
      obtain ⟨rfl, kept⟩ : state = .f ∧ info.buffer ++ List.replicate (count - dup) 0x7E = [0x7E] := by
        rcases start with ⟨-, rfl⟩ | start
        · simp at something
        · exact start
      have scanned : get7EState (List.replicate count 0x7E)
            (List.replicate count (0x7E : UInt8)).length info.dPPPState =
          { dRet := 0, nPPPState := .f, nNextPos := count, n7EOmit := false, n7EDup := dup } := by
        rw [whole_scan, List.length_replicate, flagged]
        rfl
      obtain ⟨-, turn⟩ := @merge_turn_eq _ _ _ count scanned (Int.le_refl 0) rfl repeated (by simp)
        (by rwa [List.length_replicate])
      have whole : (List.replicate count (0x7E : UInt8)).take count = List.replicate count 0x7E := by
        simp
      have positive : 0 < (List.replicate count (0x7E : UInt8)).length := List.length_pos_iff.mpr something
      rw [List.length_replicate] at positive
      refine ⟨_, none, count, turn (Or.inr rfl), positive, by simp, ?_, ?_⟩
      · rw [whole, Holds]
        refine Or.inl ⟨opened, Or.inr ?_⟩
        have copied : info.buffer ++ (List.replicate count 0x7E).drop dup = [0x7E] := by
          rw [List.drop_replicate, kept]
        have one := congrArg List.length copied
        rw [List.length_append, List.length_singleton] at one
        rw [afterCopy, if_neg]
        · rw [PppInfo.start]
          simp [kept, unmarked]
        · simp only [PppInfo.start, Bool.false_eq_true, if_false, MAX_PPP_SIZE]
          omega
      · rw [whole, framed]
        simp
  | cons byte run =>
      have ready_shape : rest = [] ∨ ∃ more, rest = 0x7E :: more := shape.imp id fun closed => closed.2
      have stands : state = .x ∨ state = .f := by tauto
      have entered := @scan_enter byte run plain rest count
        { dRet := 0, nPPPState := state, nNextPos := length, n7EOmit := false, n7EDup := dup } stands rfl
      obtain ⟨last, ret, ended⟩ := @scan_end rest ready_shape (count + (byte :: run).length)
        { dRet := 0, nPPPState := .fData, nNextPos := length,
          n7EOmit := if state = .x then true else false, n7EDup := dup } rfl rfl (by
            rw [← size]
            simp only [List.length_append, List.length_replicate]
            omega)
      have scanned := (whole_scan (List.replicate count 0x7E ++ (byte :: run ++ rest))
        info.dPPPState).trans (by rw [size, flagged, entered, ended])
      apply turn_in_run plain ready_shape (by rwa [size]) (framed) scanned ret repeated _ something
      rw [opened, List.nil_append]
      refine ⟨by simp, ?_, ?_, by simp [unmarked]⟩
      · rcases gap with rfl | rfl
        · split_ifs <;> simp [PppInfo.fresh, MAX_PPP_SIZE]
        · split_ifs <;> simp [MAX_PPP_SIZE]
      · intro _
        rcases start with ⟨rfl, rfl⟩ | ⟨rfl, kept⟩
        · simp
        · rw [← List.append_assoc]
          simp [kept]

end Turn

section Packets

theorem turn_taken {info : PppInfo} {stream pData : List UInt8} (holds : Holds info stream)
    (something : pData ≠ []) (small : pData.length < 2 ^ 15) : Taken info stream pData := by
  rcases holds with ⟨empty, gap⟩ | run
  · exact turn_from_gap empty gap something small
  · exact turn_from_data run something small

/-- The loop takes the whole payload. -/
theorem loop_taken (fuel : Nat) : ∀ {info : PppInfo} {stream pData : List UInt8}, Holds info stream →
    pData.length < 2 ^ 15 → pData.length < fuel → ∃ info' frames,
      mergeLoop fuel info pData = some (0, info', frames) ∧ Holds info' (stream ++ pData) ∧
        flagFrames (stream ++ pData) = flagFrames stream ++ frames := by
  induction fuel with
  | zero => intro info stream pData _ _ enough; omega
  | succ fuel ih =>
      intro info stream pData holds small enough
      by_cases ended : pData = []
      · subst ended
        exact ⟨info, [], by simp [mergeLoop], by simpa using holds, by simp⟩
      · obtain ⟨info', frame, next, turn, positive, bound, after, framed⟩ :=
          turn_taken holds ended small
        have shorter : (pData.drop next).length < pData.length := by
          rw [List.length_drop]
          omega
        obtain ⟨final, frames, ran, finally_holds, more⟩ := ih after
          (Nat.lt_trans shorter small) (by omega)
        rw [List.append_assoc, List.take_append_drop] at finally_holds more
        refine ⟨final, frame.toList ++ frames, ?_, finally_holds, ?_⟩
        · rw [mergeLoop, if_neg ended, turn]
          dsimp only
          rw [if_neg (by omega), Int.toNat_natCast, ran]
          rfl
        · rw [more, framed, List.append_assoc]

/-- The payload of a packet is shorter than a `short` can say. -/
theorem gre_data_size_lt {wSize wGREHeaderSize size : Nat}
    (analysed : greDataSize wSize wGREHeaderSize = some size) : size < 2 ^ 15 := by
  unfold greDataSize at analysed
  split_ifs at analysed
  have bound : s16 ((wSize : Int) - wGREHeaderSize) < 32768 := by
    have upper := @Int.bmod_lt ((wSize : Int) - wGREHeaderSize) (2 ^ 16) (by decide)
    rw [s16, BitVec.toInt_ofInt]
    exact upper
  dsimp only at analysed
  split_ifs at analysed
  have found := Option.some.inj analysed
  have limit : size < 32768 := by omega
  exact limit

/-- The packets of a session one after the other: every frame with its direction. -/
def mergePackets : PSessData → List GrePacket → Option (List (Rtx × List UInt8) × PSessData)
  | sess, [] => some ([], sess)
  | sess, packet :: packets => do
      let ((_, frames), sess) ← mergePPPData sess packet
      let (handed, sess) ← mergePackets sess packets
      some (frames.map (fun frame => (packet.bRtxType, frame)) ++ handed, sess)

def PSessData.fresh : PSessData := ⟨.fresh, .fresh⟩

/-- The stream of a direction, however it was cut and whatever came between. -/
def streamOf (rtx : Rtx) (packets : List GrePacket) : List UInt8 :=
  packets.flatMap fun packet => if packet.bRtxType = rtx then packet.data else []

def framesOf (rtx : Rtx) (handed : List (Rtx × List UInt8)) : List (List UInt8) :=
  handed.filterMap fun entry => if entry.1 = rtx then some entry.2 else none

/-- What `ProcPPP` gets of a stream: a packet of neither direction is refused. -/
def delivered (rtx : Rtx) (stream : List UInt8) : List (List UInt8) :=
  if rtx = .none then [] else flagFrames stream

theorem frames_of_tagged (rtx way : Rtx) (frames : List (List UInt8)) :
    framesOf rtx (frames.map (fun frame => (way, frame))) = if way = rtx then frames else [] := by
  rw [framesOf, List.filterMap_map]
  split_ifs with same
  · subst same
    have tagged : ((fun entry : Rtx × List UInt8 => if entry.1 = way then some entry.2 else none) ∘
        fun frame => (way, frame)) = some := by
      funext frame
      exact if_pos rfl
    rw [tagged, List.filterMap_some]
  · have tagged : ((fun entry : Rtx × List UInt8 => if entry.1 = rtx then some entry.2 else none) ∘
        fun frame => (way, frame)) = fun _ => none := by
      funext frame
      exact if_neg same
    rw [tagged, List.filterMap_none]

theorem frames_of_append (rtx : Rtx) (front back : List (Rtx × List UInt8)) :
    framesOf rtx (front ++ back) = framesOf rtx front ++ framesOf rtx back := List.filterMap_append

/-- Every direction holds what came of its stream. -/
def SessHolds (sess : PSessData) (streams : Rtx → List UInt8) : Prop :=
  ∀ rtx info, sess.info rtx = some info → Holds info (streams rtx)

theorem info_bounded {info : PppInfo} {stream : List UInt8} (holds : Holds info stream) :
    info.buffer.length ≤ MAX_PPP_SIZE := by
  rcases holds with ⟨-, rfl | rfl⟩ | run
  · decide
  · decide
  · exact run.bounded

theorem info_set (sess : PSessData) (way rtx : Rtx) (info : PppInfo) :
    (sess.setInfo way info).info rtx =
      if way = rtx then (sess.info rtx).map (fun _ => info) else sess.info rtx := by
  cases way <;> cases rtx <;> rfl

/-- A packet moves its own direction on, and no other. -/
theorem packet_taken {sess : PSessData} {streams : Rtx → List UInt8} (holds : SessHolds sess streams)
    (packet : GrePacket) : ∃ ret frames sess', mergePPPData sess packet = some ((ret, frames), sess') ∧
      SessHolds sess' (fun rtx =>
        streams rtx ++ if packet.bRtxType = rtx then packet.data else []) ∧
      delivered packet.bRtxType (streams packet.bRtxType ++ packet.data) =
        delivered packet.bRtxType (streams packet.bRtxType) ++ frames := by
  cases found : sess.info packet.bRtxType with
  | none =>
      have neither : packet.bRtxType = .none := by
        cases way : packet.bRtxType
        all_goals simp_all [PSessData.info]
      refine ⟨-1, [], sess, by rw [mergePPPData, found], ?_, by simp [delivered, neither]⟩
      intro rtx info at_rtx
      have other : packet.bRtxType ≠ rtx := by
        rintro rfl
        rw [found] at at_rtx
        exact nomatch at_rtx
      dsimp only
      rw [if_neg other, List.append_nil]
      exact holds rtx info at_rtx
  | some info =>
      have stands := holds packet.bRtxType info found
      obtain ⟨info', frames, ran, after, framed⟩ := loop_taken (packet.data.length + 1) stands
        (gre_data_size_lt packet.analysed) (Nat.lt_succ_self _)
      refine ⟨0, frames, sess.setInfo packet.bRtxType info', ?_, ?_, ?_⟩
      · rw [mergePPPData, found]
        dsimp only
        rw [if_neg (Nat.not_lt.mpr (info_bounded stands)), ran]
        rfl
      · intro rtx moved at_rtx
        rw [info_set] at at_rtx
        dsimp only
        split_ifs at at_rtx ⊢ with same
        · subst same
          rw [found] at at_rtx
          obtain rfl := Option.some.inj at_rtx
          exact after
        · rw [List.append_nil]
          exact holds rtx moved at_rtx
      · have either : packet.bRtxType ≠ .none := by
          intro neither
          rw [neither] at found
          exact nomatch found
        rw [delivered, delivered, if_neg either, if_neg either, framed]

theorem packets_taken (packets : List GrePacket) : ∀ {sess : PSessData} {streams : Rtx → List UInt8},
    SessHolds sess streams → ∃ handed sess', mergePackets sess packets = some (handed, sess') ∧
      ∀ rtx, delivered rtx (streams rtx ++ streamOf rtx packets) =
        delivered rtx (streams rtx) ++ framesOf rtx handed := by
  induction packets with
  | nil =>
      intro sess streams holds
      exact ⟨[], sess, rfl, fun rtx => by simp [streamOf, framesOf]⟩
  | cons packet packets ih =>
      intro sess streams holds
      obtain ⟨ret, frames, sess', merged, after, framed⟩ := packet_taken holds packet
      obtain ⟨handed, final, rest, more⟩ := ih after
      refine ⟨frames.map (fun frame => (packet.bRtxType, frame)) ++ handed, final, ?_, ?_⟩
      · simp only [mergePackets, merged, rest, Option.bind_eq_bind, Option.bind_some]
      · intro rtx
        have later := more rtx
        rw [List.append_assoc] at later
        rw [streamOf, List.flatMap_cons, frames_of_append, frames_of_tagged]
        rw [streamOf] at later
        rw [later, ← List.append_assoc]
        congr 1
        split_ifs with same
        · subst same
          exact framed
        · rw [List.append_nil, List.append_nil]

theorem fresh_holds : SessHolds .fresh (fun _ => []) := by
  intro rtx info found
  have start : info = .fresh := by
    cases rtx
    all_goals simp_all [PSessData.info, PSessData.fresh]
  exact Or.inl ⟨rfl, Or.inl start⟩

/-- The frames of a direction are those of its stream, wherever it was cut and whatever came from
the other direction in between. -/
theorem packets_deliver (packets : List GrePacket) : ∃ handed sess,
    mergePackets .fresh packets = some (handed, sess) ∧
      ∀ rtx, framesOf rtx handed = delivered rtx (streamOf rtx packets) := by
  obtain ⟨handed, sess, ran, framed⟩ := packets_taken packets fresh_holds
  refine ⟨handed, sess, ran, fun rtx => ?_⟩
  have none_before : delivered rtx [] = [] := by
    unfold delivered
    split_ifs <;> rfl
  have whole := framed rtx
  rw [List.nil_append, none_before, List.nil_append] at whole
  exact whole.symm

end Packets

end Upst.Gre
