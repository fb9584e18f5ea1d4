import Upst.Cifo

/-!
How `cifo_chan_init` reads a line of the channel table. A line is the list of its
trimmed tokens.
-/

namespace Upst.Cifo

open Mems

set_option autoImplicit false

def MAX_CHAN_CNT : Nat := 1000
def DEF_CHANCONF_MEMBERS : Nat := 9

section Reading

/-- The duplicate check of a semaphore key, with the keys it compares. -/
def chanSemKeyTaken (chans : List ChanConf) (uiSemKey : Nat) : Bool :=
  chans.any fun chan =>
    (chan.uiWSemFlag == MEMS_SEMA_ON && chan.uiRSemKey == uiSemKey) ||
      (chan.uiRSemFlag == MEMS_SEMA_ON && chan.uiWSemKey == uiSemKey)

/-- One turn of the loop of `cifo_chan_init`, the switch on `dTokSize`. -/
def chanToken (chans : List ChanConf) (dTokSize : Nat) (pTok : List Char) (chan : ChanConf) :
    Except Int ChanConf :=
  match dTokSize with
  | 0 => do
      let uiChID ← defaultCheck pTok .zero
      if chans.length ≠ uiChID then .error DEF_ERR_EXIST
      else .ok { chan with uiChID := uiChID }
  | 1 => do
      let uiCellCnt ← defaultCheck pTok .more
      .ok { chan with uiCellCnt := uiCellCnt }
  | 2 => do
      let uiCellSize ← defaultCheck pTok .more
      .ok { chan with uiCellSize := uiCellSize }
  | 3 => do
      let uiWBuffCnt ← defaultCheck pTok .more
      .ok { chan with uiWBuffCnt := uiWBuffCnt }
  | 4 => do
      let uiRBuffCnt ← defaultCheck pTok .more
      .ok { chan with uiRBuffCnt := uiRBuffCnt }
  | 5 => do
      let uiWSemFlag ← defaultCheck pTok .bool
      .ok { chan with uiWSemFlag := uiWSemFlag }
  | 6 => do
      let uiWSemKey ← defaultCheck pTok .more
      if chan.uiWSemFlag = MEMS_SEMA_ON ∧ chanSemKeyTaken chans uiWSemKey then
        .error DEF_ERR_EXIST
      else .ok { chan with uiWSemKey := uiWSemKey }
  | 7 => do
      let uiRSemFlag ← defaultCheck pTok .bool
      .ok { chan with uiRSemFlag := uiRSemFlag }
  | 8 => do
      let uiRSemKey ← defaultCheck pTok .more
      if chan.uiRSemFlag = MEMS_SEMA_ON ∧ chanSemKeyTaken chans uiRSemKey then
        .error DEF_ERR_EXIST
      else .ok { chan with uiRSemKey := uiRSemKey }
  | _ => .error DEF_ERR_FORM

def chanTokens (chans : List ChanConf) :
    Nat → List (List Char) → ChanConf → Except Int (Nat × ChanConf)
  | dTokSize, [], chan => .ok (dTokSize, chan)
  | dTokSize, pTok :: rest, chan =>
      if pTok = [] ∨ pTok.head? = some '#' then .ok (dTokSize, chan)
      else do
        let chan ← chanToken chans dTokSize pTok chan
        chanTokens chans (dTokSize + 1) rest chan

/-- `locals` is what the locals of `cifo_chan_init` hold before they are set. -/
def cifoChanInit (locals : ChanConf) (chans : List ChanConf) (line : List (List Char)) :
    Except Int (List ChanConf) :=
  if chans.length > MAX_CHAN_CNT then .error DEF_MAX_OVERFLOW
  else do
    let (dTokSize, chan) ← chanTokens chans 0 line locals
    if dTokSize ≠ DEF_CHANCONF_MEMBERS then .error DEF_ERR_MEMBERS
    else .ok (chans ++ [chan])

/-- The channel table of `cifo_conf_init`, line by line. -/
def chanLines (locals : ChanConf) (chans : List ChanConf) :
    List (List (List Char)) → Except Int (List ChanConf)
  | [] => .ok chans
  | line :: rest => do
      let chans ← cifoChanInit locals chans line
      chanLines locals chans rest

end Reading

section Accepted

/-- A number that `atoi` finds positive is one as a `U32`. -/
theorem digits_cut (digits : Nat) (positive : 0 < (Int.ofNat (min digits (2 ^ 63 - 1))).bmod (2 ^ 32)) :
    0 < min digits (2 ^ 64 - 1) % 2 ^ 32 := by
  rcases Nat.le_total digits (2 ^ 63 - 1) with short | long
  · rw [Nat.min_eq_left short] at positive
    rw [Nat.min_eq_left (Nat.le_trans short (by decide))]
    by_contra zero
    have whole : (2 ^ 32 : Nat) ∣ digits := Nat.dvd_of_mod_eq_zero (by omega)
    have nothing : (Int.ofNat digits).bmod (2 ^ 32) = 0 :=
      Int.bmod_eq_zero_of_dvd (Int.natCast_dvd_natCast.mpr whole)
    rw [nothing] at positive
    exact absurd positive (by decide)
  · rw [Nat.min_eq_right long] at positive
    exact absurd positive (by decide)

theorem default_check_more {s : List Char} {value : Nat} (read : defaultCheck s .more = .ok value) :
    0 < value ∧ value < 2 ^ 32 := by
  unfold defaultCheck at read
  split at read
  · cases read
  · dsimp only at read
    split at read
    · cases read
    · next positive =>
        cases read
        exact ⟨digits_cut _ (Int.not_le.mp positive), Nat.mod_lt _ (by decide)⟩

end Accepted

section Lines

/-- The `U32` that a token of digits spells. -/
def tokenValue (s : List Char) : Nat := min (digitsValue s) (2 ^ 64 - 1) % 2 ^ 32

/-- The channel that the first nine tokens of a line spell. -/
def lineChan : List (List Char) → ChanConf
  | chID :: cellCnt :: cellSize :: wBuffCnt :: rBuffCnt :: wSemFlag :: wSemKey :: rSemFlag ::
      rSemKey :: _ =>
      { uiChID := tokenValue chID
        uiCellCnt := tokenValue cellCnt
        uiCellSize := tokenValue cellSize
        uiWBuffCnt := tokenValue wBuffCnt
        uiRBuffCnt := tokenValue rBuffCnt
        uiWSemFlag := tokenValue wSemFlag
        uiWSemKey := tokenValue wSemKey
        uiRSemFlag := tokenValue rSemFlag
        uiRSemKey := tokenValue rSemKey }
  | _ => ⟨0, 0, 0, 0, 0, 0, 0, 0, 0⟩

/-- A positive number of a `U32`. -/
def Counts (value : Nat) : Prop := 0 < value ∧ value < 2 ^ 32

/-- What the checks of a line say about the channel that it adds to those before. -/
structure ChanChecked (chans : List ChanConf) (chan : ChanConf) : Prop where
  chID : chan.uiChID = chans.length
  cellCnt : Counts chan.uiCellCnt
  cellSize : Counts chan.uiCellSize
  wBuffCnt : Counts chan.uiWBuffCnt
  rBuffCnt : Counts chan.uiRBuffCnt
  wSemKey : chan.uiWSemFlag = MEMS_SEMA_ON → chanSemKeyTaken chans chan.uiWSemKey = false
  rSemKey : chan.uiRSemFlag = MEMS_SEMA_ON → chanSemKeyTaken chans chan.uiRSemKey = false

variable {locals chan chan' : ChanConf} {chans chans' : List ChanConf}
  {line : List (List Char)} {dTokSize size : Nat}

theorem default_check_value {s : List Char} {flag : CheckFlag} {value : Nat}
    (read : defaultCheck s flag = .ok value) : value = tokenValue s := by
  unfold defaultCheck at read
  split at read
  · cases read
  · cases flag <;>
    · dsimp only at read
      split at read
      · cases read
      · cases read
        rfl

/-- A line whose loop goes on has one more token. -/
theorem chan_tokens_next (read : chanTokens chans dTokSize line chan = .ok (size, chan'))
    (more : size ≠ dTokSize) : ∃ pTok rest next, line = pTok :: rest ∧
      chanToken chans dTokSize pTok chan = .ok next ∧
      chanTokens chans (dTokSize + 1) rest next = .ok (size, chan') := by
  cases line with
  | nil =>
      cases read
      exact absurd rfl more
  | cons pTok rest =>
      unfold chanTokens at read
      split at read
      · cases read
        exact absurd rfl more
      · obtain ⟨next, token, later⟩ := bind_ok read
        exact ⟨pTok, rest, next, rfl, token, later⟩

/-- After nine tokens the loop ends. -/
theorem chan_tokens_last (read : chanTokens chans 9 line chan = .ok (9, chan')) :
    chan' = chan := by
  cases line with
  | nil =>
      cases read
      rfl
  | cons pTok rest =>
      unfold chanTokens at read
      split at read
      · cases read
        rfl
      · cases read

/-- A token whose key is looked up among the channels before. -/
theorem key_checked {flag key : Nat} {result chan : ChanConf}
    (read : (if flag = MEMS_SEMA_ON ∧ chanSemKeyTaken chans key then .error DEF_ERR_EXIST
      else .ok result : Except Int ChanConf) = .ok chan) :
    chan = result ∧ (flag = MEMS_SEMA_ON → chanSemKeyTaken chans key = false) := by
  split at read
  · cases read
  · next missing =>
      cases read
      refine ⟨rfl, fun on => ?_⟩
      rw [Bool.eq_false_iff]
      exact fun taken => missing ⟨on, taken⟩

theorem chan_init_checked (read : cifoChanInit locals chans line = .ok chans') :
    chans' = chans ++ [lineChan line] ∧ ChanChecked chans (lineChan line) := by
  unfold cifoChanInit at read
  split at read
  · cases read
  · obtain ⟨⟨size, chan⟩, tokens, stored⟩ := bind_ok read
    dsimp only at stored
    split at stored
    · cases stored
    · next full =>
        cases stored
        obtain rfl : size = 9 := not_not.mp full
        obtain ⟨t0, line, c0, rfl, token, tokens⟩ := chan_tokens_next tokens (by decide)
        obtain ⟨v0, check0, kept⟩ := bind_ok token
        split at kept
        · cases kept
        next own =>
        cases kept
        obtain ⟨t1, line, c1, rfl, token, tokens⟩ := chan_tokens_next tokens (by decide)
        obtain ⟨v1, check1, kept⟩ := bind_ok token
        cases kept
        dsimp only at tokens
        obtain ⟨t2, line, c2, rfl, token, tokens⟩ := chan_tokens_next tokens (by decide)
        obtain ⟨v2, check2, kept⟩ := bind_ok token
        cases kept
        dsimp only at tokens
        obtain ⟨t3, line, c3, rfl, token, tokens⟩ := chan_tokens_next tokens (by decide)
        obtain ⟨v3, check3, kept⟩ := bind_ok token
        cases kept
        dsimp only at tokens
        obtain ⟨t4, line, c4, rfl, token, tokens⟩ := chan_tokens_next tokens (by decide)
        obtain ⟨v4, check4, kept⟩ := bind_ok token
        cases kept
        dsimp only at tokens
        obtain ⟨t5, line, c5, rfl, token, tokens⟩ := chan_tokens_next tokens (by decide)
        obtain ⟨v5, check5, kept⟩ := bind_ok token
        cases kept
        dsimp only at tokens
        obtain ⟨t6, line, c6, rfl, token, tokens⟩ := chan_tokens_next tokens (by decide)
        obtain ⟨v6, check6, kept⟩ := bind_ok token
        obtain ⟨rfl, unused6⟩ := key_checked kept
        dsimp only at tokens unused6
        obtain ⟨t7, line, c7, rfl, token, tokens⟩ := chan_tokens_next tokens (by decide)
        obtain ⟨v7, check7, kept⟩ := bind_ok token
        cases kept
        dsimp only at tokens
        obtain ⟨t8, line, c8, rfl, token, tokens⟩ := chan_tokens_next tokens (by decide)
        obtain ⟨v8, check8, kept⟩ := bind_ok token
        obtain ⟨rfl, unused8⟩ := key_checked kept
        dsimp only at tokens unused8
        obtain rfl := chan_tokens_last tokens
        have spelled : lineChan (t0 :: t1 :: t2 :: t3 :: t4 :: t5 :: t6 :: t7 :: t8 :: line) =
            ⟨v0, v1, v2, v3, v4, v5, v6, v7, v8⟩ := by
          rw [lineChan, ← default_check_value check0, ← default_check_value check1,
            ← default_check_value check2, ← default_check_value check3,
            ← default_check_value check4, ← default_check_value check5,
            ← default_check_value check6, ← default_check_value check7,
            ← default_check_value check8]
        rw [spelled]
        exact ⟨rfl, (not_not.mp own).symm, default_check_more check1, default_check_more check2,
          default_check_more check3, default_check_more check4, unused6, unused8⟩

/-- The channels that the lines spell are those that are read, each checked against the ones
before. -/
theorem chan_lines_checked : ∀ {lines : List (List (List Char))} {chans : List ChanConf},
    chanLines locals chans lines = .ok chans' → chans' = chans ++ lines.map lineChan ∧
      ∀ index chan, (lines.map lineChan)[index]? = some chan →
        ChanChecked (chans ++ (lines.map lineChan).take index) chan := by
  intro lines
  induction lines with
  | nil =>
      intro chans read
      cases read
      simp
  | cons line rest ih =>
      intro chans read
      obtain ⟨next, first, later⟩ := bind_ok read
      obtain ⟨rfl, checked⟩ := chan_init_checked first
      obtain ⟨rfl, others⟩ := ih later
      refine ⟨by simp, ?_⟩
      intro index chan found
      cases index with
      | zero =>
          cases found
          simpa using checked
      | succ index =>
          have own := others index chan (by simpa using found)
          simpa using own

end Lines

end Upst.Cifo
