import Upst.GifoLoad

/-!
`nifo_zone_conf_init` from the text on: three keys, the table of the zones, and the zone of each
process, read into a structure that nobody has cleared. The arrays have ten zones and a thousand
processes.
-/

namespace Upst.Mems

open Gifo

set_option autoImplicit false

section Code

/-- `st_MEMSCONF` with its first two numbers. -/
structure StMemsConf extends NifoConf where
  uiType : Nat
  uiShmKey : Nat

/-- One of the first three lines. -/
def nifoKeyLine (conf : StMemsConf) (buf : List Char) : Except Failure StMemsConf :=
  if ∃ word ∈ scanWords buf, 64 ≤ word.length then .error .outside
  else
    match scanWords buf with
    | [szType, _, szInfo] =>
        if szType = "uiType".toList then do
          let uiType ← checked (defaultCheck szInfo .zero)
          .ok { conf with uiType := uiType }
        else if szType = "uiShmKey".toList then do
          let uiShmKey ← checked (defaultCheck szInfo .zero)
          .ok { conf with uiShmKey := uiShmKey }
        else if szType = "uiHeadRoomSize".toList then do
          let uiHeadRoomSize ← checked (defaultCheck szInfo .zero)
          .ok { conf with uiHeadRoomSize := uiHeadRoomSize }
        else .error (.rejected DEF_ERR_FORM)
    | _ => .error (.rejected DEF_ERR_FORM)

/-- The tokens that `zone_conf_init` is called with. -/
def zoneFields (buf : List Char) : List (List Char) := (strtok '/' (uncomment buf)).map trim

/-- `zone_conf_init` stores the zone at `stMEMSZONECONF[uiZoneCnt]`. -/
def zoneLine (conf : NifoConf) (buf : List Char) : Except Failure NifoConf := do
  let after ← checked (zoneConfInit conf (zoneFields buf))
  if conf.uiZoneCnt < MAX_MEMSZONE_CNT then .ok after else .error .outside

/-- The first token of a line of the matrix. -/
def matrixProc (conf : NifoConf) (pTok : List Char) : Except Failure Nat := do
  let uiProcID ← checked (defaultCheck pTok .zero)
  if MAX_SEQ_PROC_NUM ≤ uiProcID then .error .outside
  else if conf.uiMatrixZoneID uiProcID ≠ INVALID_ID then .error (.rejected DEF_ERR_EXIST)
  else .ok uiProcID

/-- The second token of a line of the matrix. -/
def matrixZone (conf : NifoConf) (pTok : List Char) : Except Failure Nat := do
  let uiZoneID ← checked (defaultCheck pTok .zero)
  if MAX_MEMSZONE_CNT ≤ uiZoneID then .error .outside
  else if (conf.stMEMSZONECONF uiZoneID).uiZoneID ≠ uiZoneID then
    .error (.rejected DEF_ERR_NOT_EXIST)
  else .ok uiZoneID

/-- The tokens that `zone_proc_conf` looks at. -/
def procFields (buf : List Char) : List (List Char) :=
  (upToComment (strtok '/' (uncomment buf))).take 2

def zoneProcConf (conf : NifoConf) (buf : List Char) : Except Failure NifoConf :=
  match procFields buf with
  | [proc, zone] => do
      let uiProcID ← matrixProc conf proc
      let uiZoneID ← matrixZone conf zone
      if uiProcID > MAX_SEQ_PROC_NUM then .error (.rejected DEF_MAX_OVERFLOW)
      else .ok { conf with
        uiMatrixZoneID := Function.update conf.uiMatrixZoneID uiProcID uiZoneID }
  | [proc] => do
      let _ ← matrixProc conf proc
      .error (.rejected DEF_ERR_MEMBERS)
  | _ => .error (.rejected DEF_ERR_MEMBERS)

def endZone : List Char := "END_ZONE".toList
def endMatrix : List Char := "END_MATRIX".toList

/-- One turn of the loop of `nifo_zone_conf_init`, with `dCnt`, which is 5 behind the loop. -/
def nifoLine (state : Nat × StMemsConf) (buf : List Char) : Except Failure (Nat × StMemsConf) :=
  if state.1 < 3 then do
    let conf ← nifoKeyLine state.2 buf
    .ok (state.1 + 1, conf)
  else if state.1 = 3 then
    if uncomment buf = endZone then .ok (4, state.2)
    else do
      let conf ← zoneLine state.2.toNifoConf buf
      .ok (3, { state.2 with toNifoConf := conf })
  else if state.1 = 4 then
    if uncomment buf = endMatrix then .ok (5, state.2)
    else do
      let conf ← zoneProcConf state.2.toNifoConf buf
      .ok (4, { state.2 with toNifoConf := conf })
  else .ok state

/-- The structure before the first line. -/
def zoneStart (raw : StMemsConf) : StMemsConf :=
  { raw with uiZoneCnt := 0, uiMatrixZoneID := fun _ => INVALID_ID }

def nifoLines (raw : StMemsConf) (lines : List (List Char)) : Except Failure (Nat × StMemsConf) :=
  lines.foldlM nifoLine (0, zoneStart raw)

def nifoZoneConfInit (raw : StMemsConf) (text : List Char) : Except Failure StMemsConf := do
  let (_, conf) ← nifoLines raw (confLines text)
  .ok conf

end Code

section Conditions

/-- What a line of the matrix may spell: a process of the array, and where that one has no zone
yet, a zone of the array. -/
def ProcInside (conf : NifoConf) (line : List Char) : Prop :=
  ∀ pTok, (procFields line)[0]? = some pTok → ∀ uiProcID, defaultCheck pTok .zero = .ok uiProcID →
    uiProcID < MAX_SEQ_PROC_NUM ∧ (conf.uiMatrixZoneID uiProcID = INVALID_ID →
      ∀ pTok, (procFields line)[1]? = some pTok →
        ∀ uiZoneID, defaultCheck pTok .zero = .ok uiZoneID → uiZoneID < MAX_MEMSZONE_CNT)

/-- What a line may spell where it is read: short words for a key, no eleventh zone that passes
the checks, and numbers of the arrays in the matrix. -/
structure LineInside (state : Nat × StMemsConf) (line : List Char) : Prop where
  key : state.1 < 3 → WordsFit line
  zone : state.1 = 3 → uncomment line ≠ endZone → MAX_MEMSZONE_CNT ≤ state.2.uiZoneCnt →
    ∀ conf, zoneConfInit state.2.toNifoConf (zoneFields line) ≠ .ok conf
  proc : state.1 = 4 → uncomment line ≠ endMatrix → ProcInside state.2.toNifoConf line

/-- The parts of the file that lines have filled. -/
structure Parts where
  dCnt : Nat
  zones : List (List Char)
  procs : List (List Char)

def Parts.add (parts : Parts) (line : List Char) : Parts :=
  if parts.dCnt < 3 then { parts with dCnt := parts.dCnt + 1 }
  else if parts.dCnt = 3 then
    if uncomment line = endZone then { parts with dCnt := 4 }
    else { parts with zones := parts.zones ++ [line] }
  else if parts.dCnt = 4 then
    if uncomment line = endMatrix then { parts with dCnt := 5 }
    else { parts with procs := parts.procs ++ [line] }
  else parts

def partsOf (lines : List (List Char)) : Parts := lines.foldl Parts.add ⟨0, [], []⟩

/-- The lines of the zone table. -/
def zoneTable (text : List Char) : List (List Char) := (partsOf (confLines text)).zones

/-- The lines of the matrix. -/
def procTable (text : List Char) : List (List Char) := (partsOf (confLines text)).procs

/-- The loader stays in its arrays, and the zones it maps processes to are among those read. -/
structure LoadsSafely (raw : StMemsConf) (text : List Char) : Prop where
  inside : nifoZoneConfInit raw text ≠ .error .outside
  zones : ∀ conf, nifoZoneConfInit raw text = .ok conf → conf.uiZoneCnt ≤ MAX_MEMSZONE_CNT
  mapped : ∀ conf, nifoZoneConfInit raw text = .ok conf →
    ∀ proc, conf.uiMatrixZoneID proc ≠ INVALID_ID →
      proc < MAX_SEQ_PROC_NUM ∧ conf.uiMatrixZoneID proc < conf.uiZoneCnt

end Conditions

section Inside

variable {α β State Line : Type} {x : Except Failure α} {f : α → Except Failure β}
  {conf : NifoConf} {line : List Char}

theorem bind_outside_iff :
    (x >>= f) = .error .outside ↔ x = .error .outside ∨ ∃ a, x = .ok a ∧ f a = .error .outside := by
  cases x with
  | error failure =>
      constructor
      · intro outside
        cases outside
        exact Or.inl rfl
      · rintro (same | ⟨a, read, -⟩)
        · cases same
          rfl
        · cases read
  | ok a =>
      constructor
      · intro outside
        exact Or.inr ⟨a, rfl, outside⟩
      · rintro (same | ⟨a', read, outside⟩)
        · cases same
        · cases read
          exact outside

/-- The lines stay in the arrays where each line does that is read. -/
theorem fold_outside_iff {step : State → Line → Except Failure State} (lines : List Line) :
    ∀ state, lines.foldlM step state ≠ .error .outside ↔
      ∀ before line after reached, lines = before ++ line :: after →
        before.foldlM step state = .ok reached → step reached line ≠ .error .outside := by
  induction lines with
  | nil =>
      intro state
      refine ⟨?_, fun _ => nofun⟩
      intro _ before line after reached whole
      exact absurd whole (by simp)
  | cons first rest ih =>
      intro state
      rw [List.foldlM_cons, Ne, bind_outside_iff, not_or, not_exists]
      constructor
      · rintro ⟨inside, later⟩ before line after reached whole ran
        cases before with
        | nil =>
            cases whole
            cases ran
            exact inside
        | cons other before =>
            cases whole
            rw [List.foldlM_cons] at ran
            obtain ⟨next, stepped, ran⟩ := bind_ok ran
            exact (ih next).mp (fun outside => later next ⟨stepped, outside⟩) before line after
              reached rfl ran
      · intro each
        refine ⟨each [] first rest state rfl rfl, ?_⟩
        rintro next ⟨stepped, outside⟩
        refine (ih next).mpr ?_ outside
        intro before line after reached whole ran
        refine each (first :: before) line after reached (by rw [whole]; rfl) ?_
        rw [List.foldlM_cons, stepped]
        exact ran

theorem checked_ok_iff {result : Except Int α} {a : α} : checked result = .ok a ↔ result = .ok a := by
  cases result with
  | error dRet => exact ⟨nofun, nofun⟩
  | ok b => exact ⟨fun same => by cases same; rfl, fun same => by cases same; rfl⟩

theorem nifo_key_inside_iff {conf : StMemsConf} :
    nifoKeyLine conf line ≠ .error .outside ↔ WordsFit line := by
  constructor
  · intro inside word member
    by_contra long
    apply inside
    rw [nifoKeyLine, if_pos ⟨word, member, Nat.le_of_not_lt long⟩]
  · intro fits
    have short : ¬∃ word ∈ scanWords line, 64 ≤ word.length := by
      rintro ⟨word, member, long⟩
      exact Nat.not_le.mpr (fits word member) long
    rw [nifoKeyLine, if_neg short]
    split
    · split
      · exact bind_inside (checked_inside _) fun _ _ => nofun
      · split
        · exact bind_inside (checked_inside _) fun _ _ => nofun
        · split
          · exact bind_inside (checked_inside _) fun _ _ => nofun
          · nofun
    · nofun

theorem zone_line_inside_iff :
    zoneLine conf line ≠ .error .outside ↔
      (MAX_MEMSZONE_CNT ≤ conf.uiZoneCnt → ∀ after, zoneConfInit conf (zoneFields line) ≠ .ok after) := by
  rw [zoneLine, Ne, bind_outside_iff, not_or, not_exists]
  constructor
  · rintro ⟨-, each⟩ full after read
    apply each after
    exact ⟨checked_ok_iff.mpr read, if_neg (Nat.not_lt.mpr full)⟩
  · intro refused
    refine ⟨checked_inside _, ?_⟩
    rintro after ⟨read, outside⟩
    split at outside
    · cases outside
    next full => exact refused (Nat.le_of_not_lt full) after (checked_ok_iff.mp read)

theorem matrix_proc_ok {pTok : List Char} {uiProcID : Nat} :
    matrixProc conf pTok = .ok uiProcID ↔ defaultCheck pTok .zero = .ok uiProcID ∧
      uiProcID < MAX_SEQ_PROC_NUM ∧ conf.uiMatrixZoneID uiProcID = INVALID_ID := by
  constructor
  · intro ran
    obtain ⟨value, read, ran⟩ := bind_ok ran
    split at ran
    · cases ran
    next small =>
      split at ran
      · cases ran
      next unused =>
        cases ran
        exact ⟨checked_ok_iff.mp read, Nat.lt_of_not_le small, not_not.mp unused⟩
  · rintro ⟨read, small, unused⟩
    rw [matrixProc, checked_ok_iff.mpr read]
    exact (if_neg (Nat.not_le.mpr small)).trans (if_neg (not_not.mpr unused))

theorem matrix_proc_inside_iff {pTok : List Char} :
    matrixProc conf pTok ≠ .error .outside ↔
      ∀ uiProcID, defaultCheck pTok .zero = .ok uiProcID → uiProcID < MAX_SEQ_PROC_NUM := by
  rw [matrixProc, Ne, bind_outside_iff, not_or, not_exists]
  constructor
  · rintro ⟨-, each⟩ uiProcID read
    by_contra large
    apply each uiProcID
    exact ⟨checked_ok_iff.mpr read, if_pos (Nat.le_of_not_lt large)⟩
  · intro small
    refine ⟨checked_inside _, ?_⟩
    rintro uiProcID ⟨read, outside⟩
    rw [if_neg (Nat.not_le.mpr (small uiProcID (checked_ok_iff.mp read)))] at outside
    split at outside
    · cases outside
    · cases outside

theorem matrix_zone_inside_iff {pTok : List Char} :
    matrixZone conf pTok ≠ .error .outside ↔
      ∀ uiZoneID, defaultCheck pTok .zero = .ok uiZoneID → uiZoneID < MAX_MEMSZONE_CNT := by
  rw [matrixZone, Ne, bind_outside_iff, not_or, not_exists]
  constructor
  · rintro ⟨-, each⟩ uiZoneID read
    by_contra large
    apply each uiZoneID
    exact ⟨checked_ok_iff.mpr read, if_pos (Nat.le_of_not_lt large)⟩
  · intro small
    refine ⟨checked_inside _, ?_⟩
    rintro uiZoneID ⟨read, outside⟩
    rw [if_neg (Nat.not_le.mpr (small uiZoneID (checked_ok_iff.mp read)))] at outside
    split at outside
    · cases outside
    · cases outside

theorem proc_conf_inside_iff : zoneProcConf conf line ≠ .error .outside ↔ ProcInside conf line := by
  unfold zoneProcConf ProcInside
  split
  next proc zone fields =>
    simp only [fields, List.getElem?_cons_zero, List.getElem?_cons_succ, Option.some.injEq,
      forall_eq']
    rw [Ne, bind_outside_iff, not_or, not_exists, ← Ne, matrix_proc_inside_iff]
    constructor
    · rintro ⟨small, each⟩ uiProcID read
      refine ⟨small uiProcID read, ?_⟩
      intro unused
      rw [← @matrix_zone_inside_iff conf zone]
      intro outside
      apply each uiProcID
      refine ⟨matrix_proc_ok.mpr ⟨read, small uiProcID read, unused⟩, ?_⟩
      rw [outside]
      rfl
    · intro inside
      refine ⟨fun uiProcID read => (inside uiProcID read).1, ?_⟩
      rintro uiProcID ⟨ran, outside⟩
      obtain ⟨read, small, unused⟩ := matrix_proc_ok.mp ran
      rcases bind_outside_iff.mp outside with left | ⟨uiZoneID, -, stored⟩
      · exact matrix_zone_inside_iff.mpr ((inside uiProcID read).2 unused) left
      · rw [if_neg (by omega)] at stored
        cases stored
  next proc fields =>
    simp only [fields, List.getElem?_cons_zero, List.getElem?_cons_succ, Option.some.injEq,
      forall_eq']
    rw [Ne, bind_outside_iff, not_or, not_exists, ← Ne, matrix_proc_inside_iff]
    constructor
    · rintro ⟨small, -⟩ uiProcID read
      exact ⟨small uiProcID read, fun _ => nofun⟩
    · intro inside
      exact ⟨fun uiProcID read => (inside uiProcID read).1, fun uiProcID ran => nomatch ran.2⟩
  next two one =>
    have few : procFields line = [] := by
      have short : (procFields line).length ≤ 2 := List.length_take_le _ _
      match fields : procFields line with
      | [] => rfl
      | [proc] => exact absurd fields (one proc)
      | [proc, zone] => exact absurd fields (two proc zone)
      | _ :: _ :: _ :: _ =>
          rw [fields] at short
          simp only [List.length_cons] at short
          omega
    simp [few]

/-- What `LineInside` asks of a line is what keeps the loop in the arrays. -/
theorem line_inside_iff {state : Nat × StMemsConf} :
    nifoLine state line ≠ .error .outside ↔ LineInside state line := by
  have next_inside : ∀ {γ δ : Type} {first : Except Failure γ} (wrap : γ → δ),
      (first >>= fun conf => .ok (wrap conf)) = (.error .outside : Except Failure δ) ↔
        first = .error .outside := by
    intro γ δ first wrap
    rw [bind_outside_iff]
    exact or_iff_left (by rintro ⟨conf, -, stored⟩; cases stored)
  unfold nifoLine
  split
  next key =>
    rw [Ne, next_inside, ← Ne, nifo_key_inside_iff]
    exact ⟨fun fits => ⟨fun _ => fits, fun zone => by omega, fun proc => by omega⟩,
      fun inside => inside.key key⟩
  next notKey =>
    split
    next zone =>
      split
      next mark =>
        exact ⟨fun _ => ⟨fun key => absurd key notKey, fun _ other => absurd mark other,
          fun proc => by omega⟩, fun _ => nofun⟩
      next other =>
        rw [Ne, next_inside, ← Ne, zone_line_inside_iff]
        exact ⟨fun refused => ⟨fun key => absurd key notKey, fun _ _ => refused,
          fun proc => by omega⟩, fun inside => inside.zone zone other⟩
    next notZone =>
      split
      next proc =>
        split
        next mark =>
          exact ⟨fun _ => ⟨fun key => absurd key notKey, fun zone => absurd zone notZone,
            fun _ other => absurd mark other⟩, fun _ => nofun⟩
        next other =>
          rw [Ne, next_inside, ← Ne, proc_conf_inside_iff]
          exact ⟨fun small => ⟨fun key => absurd key notKey, fun zone => absurd zone notZone,
            fun _ _ => small⟩, fun inside => inside.proc proc other⟩
      next notProc =>
        exact ⟨fun _ => ⟨fun key => absurd key notKey, fun zone => absurd zone notZone,
          fun proc => absurd proc notProc⟩, fun _ => nofun⟩

end Inside

section Reached

variable {raw : StMemsConf} {conf conf' : NifoConf} {state after : Nat × StMemsConf}
  {before : List (List Char)} {line : List Char}

/-- What a line of the matrix declares: the process and its zone. -/
def declaredProc (line : List Char) : Nat × Nat := (numberAt line 0, numberAt line 1)

theorem zone_line_ok (ran : zoneLine conf line = .ok conf') :
    conf.uiZoneCnt < MAX_MEMSZONE_CNT ∧ conf'.uiZoneCnt = conf.uiZoneCnt + 1 ∧
      conf'.uiMatrixZoneID = conf.uiMatrixZoneID := by
  obtain ⟨read, checks, ran⟩ := bind_ok ran
  split at ran
  next room =>
    cases ran
    refine ⟨room, ?_⟩
    have stored := checked_ok_iff.mp checks
    unfold zoneConfInit at stored
    split at stored
    · cases stored
    · obtain ⟨⟨dTokSize, zone⟩, -, stored⟩ := bind_ok stored
      dsimp only at stored
      split at stored
      · cases stored
      · cases stored
        exact ⟨rfl, rfl⟩
  next => cases ran

theorem zone_proc_ok (ran : zoneProcConf conf line = .ok conf') :
    (declaredProc line).1 < MAX_SEQ_PROC_NUM ∧ (declaredProc line).2 < MAX_MEMSZONE_CNT ∧
      conf.uiMatrixZoneID (declaredProc line).1 = INVALID_ID ∧
      conf' = { conf with
        uiMatrixZoneID :=
          Function.update conf.uiMatrixZoneID (declaredProc line).1 (declaredProc line).2 } := by
  unfold zoneProcConf at ran
  split at ran
  next proc zone fields =>
    have first : numberAt line 0 = number proc := number_at fields (by decide : 0 < 2)
    have second : numberAt line 1 = number zone := number_at fields (by decide : 1 < 2)
    obtain ⟨uiProcID, process, ran⟩ := bind_ok ran
    obtain ⟨uiZoneID, zoned, ran⟩ := bind_ok ran
    obtain ⟨read, small, unused⟩ := matrix_proc_ok.mp process
    obtain ⟨value, read', zoned⟩ := bind_ok zoned
    obtain rfl := (check_number (checked_ok_iff.mpr read)).trans first.symm
    obtain rfl := (check_number read').trans second.symm
    split at zoned
    · cases zoned
    next few =>
      split at zoned
      · cases zoned
      · cases zoned
        split at ran
        · cases ran
        · cases ran
          exact ⟨small, Nat.lt_of_not_le few, unused, rfl⟩
  next =>
    obtain ⟨value, -, ran⟩ := bind_ok ran
    cases ran
  next => cases ran

/-- The loader behind some lines: how far it is, and what it has read. -/
structure Reached (parts : Parts) (state : Nat × StMemsConf) : Prop where
  dCnt : state.1 = parts.dCnt
  count : state.2.uiZoneCnt = parts.zones.length
  few : state.2.uiZoneCnt ≤ MAX_MEMSZONE_CNT
  filled : Gifo.Filled state.2.uiMatrixZoneID (parts.procs.map declaredProc)
  procs : ∀ line ∈ parts.procs, (declaredProc line).1 < MAX_SEQ_PROC_NUM

theorem key_line_kept {conf conf' : StMemsConf} (ran : nifoKeyLine conf line = .ok conf') :
    conf'.uiZoneCnt = conf.uiZoneCnt ∧ conf'.uiMatrixZoneID = conf.uiMatrixZoneID := by
  unfold nifoKeyLine at ran
  split at ran
  · cases ran
  · split at ran
    · split at ran
      · obtain ⟨value, -, ran⟩ := bind_ok ran
        cases ran
        exact ⟨rfl, rfl⟩
      · split at ran
        · obtain ⟨value, -, ran⟩ := bind_ok ran
          cases ran
          exact ⟨rfl, rfl⟩
        · split at ran
          · obtain ⟨value, -, ran⟩ := bind_ok ran
            cases ran
            exact ⟨rfl, rfl⟩
          · cases ran
    · cases ran

theorem reached_line {parts : Parts} (reached : Reached parts state)
    (ran : nifoLine state line = .ok after) : Reached (parts.add line) after := by
  have place := reached.dCnt
  unfold nifoLine at ran
  unfold Parts.add
  rw [← place]
  split at ran
  next key =>
    obtain ⟨conf, read, ran⟩ := bind_ok ran
    cases ran
    obtain ⟨count, matrix⟩ := key_line_kept read
    rw [if_pos key]
    refine ⟨rfl, count.trans reached.count, ?_, ?_, reached.procs⟩
    · rw [count]
      exact reached.few
    · rw [matrix]
      exact reached.filled
  next notKey =>
    rw [if_neg notKey]
    split at ran
    next zone =>
      rw [if_pos zone]
      split at ran
      next mark =>
        cases ran
        rw [if_pos mark]
        exact ⟨rfl, reached.count, reached.few, reached.filled, reached.procs⟩
      next other =>
        obtain ⟨conf, read, ran⟩ := bind_ok ran
        cases ran
        obtain ⟨room, count, matrix⟩ := zone_line_ok read
        rw [if_neg other]
        refine ⟨zone.symm, ?_, ?_, ?_, reached.procs⟩
        · rw [count, reached.count, List.length_append, List.length_singleton]
        · rw [count]
          exact room
        · rw [matrix]
          exact reached.filled
    next notZone =>
      rw [if_neg notZone]
      split at ran
      next proc =>
        rw [if_pos proc]
        split at ran
        next mark =>
          cases ran
          rw [if_pos mark]
          exact ⟨rfl, reached.count, reached.few, reached.filled, reached.procs⟩
        next other =>
          obtain ⟨conf, read, ran⟩ := bind_ok ran
          cases ran
          obtain ⟨small, few, unused, rfl⟩ := zone_proc_ok read
          have valid : (declaredProc line).2 ≠ INVALID_ID := by
            intro same
            rw [same] at few
            exact absurd few (by decide)
          rw [if_neg other]
          refine ⟨proc.symm, reached.count, reached.few, ?_, ?_⟩
          · rw [List.map_append, List.map_singleton]
            exact filled_snoc reached.filled unused valid
          · intro other member
            rcases List.mem_append.mp member with old | new
            · exact reached.procs other old
            · rw [List.mem_singleton.mp new]
              exact small
      next notProc =>
        cases ran
        rw [if_neg notProc]
        exact reached

theorem nifo_lines_reached {lines : List (List Char)} (ran : nifoLines raw lines = .ok state) :
    Reached (partsOf lines) state := by
  have start : Reached (partsOf []) (0, zoneStart raw) :=
    ⟨rfl, rfl, Nat.zero_le _, filled_nil, nofun⟩
  have keeps : ∀ before line state after, Reached (partsOf before) state →
      nifoLine state line = .ok after → Reached (partsOf (before ++ [line])) after := by
    intro before line state after reached stepped
    rw [partsOf, List.foldl_append]
    exact reached_line reached stepped
  exact @fold_reaches _ _ _ (fun before => Reached (partsOf before)) keeps lines [] _ _ start ran

theorem conf_init_ok_iff {text : List Char} {conf : StMemsConf} :
    nifoZoneConfInit raw text = .ok conf ↔ ∃ dCnt, nifoLines raw (confLines text) = .ok (dCnt, conf) := by
  constructor
  · intro ran
    obtain ⟨⟨dCnt, final⟩, lines, ran⟩ := bind_ok ran
    cases ran
    exact ⟨dCnt, lines⟩
  · rintro ⟨dCnt, lines⟩
    rw [nifoZoneConfInit, lines]
    rfl

/-- Where every line is read inside the arrays, and the lines of an accepted text map processes
to zones of its table only, the loader is safe; and only there. -/
theorem zone_loader_safe_iff (raw : StMemsConf) (text : List Char) :
    LoadsSafely raw text ↔
      (∀ before line behind state, confLines text = before ++ line :: behind →
        nifoLines raw before = .ok state → LineInside state line) ∧
      (∀ state, nifoLines raw (confLines text) = .ok state →
        ∀ line ∈ procTable text, (declaredProc line).2 < (zoneTable text).length) := by
  have inside : nifoZoneConfInit raw text ≠ .error .outside ↔
      ∀ before line behind state, confLines text = before ++ line :: behind →
        nifoLines raw before = .ok state → LineInside state line := by
    have loop := @fold_outside_iff _ _ nifoLine (confLines text) (0, zoneStart raw)
    simp only [line_inside_iff] at loop
    refine Iff.trans ?_ loop
    rw [nifoZoneConfInit, Ne, bind_outside_iff]
    refine not_congr (or_iff_left ?_)
    rintro ⟨state, -, stored⟩
    cases stored
  constructor
  · intro safe
    refine ⟨inside.mp safe.inside, ?_⟩
    rintro ⟨dCnt, conf⟩ ran line member
    have reached := nifo_lines_reached ran
    have entry := reached.filled.entry _ (List.mem_map_of_mem member)
    have used : conf.uiMatrixZoneID (declaredProc line).1 ≠ INVALID_ID := by
      rw [entry.1]
      exact entry.2
    have mapped := (safe.mapped conf (conf_init_ok_iff.mpr ⟨dCnt, ran⟩) _ used).2
    rw [entry.1, reached.count] at mapped
    exact mapped
  · rintro ⟨each, declared⟩
    refine ⟨inside.mpr each, ?_, ?_⟩
    · intro conf ran
      obtain ⟨dCnt, ran⟩ := conf_init_ok_iff.mp ran
      exact (nifo_lines_reached ran).few
    · intro conf ran proc used
      obtain ⟨dCnt, ran⟩ := conf_init_ok_iff.mp ran
      have reached := nifo_lines_reached ran
      constructor
      · by_contra large
        apply used
        apply reached.filled.free
        intro listed
        obtain ⟨entry, member, rfl⟩ := List.mem_map.mp listed
        obtain ⟨line, read, rfl⟩ := List.mem_map.mp member
        exact large (reached.procs line read)
      · rw [reached.count]
        apply filled_small reached.filled _ used
        intro entry member
        obtain ⟨line, read, rfl⟩ := List.mem_map.mp member
        exact declared _ ran line read

end Reached

section Examples

/-- The zones of an earlier load, each with its own number. -/
def usedConf : StMemsConf where
  uiHeadRoomSize := 0
  uiZoneCnt := 10
  stMEMSZONECONF := fun index => ⟨⟨index, 72, 1⟩, 0, 1⟩
  uiMatrixZoneID := fun _ => 0
  uiType := 2
  uiShmKey := 8001

def confKeys : List Char := "uiType = 2\nuiShmKey = 8001\nuiHeadRoomSize = 0\n".toList

/-- One zone, and a process mapped to `zone`. -/
def oneZoneText (proc zone : String) : List Char :=
  confKeys ++ "0/0/1/72/1\nEND_ZONE#\n".toList ++ proc.toList ++ "/".toList ++ zone.toList ++
    "\nEND_MATRIX#\n".toList

def elevenZones : List Char :=
  confKeys ++ "0/0/1/72/1\n1/0/1/72/1\n2/0/1/72/1\n3/0/1/72/1\n4/0/1/72/1\n5/0/1/72/1\n".toList ++
    "6/0/1/72/1\n7/0/1/72/1\n8/0/1/72/1\n9/0/1/72/1\n10/0/1/72/1\n".toList

/-- Process 7 is mapped to the sixth zone, where the text has one; process 1000 and zone 10 are
looked up behind their arrays, and an eleventh zone is stored behind its. -/
theorem loader_leaves_arrays :
    ((nifoZoneConfInit usedConf (oneZoneText "7" "5")).map fun conf =>
        (conf.uiZoneCnt, conf.uiMatrixZoneID 7)) = .ok (1, 5) ∧
      ((nifoZoneConfInit usedConf (oneZoneText "1000" "0")).map fun _ => ()) = .error .outside ∧
      ((nifoZoneConfInit usedConf (oneZoneText "7" "10")).map fun _ => ()) = .error .outside ∧
      ((nifoZoneConfInit usedConf elevenZones).map fun _ => ()) = .error .outside ∧
      ¬LoadsSafely usedConf (oneZoneText "7" "5") := by
  have stale : ((nifoZoneConfInit usedConf (oneZoneText "7" "5")).map fun conf =>
      (conf.uiZoneCnt, conf.uiMatrixZoneID 7)) = .ok (1, 5) := by decide +kernel
  refine ⟨stale, by decide +kernel, by decide +kernel, by decide +kernel, ?_⟩
  intro safe
  cases loaded : nifoZoneConfInit usedConf (oneZoneText "7" "5") with
  | error failure =>
      rw [loaded] at stale
      cases stale
  | ok conf =>
      rw [loaded] at stale
      obtain ⟨count, zone⟩ := Prod.mk.inj (Except.ok.inj stale)
      have mapped := safe.mapped conf loaded 7
      rw [zone, count] at mapped
      exact absurd (mapped (by decide)).2 (by decide)

end Examples

end Upst.Mems
