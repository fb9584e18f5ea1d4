import Upst.Mems

/-!
The zone configuration: how `zone_conf_init` reads a line of the zone table, and what
`nifo_conf_check` asks of the processes mapped to the zones. A line is the list of its
trimmed tokens.
-/

namespace Upst.Mems

set_option autoImplicit false

def MAX_MEMSZONE_CNT : Nat := 10
def MAX_SEQ_PROC_NUM : Nat := 1000
def MEMS_SEMA_ON : Nat := 1
def DEF_ZONECONF_MEMBERS : Nat := 5
def DEF_ERR_NOTNUM : Int := -2
def DEF_ERR_LOWZERO : Int := -3
def DEF_ERR_LOWONE : Int := -4
def DEF_ERR_NOTBOOL : Int := -5
def DEF_ERR_EXIST : Int := -7
def DEF_ERR_FORM : Int := -8
def DEF_ERR_MEMBERS : Int := -9
def DEF_MAX_OVERFLOW : Int := -11
def DEF_ERR_ORDER : Int := -12

/-- `DEF_CHECK_FLAG_ZERO`, `DEF_CHECK_FLAG_MORE` and `DEF_CHECK_FLAG_BOOL`. -/
inductive CheckFlag where
  | zero
  | more
  | bool
  deriving DecidableEq, Repr

structure ZoneConf extends MemsZoneConf where
  uiSemFlag : Nat
  uiSemKey : Nat
  deriving DecidableEq, Repr

/-- `stMEMSZONECONF` and `uiMatrixZoneID` are the two arrays, with what was in them before. -/
structure NifoConf where
  uiHeadRoomSize : Nat
  uiZoneCnt : Nat
  stMEMSZONECONF : Nat → ZoneConf
  uiMatrixZoneID : Nat → Nat

section Reading

/-- The number a token of digits spells. -/
def digitsValue (s : List Char) : Nat :=
  s.foldl (fun value digit => value * 10 + (digit.toNat - '0'.toNat)) 0

/-- `atoi`: the value as a `long`, cut to an `int`. -/
def atoi (s : List Char) : Int :=
  (Int.ofNat (min (digitsValue s) (2 ^ 63 - 1))).bmod (2 ^ 32)

def defaultCheck (s : List Char) (flag : CheckFlag) : Except Int Nat :=
  if !s.all Char.isDigit then .error DEF_ERR_NOTNUM
  else
    -- `sscanf` reads the value as an `unsigned long` and cuts it to `U32`
    let value := min (digitsValue s) (2 ^ 64 - 1) % 2 ^ 32
    match flag with
    | .zero => if atoi s < 0 then .error DEF_ERR_LOWZERO else .ok value
    | .more => if atoi s ≤ 0 then .error DEF_ERR_LOWONE else .ok value
    | .bool => if atoi s ≠ 0 ∧ atoi s ≠ 1 then .error DEF_ERR_NOTBOOL else .ok value

/-- The duplicate check of a semaphore key against the zones read before. -/
def semKeyTaken (conf : NifoConf) (uiSemKey : Nat) : Bool :=
  (List.range conf.uiZoneCnt).any fun index =>
    (conf.stMEMSZONECONF index).uiSemFlag == MEMS_SEMA_ON &&
      (conf.stMEMSZONECONF index).uiSemKey == uiSemKey

/-- One turn of the loop of `zone_conf_init`, the switch on `dTokSize`. -/
def zoneToken (conf : NifoConf) (dTokSize : Nat) (pTok : List Char) (zone : ZoneConf) :
    Except Int ZoneConf :=
  match dTokSize with
  | 0 => do
      let uiZoneID ← defaultCheck pTok .zero
      if conf.uiZoneCnt ≠ uiZoneID then .error DEF_ERR_ORDER
      else .ok { zone with uiZoneID := uiZoneID }
  | 1 => do
      let uiSemFlag ← defaultCheck pTok .bool
      .ok { zone with uiSemFlag := uiSemFlag }
  | 2 => do
      let uiSemKey ← defaultCheck pTok .more
      if zone.uiSemFlag = MEMS_SEMA_ON ∧ semKeyTaken conf uiSemKey then .error DEF_ERR_EXIST
      else .ok { zone with uiSemKey := uiSemKey }
  | 3 => do
      let uiMemNodeBodySize ← defaultCheck pTok .zero
      .ok { zone with uiMemNodeBodySize := uiMemNodeBodySize }
  | 4 => do
      let uiMemNodeTotCnt ← defaultCheck pTok .zero
      .ok { zone with uiMemNodeTotCnt := uiMemNodeTotCnt }
  | _ => .error DEF_ERR_FORM

/-- The loop of `zone_conf_init`; an empty token or a `#` ends the line. -/
def zoneTokens (conf : NifoConf) : Nat → List (List Char) → ZoneConf → Except Int (Nat × ZoneConf)
  | dTokSize, [], zone => .ok (dTokSize, zone)
  | dTokSize, pTok :: rest, zone =>
      if pTok = [] ∨ pTok.head? = some '#' then .ok (dTokSize, zone)
      else do
        let zone ← zoneToken conf dTokSize pTok zone
        zoneTokens conf (dTokSize + 1) rest zone

def zoneConfInit (conf : NifoConf) (line : List (List Char)) : Except Int NifoConf :=
  if conf.uiZoneCnt > MAX_MEMSZONE_CNT then .error DEF_MAX_OVERFLOW
  else do
    let (dTokSize, zone) ← zoneTokens conf 0 line (conf.stMEMSZONECONF conf.uiZoneCnt)
    if dTokSize ≠ DEF_ZONECONF_MEMBERS then .error DEF_ERR_MEMBERS
    else
      .ok
        { conf with
          uiZoneCnt := conf.uiZoneCnt + 1
          stMEMSZONECONF := Function.update conf.stMEMSZONECONF conf.uiZoneCnt zone }

/-- The zone table of `nifo_zone_conf_init`, line by line. -/
def zoneLines (conf : NifoConf) : List (List (List Char)) → Except Int NifoConf
  | [] => .ok conf
  | line :: rest => do
      let conf ← zoneConfInit conf line
      zoneLines conf rest

/-- The zones that `mems_init` walks over. -/
def NifoConf.toMemsConf (conf : NifoConf) : MemsConf where
  uiHeadRoomSize := conf.uiHeadRoomSize
  stMEMSZONECONF := (List.range conf.uiZoneCnt).map fun index =>
    (conf.stMEMSZONECONF index).toMemsZoneConf
  uiMatrixZoneID := conf.uiMatrixZoneID

/-- How many processes the matrix maps to a zone. -/
def procCnt (conf : NifoConf) (zoneID : Nat) : Nat :=
  (List.range MAX_SEQ_PROC_NUM).countP fun proc => conf.uiMatrixZoneID proc = zoneID

/-- `none` where a zone ID of the matrix leaves the counters' array. -/
def nifoConfCheck (conf : NifoConf) : Option Int :=
  if (List.range MAX_SEQ_PROC_NUM).any fun proc =>
      decide (conf.uiMatrixZoneID proc ≠ INVALID_ID ∧
        MAX_MEMSZONE_CNT ≤ conf.uiMatrixZoneID proc) then none
  else if (List.range MAX_MEMSZONE_CNT).any fun zoneID =>
      decide (procCnt conf zoneID > 1 ∧
        (conf.stMEMSZONECONF zoneID).uiSemFlag ≠ MEMS_SEMA_ON) then some (-1)
  else some 0

end Reading

section Semaphores

/-- `semget` is the system's semaphore of a key, created with the value 1. -/
def memsSemInit (semget : Nat → Nat) (semkey flag : Nat) : Nat :=
  if flag ≠ MEMS_SEMA_ON then 0 else semget semkey

/-- `P` on the semaphores that are up; `none` while the caller has to wait. -/
def P (sem : Nat → Bool) (semid flag : Nat) : Option (Nat → Bool) :=
  if flag ≠ MEMS_SEMA_ON then some sem
  else if sem semid then some (Function.update sem semid false)
  else none

def V (sem : Nat → Bool) (semid flag : Nat) : Nat → Bool :=
  if flag ≠ MEMS_SEMA_ON then sem else Function.update sem semid true

theorem sem_round (sem : Nat → Bool) (semid flag : Nat) (up : sem semid = true) :
    ∃ taken, P sem semid flag = some taken ∧ V taken semid flag = sem := by
  by_cases on : flag = MEMS_SEMA_ON
  · refine ⟨Function.update sem semid false, ?_, ?_⟩
    · rw [P, if_neg (not_not.mpr on), if_pos up]
    · rw [V, if_neg (not_not.mpr on), Function.update_idem, ← up, Function.update_eq_self]
  · exact ⟨sem, if_pos on, if_pos on⟩

end Semaphores

section Accepted

theorem bind_ok {ε α β : Type} {first : Except ε α} {next : α → Except ε β} {result : β}
    (ran : (first >>= next) = .ok result) : ∃ value, first = .ok value ∧ next value = .ok result := by
  cases first with
  | error code => cases ran
  | ok value => exact ⟨value, rfl, ran⟩

theorem zone_token_id {conf : NifoConf} {pTok : List Char} {zone zone' : ZoneConf}
    (read : zoneToken conf 0 pTok zone = .ok zone') : zone'.uiZoneID = conf.uiZoneCnt := by
  obtain ⟨value, -, checked⟩ := bind_ok read
  split at checked
  · cases checked
  · next same =>
      cases checked
      exact (not_not.mp same).symm

theorem zone_token_keeps_id {conf : NifoConf} {dTokSize : Nat} {pTok : List Char}
    {zone zone' : ZoneConf} (later : dTokSize ≠ 0)
    (read : zoneToken conf dTokSize pTok zone = .ok zone') : zone'.uiZoneID = zone.uiZoneID := by
  match dTokSize, later, read with
  | 1, _, read =>
      obtain ⟨value, -, kept⟩ := bind_ok read
      cases kept
      rfl
  | 2, _, read =>
      obtain ⟨value, -, kept⟩ := bind_ok read
      split at kept
      · cases kept
      · cases kept
        rfl
  | 3, _, read =>
      obtain ⟨value, -, kept⟩ := bind_ok read
      cases kept
      rfl
  | 4, _, read =>
      obtain ⟨value, -, kept⟩ := bind_ok read
      cases kept
      rfl
  | _ + 5, _, read => cases read

theorem zone_tokens_id {conf : NifoConf} {line : List (List Char)} {dTokSize size : Nat}
    {zone zone' : ZoneConf} (read : zoneTokens conf dTokSize line zone = .ok (size, zone')) :
    (dTokSize ≠ 0 → zone'.uiZoneID = zone.uiZoneID) ∧
      (dTokSize = 0 → size ≠ 0 → zone'.uiZoneID = conf.uiZoneCnt) := by
  induction line generalizing dTokSize zone with
  | nil =>
      cases read
      exact ⟨fun _ => rfl, fun start more => absurd start more⟩
  | cons pTok rest ih =>
      unfold zoneTokens at read
      split at read
      · cases read
        exact ⟨fun _ => rfl, fun start more => absurd start more⟩
      · obtain ⟨first, token, later⟩ := bind_ok read
        have kept := (ih later).1 (Nat.succ_ne_zero _)
        constructor
        · intro started
          rw [kept, zone_token_keeps_id started token]
        · rintro rfl -
          rw [kept, zone_token_id token]

/-- The zones read so far carry their own index. -/
def Numbered (conf : NifoConf) : Prop :=
  ∀ index < conf.uiZoneCnt, (conf.stMEMSZONECONF index).uiZoneID = index

theorem zone_conf_init_numbered {conf conf' : NifoConf} {line : List (List Char)}
    (numbered : Numbered conf) (read : zoneConfInit conf line = .ok conf') : Numbered conf' := by
  unfold zoneConfInit at read
  split at read
  · cases read
  · obtain ⟨⟨size, zone⟩, tokens, stored⟩ := bind_ok read
    dsimp only at stored
    split at stored
    · cases stored
    · next full =>
        cases stored
        have five : size = DEF_ZONECONF_MEMBERS := not_not.mp full
        have own := (zone_tokens_id tokens).2 rfl (by rw [five]; decide)
        intro index bound
        by_cases last : index = conf.uiZoneCnt
        · rw [last]
          simpa using own
        · have earlier : index < conf.uiZoneCnt := by
            have below : index < conf.uiZoneCnt + 1 := bound
            omega
          simpa [last] using numbered index earlier

theorem zone_lines_numbered {conf conf' : NifoConf} (lines : List (List (List Char)))
    (numbered : Numbered conf) (read : zoneLines conf lines = .ok conf') : Numbered conf' := by
  induction lines generalizing conf with
  | nil =>
      cases read
      exact numbered
  | cons line rest ih =>
      obtain ⟨next, first, later⟩ := bind_ok read
      exact ih (zone_conf_init_numbered numbered first) later

theorem conf_wf_of_numbered {conf : NifoConf} (numbered : Numbered conf)
    (populated : ∀ index < conf.uiZoneCnt, 0 < (conf.stMEMSZONECONF index).uiMemNodeTotCnt) :
    ConfWf conf.toMemsConf := by
  constructor
  · intro index zone found
    have bound : index < conf.uiZoneCnt := by
      simpa [NifoConf.toMemsConf] using (List.getElem?_eq_some_iff.mp found).1
    have own : (conf.stMEMSZONECONF index).toMemsZoneConf = zone := by
      simpa [NifoConf.toMemsConf, bound] using found
    rw [← own]
    exact numbered index bound
  · intro zone member
    simp only [NifoConf.toMemsConf, List.mem_map, List.mem_range] at member
    obtain ⟨index, bound, rfl⟩ := member
    exact populated index bound

end Accepted

end Upst.Mems
