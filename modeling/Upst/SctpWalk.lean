import Upst.SctpDeliver
import Upst.SctpInit
import Upst.Guarded

/-!
What the walk over the chunks of an SCTP packet reads, and whether it comes to an end. The message is
the SCTP part of the packet as the loop finds it, and no more: a read through `pucSCTPData` outside of it,
and a chunk type without a name, have no result. What the handlers store takes no part.
-/

namespace Upst.Sctp

open Asso Bytes Network Guarded Walking

set_option autoImplicit false

section Source

variable (message : List UInt8)

/-- The loop of `dAnalyzeINIT`. -/
def initLoopIn (pucData usChunkLen : Nat) : Nat → Nat → Option Unit
  | 0, _ => none
  | fuel + 1, usOffset =>
      if usChunkLen ≤ usOffset then
        (numberAt message (pucData + usOffset) 1).bind fun usParaType =>
          (numberAt message (pucData + u16 (usOffset + 2)) 1).bind fun usParaLen =>
            if dCheckOptionParameter usParaType < 0 then
              initLoopIn pucData usChunkLen fuel (u16 (u16 (usOffset + 2) + usParaLen))
            else if usParaType = 5 then
              (bytesAt message (pucData + u16 (usOffset + 4)) 4).bind fun _ =>
                initLoopIn pucData usChunkLen fuel (u16 (u16 (usOffset + 4) + usParaLen + 2 ^ 16 - 4))
            else initLoopIn pucData usChunkLen fuel (u16 (u16 (usOffset + 2) + usParaLen + 2 ^ 16 - 2))
      else some ()

/-- All of the fixed part is read for the log. -/
def initIn (fuel pucData usChunkLen : Nat) : Option Unit :=
  (bytesAt message pucData DEF_INIT_SIZE).bind fun _ =>
    initLoopIn message pucData (u16 (usChunkLen + 2 ^ 16 - DEF_SCTPCHUNKHEADER_SIZE)) fuel DEF_INIT_SIZE

/-- The loop of `dCheckErrorCode`. -/
def causeLoopIn (pucData usChunkDataLen : Nat) : Nat → Nat → Option Unit
  | 0, _ => none
  | fuel + 1, usDataOffset =>
      if usChunkDataLen ≤ usDataOffset then
        (numberAt message pucData 2).bind fun usCauseCode =>
          (numberAt message (pucData + 2) 2).bind fun usCauseLen =>
            if 1 ≤ usCauseCode ∧ usCauseCode ≤ 10 then
              causeLoopIn pucData usChunkDataLen fuel
                (u16 (u16 (usDataOffset + DEF_ERROR_SIZE) + usCauseLen + 2 ^ 16 - DEF_ERROR_SIZE))
            else some ()
      else some ()

/-- The loop over the gap blocks, which leaves the offset behind them. `dOperationSACKGap` reads the
stack lists only. -/
def gapLoopIn (pucData : Nat) : Nat → Nat → Option Nat
  | 0, usOffset => some usOffset
  | usNoGapAck + 1, usOffset =>
      (bytesAt message (pucData + usOffset) 2).bind fun _ =>
        (bytesAt message (pucData + u16 (usOffset + 2)) 2).bind fun _ =>
          gapLoopIn pucData usNoGapAck (u16 (usOffset + 4))

def duplLoopIn (pucData : Nat) : Nat → Nat → Option Nat
  | 0, usOffset => some usOffset
  | usNoDupl + 1, usOffset =>
      (bytesAt message (pucData + usOffset) 4).bind fun _ =>
        duplLoopIn pucData usNoDupl (u16 (usOffset + 4))

def sackIn (pucData : Nat) : Option Unit :=
  (bytesAt message pucData 8).bind fun _ =>
    (numberAt message (pucData + 8) 2).bind fun usNoGapAck =>
      (numberAt message (pucData + 10) 2).bind fun usNoDupl =>
        (gapLoopIn message pucData usNoGapAck 12).bind fun usOffset =>
          (duplLoopIn message pucData usNoDupl usOffset).map fun _ => ()

/-- The header, and the octets for the node where it is made up to them. The frame is copied through
another pointer. -/
def dataIn (pucData usChunkLen : Nat) (supply : DataSupply) : Option Unit :=
  (bytesAt message pucData DEF_DATA_SIZE).bind fun _ =>
    if supply.nodeAlloc.isSome ∧ supply.capHeader ∧ supply.infoEth ∧ supply.sctpData then
      (bytesAt message (pucData + DEF_DATA_SIZE) (writeLen usChunkLen)).map fun _ => ()
    else some ()

def heartIn (pucData : Nat) : Option Unit :=
  (numberAt message pucData 1).bind fun usParaType =>
    if usParaType = 1 then (numberAt message (pucData + 2) 1).map fun _ => () else some ()

def shutdownIn (pucData : Nat) : Option Unit := (bytesAt message pucData 4).map fun _ => ()

def chunkCaseIn (fuel pucData : Nat) (header : ChunkHeader) (supply : Supply) : Option Unit :=
  match header.ucType with
  | 0 => dataIn message pucData header.usChunkLen supply.data
  | 1 | 2 => initIn message fuel pucData header.usChunkLen
  | 3 => sackIn message pucData
  | 4 | 5 => heartIn message pucData
  | 6 | 9 =>
      causeLoopIn message pucData (causesLen header.usChunkLen) fuel (u16 supply.usDataOffset)
  | 7 => shutdownIn message pucData
  | _ => some ()

def chunkHeaderIn (place : Nat) : Option ChunkHeader :=
  (bytesAt message place DEF_SCTPCHUNKHEADER_SIZE).map fun _ => chunkHeader (memory message) place

def chunkStepIn (fuel place : Nat) (supply : Supply) : Option ChunkHeader :=
  (chunkHeaderIn message place).bind fun header =>
    if 15 ≤ header.ucType then none
    else if mustSkip header.ucType then some header
    else
      (chunkCaseIn message fuel (place + DEF_SCTPCHUNKHEADER_SIZE) header supply).map fun _ => header

/-- The loop over the chunks, with the turns that each loop inside of it is given. `place` is that of
`pucSCTPData`, which does not wrap as `usPosition` does. -/
def chunkLoopIn (turns : Nat) (supply : Nat → Supply) : Nat → Nat → Nat → Nat → Option Unit
  | 0, _, _, _ => none
  | fuel + 1, count, usPosition, place =>
      if usPosition < message.length then
        (chunkStepIn message turns place (supply count)).bind fun header =>
          chunkLoopIn turns supply fuel (count + 1)
            (u16 (usPosition + header.usChunkLen + uiPaddingLen header.usChunkLen))
            (place + header.usChunkLen + uiPaddingLen header.usChunkLen)
      else some ()

end Source

section Claim

variable (message : List UInt8)

/-- The octet read as the type and that read as the length lie inside, and so does an address. -/
def ParamInside (pucData usOffset : Nat) : Prop :=
  pucData + usOffset + 1 ≤ message.length ∧ pucData + u16 (usOffset + 2) + 1 ≤ message.length ∧
    (isAddress (memory message) pucData usOffset →
      pucData + u16 (usOffset + 4) + 4 ≤ message.length)

/-- The steps over the octets read as lengths come to an offset below the length, and what is read
before lies inside. -/
def InitInside (pucData usChunkLen : Nat) : Prop :=
  pucData + DEF_INIT_SIZE ≤ message.length ∧
    ∃ turns, (paramStep (memory message) pucData)^[turns] DEF_INIT_SIZE <
        u16 (usChunkLen + 2 ^ 16 - DEF_SCTPCHUNKHEADER_SIZE) ∧
      ∀ turn, turn < turns →
        ParamInside message pucData ((paramStep (memory message) pucData)^[turn] DEF_INIT_SIZE)

/-- The first cause lies inside, where the loop is entered, and the steps by its length come to an
offset below that of the chunk. -/
def CausesInside (pucData usChunkDataLen usDataOffset : Nat) : Prop :=
  (usChunkDataLen ≤ u16 usDataOffset → pucData + DEF_ERROR_SIZE ≤ message.length) ∧
    CausesEnd (memory message) pucData usChunkDataLen usDataOffset

def SackInside (pucData : Nat) : Prop :=
  pucData + 12 ≤ message.length ∧
    pucData + 12 + 4 * (ntohs (memory message) (pucData + 8) + ntohs (memory message) (pucData + 10)) ≤
      message.length

def DataInside (pucData usChunkLen : Nat) (supply : DataSupply) : Prop :=
  pucData + DEF_DATA_SIZE ≤ message.length ∧
    (supply.reachesCopy → pucData + DEF_DATA_SIZE + writeLen usChunkLen ≤ message.length)

def HeartInside (pucData : Nat) : Prop :=
  pucData + 1 ≤ message.length ∧ (memory message pucData = 1 → pucData + 3 ≤ message.length)

def CaseInside (pucData : Nat) (header : ChunkHeader) (supply : Supply) : Prop :=
  match header.ucType with
  | 0 => DataInside message pucData header.usChunkLen supply.data
  | 1 | 2 => InitInside message pucData header.usChunkLen
  | 3 => SackInside message pucData
  | 4 | 5 => HeartInside message pucData
  | 6 | 9 => CausesInside message pucData (causesLen header.usChunkLen) supply.usDataOffset
  | 7 => pucData + 4 ≤ message.length
  | _ => True

/-- The header lies inside, the type has a name, what the handler reads lies inside, and the length is
not zero. -/
structure ChunkInside (place : Nat) (supply : Supply) : Prop where
  header : place + DEF_SCTPCHUNKHEADER_SIZE ≤ message.length
  named : (chunkHeader (memory message) place).ucType < 15
  case : CaseInside message (place + DEF_SCTPCHUNKHEADER_SIZE) (chunkHeader (memory message) place) supply
  some_length : 0 < (chunkHeader (memory message) place).usChunkLen

def nextPlace (place : Nat) : Nat :=
  place + (chunkHeader (memory message) place).usChunkLen +
    uiPaddingLen (chunkHeader (memory message) place).usChunkLen

def chunkPlace (count : Nat) : Nat := (nextPlace message)^[count] DEF_SCTPHEADER_SIZE

/-- The loop comes to a chunk with so many others before it. The position is a `USHORT`. -/
def Visited (count : Nat) : Prop :=
  ∀ earlier, earlier ≤ count → u16 (chunkPlace message earlier) < message.length

/-- The loops end and read inside of the message only. -/
def Walks (supply : Nat → Supply) : Prop :=
  ∃ turns fuel, (chunkLoopIn message turns supply fuel 0 DEF_SCTPHEADER_SIZE
    DEF_SCTPHEADER_SIZE).isSome = true

end Claim

section Handlers

variable {message : List UInt8}

theorem init_turn_in {pucData usChunkLen usOffset : Nat} (inside : usChunkLen ≤ usOffset) (fuel : Nat) :
    (initLoopIn message pucData usChunkLen (fuel + 1) usOffset).isSome = true ↔
      ParamInside message pucData usOffset ∧
        (initLoopIn message pucData usChunkLen fuel
          (paramStep (memory message) pucData usOffset)).isSome = true := by
  have option (usType : Nat) : ¬dCheckOptionParameter usType < 0 := by
    unfold dCheckOptionParameter logicalAnd
    split_ifs <;> simp_all
  rw [initLoopIn, if_pos inside, number_bind_isSome, one_byte, number_bind_isSome, one_byte,
    if_neg (option _), ParamInside, isAddress, decide_eq_true_eq]
  by_cases address : (memory message (pucData + usOffset)).toNat = 5
  · have next : u16 (u16 (usOffset + 4) + (memory message (pucData + u16 (usOffset + 2))).toNat +
        2 ^ 16 - 4) = paramStep (memory message) pucData usOffset := by
      unfold paramStep u16
      omega
    rw [if_pos address, bytes_bind_isSome, next, forall_prop_of_true address, and_assoc, and_assoc]
  · have next : u16 (u16 (usOffset + 2) + (memory message (pucData + u16 (usOffset + 2))).toNat +
        2 ^ 16 - 2) = paramStep (memory message) pucData usOffset := by
      unfold paramStep u16
      omega
    rw [if_neg address, next, forall_prop_of_false address, and_true, and_assoc]

theorem init_loop_in (pucData usChunkLen : Nat) :
    Loop (fun fuel usOffset => (initLoopIn message pucData usChunkLen fuel usOffset).isSome = true)
      (fun usOffset => usOffset < usChunkLen) (ParamInside message pucData)
      (paramStep (memory message) pucData) where
  out _ := Bool.false_ne_true
  left fuel usOffset ended := by rw [initLoopIn, if_neg (Nat.not_le_of_lt ended)]; rfl
  turn fuel usOffset more := init_turn_in (Nat.le_of_not_lt more) fuel

theorem cause_turn_in {pucData usChunkDataLen usDataOffset : Nat}
    (inside : usChunkDataLen ≤ u16 usDataOffset) (fuel : Nat) :
    (causeLoopIn message pucData usChunkDataLen (fuel + 1) (u16 usDataOffset)).isSome = true ↔
      pucData + DEF_ERROR_SIZE ≤ message.length ∧ (knownCause (memory message) pucData →
        (causeLoopIn message pucData usChunkDataLen fuel
          (u16 (usDataOffset + ntohs (memory message) (pucData + 2)))).isSome = true) := by
  rw [causeLoopIn, if_pos inside, number_bind_isSome, number_bind_isSome, ← cause_turn, ← and_assoc]
  have reads : (pucData + 2 ≤ message.length ∧ pucData + 2 + 2 ≤ message.length) ↔
      pucData + DEF_ERROR_SIZE ≤ message.length := by
    unfold DEF_ERROR_SIZE
    omega
  refine and_congr reads ?_
  by_cases known : knownCause (memory message) pucData
  · rw [forall_prop_of_true known]
    exact iff_of_eq (congrArg (fun run : Option Unit => run.isSome = true) (if_pos known))
  · rw [forall_prop_of_false known]
    exact iff_of_true (congrArg Option.isSome (if_neg known)) trivial

theorem cause_loop_left {pucData usChunkDataLen usDataOffset : Nat}
    (ended : u16 usDataOffset < usChunkDataLen) (fuel : Nat) :
    (causeLoopIn message pucData usChunkDataLen (fuel + 1) (u16 usDataOffset)).isSome = true := by
  rw [causeLoopIn, if_neg (Nat.not_le_of_lt ended)]
  rfl

/-- The loop over a known cause. -/
theorem cause_loop_in {pucData : Nat} (known : knownCause (memory message) pucData)
    (usChunkDataLen : Nat) :
    Loop (fun fuel usDataOffset =>
        (causeLoopIn message pucData usChunkDataLen fuel (u16 usDataOffset)).isSome = true)
      (fun usDataOffset => u16 usDataOffset < usChunkDataLen)
      (fun _ => pucData + DEF_ERROR_SIZE ≤ message.length)
      (· + ntohs (memory message) (pucData + 2)) where
  out _ := Bool.false_ne_true
  left fuel usDataOffset ended := cause_loop_left ended fuel
  turn fuel usDataOffset more := by
    rw [cause_turn_in (Nat.le_of_not_lt more), forall_prop_of_true known]

theorem causes_settled (pucData usChunkDataLen usDataOffset : Nat) :
    Settled (fun fuel =>
        (causeLoopIn message pucData usChunkDataLen fuel (u16 usDataOffset)).isSome = true)
      (CausesInside message pucData usChunkDataLen usDataOffset) := by
  by_cases known : knownCause (memory message) pucData
  · have settled := loop_settled (cause_loop_in known usChunkDataLen) usDataOffset
    refine ⟨settled.iff.trans ?_, settled.mono⟩
    simp only [add_right_iterate, Nat.nsmul_eq_mul]
    rw [CausesInside, CausesEnd, forall_prop_of_true known]
    constructor
    · intro found
      obtain ⟨turns, ended, before⟩ := found
      refine ⟨fun entered => ?_, turns, ended⟩
      apply before 0
      apply Nat.pos_of_ne_zero
      intro zero
      rw [zero, Nat.zero_mul, Nat.add_zero] at ended
      exact absurd entered (Nat.not_le_of_lt ended)
    · intro both
      obtain ⟨reads, turns, ended⟩ := both
      by_cases entered : usChunkDataLen ≤ u16 usDataOffset
      · exact ⟨turns, ended, fun _ _ => reads entered⟩
      · refine ⟨0, ?_, fun turn less => absurd less (Nat.not_lt_zero turn)⟩
        rw [Nat.zero_mul]
        exact Nat.lt_of_not_le entered
  · have each (fuel : Nat) :
        (causeLoopIn message pucData usChunkDataLen (fuel + 1) (u16 usDataOffset)).isSome = true ↔
          CausesInside message pucData usChunkDataLen usDataOffset := by
      rw [CausesInside, CausesEnd, forall_prop_of_false known, and_true]
      by_cases entered : usChunkDataLen ≤ u16 usDataOffset
      · rw [cause_turn_in entered, forall_prop_of_false known, and_true, forall_prop_of_true entered]
      · rw [forall_prop_of_false entered]
        exact iff_of_true (cause_loop_left (Nat.lt_of_not_le entered) fuel) trivial
    constructor
    · constructor
      · intro ran
        obtain ⟨fuel, ran⟩ := ran
        cases fuel with
        | zero => cases ran
        | succ fuel => exact (each fuel).mp ran
      · exact fun inside => ⟨1, (each 0).mpr inside⟩
    · intro fuel more le ran
      cases fuel with
      | zero => cases ran
      | succ fuel =>
          obtain ⟨rest, rfl⟩ := Nat.exists_eq_add_of_le le
          rw [Nat.add_right_comm]
          exact (each _).mpr ((each fuel).mp ran)

theorem init_settled (pucData usChunkLen : Nat) :
    Settled (fun fuel => (initIn message fuel pucData usChunkLen).isSome = true)
      (InitInside message pucData usChunkLen) := by
  have each (fuel : Nat) : (initIn message fuel pucData usChunkLen).isSome = true ↔
      pucData + DEF_INIT_SIZE ≤ message.length ∧
        (initLoopIn message pucData (u16 (usChunkLen + 2 ^ 16 - DEF_SCTPCHUNKHEADER_SIZE)) fuel
          DEF_INIT_SIZE).isSome = true := by
    rw [initIn, bytes_bind_isSome]
  simp only [each]
  exact settled_and (loop_settled (init_loop_in pucData _) DEF_INIT_SIZE)

/-- The blocks lie behind each other, and the offset does not wrap inside of the message. -/
theorem gap_loop_in (short : message.length < 2 ^ 16) {pucData : Nat} (count : Nat) {usOffset : Nat}
    (inside : pucData + usOffset ≤ message.length) :
    gapLoopIn message pucData count usOffset =
      if pucData + usOffset + 4 * count ≤ message.length then some (usOffset + 4 * count) else none := by
  induction count generalizing usOffset with
  | zero => rw [gapLoopIn, if_pos (by omega), Nat.mul_zero, Nat.add_zero]
  | succ count ih =>
      rw [gapLoopIn]
      by_cases room : pucData + usOffset + 4 ≤ message.length
      · have second : u16 (usOffset + 2) = usOffset + 2 := Nat.mod_eq_of_lt (by omega)
        have next : u16 (usOffset + 4) = usOffset + 4 := Nat.mod_eq_of_lt (by omega)
        rw [bytesAt, if_pos (by omega), Option.bind_some, bytesAt, second, if_pos (by omega),
          Option.bind_some, next, ih (by omega)]
        exact if_congr (by omega) (congrArg some (by omega)) rfl
      · rw [if_neg (by omega), bytesAt]
        split
        · next first =>
            have second : u16 (usOffset + 2) = usOffset + 2 := Nat.mod_eq_of_lt (by omega)
            rw [Option.bind_some, bytesAt, second, if_neg (by omega)]
            rfl
        · rfl

theorem dupl_loop_in (short : message.length < 2 ^ 16) {pucData : Nat} (count : Nat) {usOffset : Nat}
    (inside : pucData + usOffset ≤ message.length) :
    (duplLoopIn message pucData count usOffset).isSome = true ↔
      pucData + usOffset + 4 * count ≤ message.length := by
  induction count generalizing usOffset with
  | zero => exact iff_of_true rfl inside
  | succ count ih =>
      rw [duplLoopIn, bytes_bind_isSome]
      by_cases room : pucData + usOffset + 4 ≤ message.length
      · have next : u16 (usOffset + 4) = usOffset + 4 := Nat.mod_eq_of_lt (by omega)
        rw [and_iff_right room, next, ih (by omega)]
        omega
      · exact iff_of_false (fun both => room both.1) (by omega)

theorem sack_isSome (short : message.length < 2 ^ 16) (pucData : Nat) :
    (sackIn message pucData).isSome = true ↔ SackInside message pucData := by
  rw [sackIn, bytes_bind_isSome, number_bind_isSome, number_bind_isSome, SackInside]
  by_cases fixed : pucData + 12 ≤ message.length
  · rw [and_iff_right (by omega), and_iff_right (by omega), and_iff_right (by omega),
      gap_loop_in short _ fixed, and_iff_right fixed]
    show _ ↔ pucData + 12 + 4 * (fromBe _ + fromBe _) ≤ _
    split
    · next gaps =>
        rw [Option.bind_some, Option.isSome_map, dupl_loop_in short _ (by omega)]
        omega
    · next gaps => exact iff_of_false Bool.false_ne_true (by omega)
  · exact iff_of_false (fun both => fixed (by omega)) (fun both => fixed both.1)

theorem data_isSome (pucData usChunkLen : Nat) (supply : DataSupply) :
    (dataIn message pucData usChunkLen supply).isSome = true ↔
      DataInside message pucData usChunkLen supply := by
  rw [dataIn, bytes_bind_isSome, DataInside]
  apply and_congr_right
  intro _
  split
  · next made =>
      rw [Option.isSome_map, bytes_isSome]
      exact ⟨fun copied _ => copied, fun copied => copied made⟩
  · next failed => exact iff_of_true rfl fun made => absurd made failed

theorem heart_isSome (pucData : Nat) :
    (heartIn message pucData).isSome = true ↔ HeartInside message pucData := by
  rw [heartIn, number_bind_isSome, one_byte, HeartInside]
  apply and_congr_right
  intro _
  have octet : (memory message pucData).toNat = 1 ↔ memory message pucData = 1 :=
    ⟨fun same => UInt8.toNat_inj.mp same, fun same => congrArg UInt8.toNat same⟩
  rw [← octet]
  split
  · next info =>
      rw [Option.isSome_map, number_isSome, forall_prop_of_true info]
  · next other => exact iff_of_true rfl fun info => absurd info other

theorem case_settled (short : message.length < 2 ^ 16) (pucData : Nat) (header : ChunkHeader)
    (supply : Supply) :
    Settled (fun fuel => (chunkCaseIn message fuel pucData header supply).isSome = true)
      (CaseInside message pucData header supply) := by
  unfold chunkCaseIn CaseInside
  split
  · exact settled_const (data_isSome pucData header.usChunkLen supply.data)
  · exact init_settled pucData header.usChunkLen
  · exact init_settled pucData header.usChunkLen
  · exact settled_const (sack_isSome short pucData)
  · exact settled_const (heart_isSome pucData)
  · exact settled_const (heart_isSome pucData)
  · exact causes_settled pucData (causesLen header.usChunkLen) supply.usDataOffset
  · exact causes_settled pucData (causesLen header.usChunkLen) supply.usDataOffset
  · refine settled_const ?_
    rw [shutdownIn, Option.isSome_map, bytes_isSome]
  · exact settled_const (iff_of_true rfl trivial)

end Handlers

section Walk

variable {message : List UInt8}

/-- What a turn of the loop asks for, apart from the length. -/
def StepInside (message : List UInt8) (place : Nat) (supply : Supply) : Prop :=
  place + DEF_SCTPCHUNKHEADER_SIZE ≤ message.length ∧
    (chunkHeader (memory message) place).ucType < 15 ∧
      CaseInside message (place + DEF_SCTPCHUNKHEADER_SIZE) (chunkHeader (memory message) place) supply

theorem chunk_step_in (turns place : Nat) (supply : Supply) :
    chunkStepIn message turns place supply =
      if place + DEF_SCTPCHUNKHEADER_SIZE ≤ message.length ∧
          (chunkHeader (memory message) place).ucType < 15 ∧
          (chunkCaseIn message turns (place + DEF_SCTPCHUNKHEADER_SIZE)
            (chunkHeader (memory message) place) supply).isSome = true then
        some (chunkHeader (memory message) place)
      else none := by
  rw [chunkStepIn, chunkHeaderIn]
  by_cases header : place + DEF_SCTPCHUNKHEADER_SIZE ≤ message.length
  · rw [bytesAt, if_pos header, Option.map_some, Option.bind_some, if_neg (never_skipped _)]
    by_cases named : (chunkHeader (memory message) place).ucType < 15
    · rw [if_neg (Nat.not_le_of_lt named)]
      cases chunkCaseIn message turns (place + DEF_SCTPCHUNKHEADER_SIZE)
          (chunkHeader (memory message) place) supply with
      | none => rw [if_neg fun all => Bool.false_ne_true all.2.2]; rfl
      | some done => rw [if_pos ⟨header, named, rfl⟩]; rfl
    · rw [if_pos (Nat.le_of_not_lt named), if_neg fun all => named all.2.1]
  · rw [bytesAt, if_neg header, if_neg fun all => header all.1]
    rfl

theorem step_settled (short : message.length < 2 ^ 16) (place : Nat) (supply : Supply) :
    Settled (fun turns => (chunkStepIn message turns place supply).isSome = true)
      (StepInside message place supply) := by
  have each (turns : Nat) : (chunkStepIn message turns place supply).isSome = true ↔
      place + DEF_SCTPCHUNKHEADER_SIZE ≤ message.length ∧
        (chunkHeader (memory message) place).ucType < 15 ∧
        (chunkCaseIn message turns (place + DEF_SCTPCHUNKHEADER_SIZE)
          (chunkHeader (memory message) place) supply).isSome = true := by
    rw [chunk_step_in]
    split
    · next all => exact iff_of_true rfl all
    · next fails => exact iff_of_false Bool.false_ne_true fails
  simp only [each]
  exact settled_and (settled_and (case_settled short _ _ supply))

/-- The state of the loop is the number of chunks before, and the place of the next. -/
theorem chunk_loop_in (turns : Nat) (supply : Nat → Supply) :
    Loop (fun fuel (state : Nat × Nat) =>
        (chunkLoopIn message turns supply fuel state.1 (u16 state.2) state.2).isSome = true)
      (fun state => ¬u16 state.2 < message.length)
      (fun state => (chunkStepIn message turns state.2 (supply state.1)).isSome = true)
      (fun state => (state.1 + 1, nextPlace message state.2)) where
  out _ := Bool.false_ne_true
  left fuel state ended := by rw [chunkLoopIn, if_neg ended]; rfl
  turn fuel state more := by
    obtain ⟨count, place⟩ := state
    have inside : u16 place < message.length := Decidable.not_not.mp more
    have position : u16 (u16 place + (chunkHeader (memory message) place).usChunkLen +
        uiPaddingLen (chunkHeader (memory message) place).usChunkLen) = u16 (nextPlace message place) := by
      unfold nextPlace u16
      omega
    dsimp only
    rw [chunkLoopIn, if_pos inside, chunk_step_in]
    split
    · rw [Option.bind_some, position]
      exact (and_iff_right rfl).symm
    · exact iff_of_false Bool.false_ne_true fun both => Bool.false_ne_true both.1

theorem state_iterate (count : Nat) :
    (fun state : Nat × Nat => (state.1 + 1, nextPlace message state.2))^[count]
      (0, DEF_SCTPHEADER_SIZE) = (count, chunkPlace message count) := by
  induction count with
  | zero => rfl
  | succ count ih =>
      rw [Function.iterate_succ_apply', ih, chunkPlace, chunkPlace, Function.iterate_succ_apply']

/-- The loop ends and stays inside just when it comes to an end over chunks that do. -/
theorem walks_iff (short : message.length < 2 ^ 16) (supply : Nat → Supply) :
    Walks message supply ↔ ∃ chunks, ¬u16 (chunkPlace message chunks) < message.length ∧
      ∀ count, count < chunks → StepInside message (chunkPlace message count) (supply count) := by
  have settled (count : Nat) := step_settled short (chunkPlace message count) (supply count)
  have loops (turns : Nat) :=
    (loop_settled (@chunk_loop_in message turns supply) (0, DEF_SCTPHEADER_SIZE)).iff
  simp only [state_iterate] at loops
  constructor
  · intro walks
    obtain ⟨turns, fuel, ran⟩ := walks
    obtain ⟨chunks, ended, before⟩ := (loops turns).mp ⟨fuel, ran⟩
    exact ⟨chunks, ended, fun count less => (settled count).iff.mp ⟨turns, before count less⟩⟩
  · intro found
    obtain ⟨chunks, ended, before⟩ := found
    obtain ⟨turns, enough⟩ := settled_all settled chunks before
    obtain ⟨fuel, ran⟩ := (loops turns).mpr ⟨chunks, ended, enough⟩
    exact ⟨turns, fuel, ran⟩

end Walk

section Result

variable {message : List UInt8}

theorem chunk_place_succ (count : Nat) :
    chunkPlace message (count + 1) = nextPlace message (chunkPlace message count) :=
  Function.iterate_succ_apply' _ _ _

/-- A chunk without a length is met again and again. -/
theorem zero_length_stays {count : Nat}
    (zero : (chunkHeader (memory message) (chunkPlace message count)).usChunkLen = 0) (more : Nat) :
    chunkPlace message (count + more) = chunkPlace message count := by
  induction more with
  | zero => rfl
  | succ more ih => rw [← Nat.add_assoc, chunk_place_succ, ih, nextPlace, zero]; rfl

theorem visited_before {chunks count : Nat} (ended : ¬u16 (chunkPlace message chunks) < message.length)
    (visited : Visited message count) : count < chunks := by
  apply Nat.lt_of_not_le
  exact fun past => ended (visited chunks past)

/-- Chunks with a length lie behind each other. -/
theorem places_grow {count : Nat} (lengths : ∀ earlier, earlier < count →
      0 < (chunkHeader (memory message) (chunkPlace message earlier)).usChunkLen) :
    count ≤ chunkPlace message count := by
  induction count with
  | zero => exact Nat.zero_le _
  | succ count ih =>
      have before := ih fun earlier less => lengths earlier (Nat.lt_succ_of_lt less)
      have here := lengths count (Nat.lt_succ_self count)
      rw [chunk_place_succ, nextPlace]
      omega

theorem walks_inside_iff (short : message.length < 2 ^ 16) (supply : Nat → Supply) :
    Walks message supply ↔
      ∀ count, Visited message count →
        ChunkInside message (chunkPlace message count) (supply count) := by
  rw [walks_iff short]
  constructor
  · intro found count visited
    obtain ⟨chunks, ended, before⟩ := found
    have less := visited_before ended visited
    obtain ⟨header, named, case⟩ := before count less
    refine ⟨header, named, case, Nat.pos_of_ne_zero fun zero => ended ?_⟩
    have same := zero_length_stays zero (chunks - count)
    rw [Nat.add_sub_cancel' less.le] at same
    rw [same]
    exact visited count (Nat.le_refl count)
  · intro inside
    classical
    have ends : ∃ chunks, ¬u16 (chunkPlace message chunks) < message.length := by
      by_contra never
      have visited (count : Nat) : Visited message count :=
        fun earlier _ => Decidable.not_not.mp fun out => never ⟨earlier, out⟩
      have grown := @places_grow message message.length
        fun earlier _ => (inside earlier (visited earlier)).some_length
      have header := (inside message.length (visited message.length)).header
      unfold DEF_SCTPCHUNKHEADER_SIZE at header
      omega
    refine ⟨Nat.find ends, Nat.find_spec ends, fun count less => ?_⟩
    have visited : Visited message count := by
      intro earlier le
      exact Decidable.not_not.mp (Nat.find_min ends (Nat.lt_of_le_of_lt le less))
    have chunk := inside count visited
    exact ⟨chunk.header, chunk.named, chunk.case⟩

/-- The SCTP part of a packet, as the loop finds it behind the check of the sum. -/
def InfoEth.sctpPart (pBuf : Nat → UInt8) (info : InfoEth) : List UInt8 :=
  readBytes (clearSum pBuf info.sctpPlace) info.sctpPlace info.sctpDataLen

/-- The loops over a packet end and stay inside of its SCTP part just when each chunk that the walk comes
to lies inside with what its handler reads, has a type with a name, and has a length. -/
theorem chunk_walk_inside_iff (pBuf : Nat → UInt8) (info : InfoEth) (supply : Nat → Supply) :
    Walks (info.sctpPart pBuf) supply ↔
      ∀ count, Visited (info.sctpPart pBuf) count →
        ChunkInside (info.sctpPart pBuf) (chunkPlace (info.sctpPart pBuf) count) (supply count) := by
  apply walks_inside_iff
  rw [InfoEth.sctpPart, read_bytes_length]
  exact Nat.mod_lt _ (by decide)

/-- A packet of one chunk whose type has no name. -/
def unnamedType : Message where
  usSrcPort := 1000
  usDestPort := DEF_DIAMETER_PORT
  uiVerifTag := 0
  chunks :=
    [{ ucType := 15
       ucFlag := 0
       value := []
       padding := [] }]

def unnamedInfo : InfoEth := fromClient (20 + (unnamedType.bytes 0).length)

theorem unnamed_type_carries : Carries (frameOf unnamedType) unnamedInfo unnamedType := by
  apply frame_carries rfl Tcp.Rtx.noConfusion rfl rfl
  · decide
  · decide
  · intro chunk member
    obtain rfl := List.mem_singleton.mp member
    exact ⟨by decide, rfl, by decide⟩

/-- The sum is right, and the name is read behind the end of the table. -/
theorem unnamed_type_outside :
    uiCrc32 (unnamedInfo.sctpPart (frameOf unnamedType)) =
        ntohl (frameOf unnamedType) (unnamedInfo.sctpPlace + 8) ∧
      ∀ supply, ¬Walks (unnamedInfo.sctpPart (frameOf unnamedType)) supply := by
  refine ⟨sum_valid unnamed_type_carries, fun supply walks => ?_⟩
  have part : unnamedInfo.sctpPart (frameOf unnamedType) = unnamedType.bytes 0 := by
    rw [InfoEth.sctpPart, data_len unnamed_type_carries]
    exact cleared_stands unnamed_type_carries
  rw [part, walks_inside_iff (by decide)] at walks
  have visited : Visited (unnamedType.bytes 0) 0 := by
    intro earlier le
    obtain rfl := Nat.le_zero.mp le
    decide
  have named := (walks 0 visited).named
  exact absurd named (by decide)

end Result

end Upst.Sctp
