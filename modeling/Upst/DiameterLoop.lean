import Upst.DiameterDecode

/-!
When the decoder of Diameter messages comes to an end. The loop over the AVPs goes on by the length
of the AVP at hand, and leaves on a length of zero only for the codes that the header decoder does
not list.
-/

namespace Upst.Diameter

open Bytes Network Fields

set_option autoImplicit false

section Claim

def codeAt (pBuf : Nat → UInt8) (offset : Nat) : Nat := ntohl pBuf offset

def lengthAt (pBuf : Nat → UInt8) (offset : Nat) : Nat := ntohl pBuf (offset + 4) % 2 ^ 24

def messageLength (pBuf : Nat → UInt8) : Nat := ntohl pBuf 0 % 2 ^ 24

/-- The header decoder lists the code. -/
def Listed (code : Nat) : Prop := code ∈ headerCodes.map AvpCode.code

instance (code : Nat) : Decidable (Listed code) := inferInstanceAs (Decidable (_ ∈ _))

/-- The loop ends with the AVP at this place. -/
def Leaves (pBuf : Nat → UInt8) (offset : Nat) : Prop :=
  codeAt pBuf offset = AvpCode.EXCEPTIONAL_CASE.code ∨
    ¬Listed (codeAt pBuf offset) ∧ lengthAt pBuf offset = 0

instance (pBuf : Nat → UInt8) (offset : Nat) : Decidable (Leaves pBuf offset) :=
  inferInstanceAs (Decidable (_ ∨ _))

/-- Inside of the message and of the data. -/
def Inside (pBuf : Nat → UInt8) (dDataLen : Int) (offset : Nat) : Prop :=
  offset < messageLength pBuf ∧ (offset : Int) < dDataLen

instance (pBuf : Nat → UInt8) (dDataLen : Int) (offset : Nat) : Decidable (Inside pBuf dDataLen offset) :=
  inferInstanceAs (Decidable (_ ∧ _))

/-- The places of the AVPs that are read. -/
inductive Reads (pBuf : Nat → UInt8) (dDataLen : Int) : Nat → Prop where
  | first : Inside pBuf dDataLen 20 → Reads pBuf dDataLen 20
  | next (offset : Nat) : Reads pBuf dDataLen offset → ¬Leaves pBuf offset →
      Inside pBuf dDataLen (offset + padded (lengthAt pBuf offset)) →
      Reads pBuf dDataLen (offset + padded (lengthAt pBuf offset))

/-- A listed AVP of length zero. -/
def Empty (pBuf : Nat → UInt8) (offset : Nat) : Prop :=
  Listed (codeAt pBuf offset) ∧ lengthAt pBuf offset = 0

instance (pBuf : Nat → UInt8) (offset : Nat) : Decidable (Empty pBuf offset) :=
  inferInstanceAs (Decidable (_ ∧ _))

/-- The header passes, and the loop over the AVPs starts. -/
def Started (pBuf : Nat → UInt8) : Prop := pBuf 0 = 1 ∧ DIAMETER_HDR_SIZE < messageLength pBuf

instance (pBuf : Nat → UInt8) : Decidable (Started pBuf) := inferInstanceAs (Decidable (_ ∧ _))

/-- The header as it is filled in. -/
def messageHdr (pBuf : Nat → UInt8) (info : DiameterInfo) : DiameterHdr where
  ucVersion := (pBuf 0).toNat
  uiLength := messageLength pBuf
  bRequest := (pBuf 4).toNat >>> 7
  bProxiable := (pBuf 4).toNat >>> 6
  bError := (pBuf 4).toNat >>> 5
  bTrans := info.stDiameterHdr.bTrans
  reserved := (pBuf 4).toNat >>> 4
  uiCmdCode := ntohl pBuf 4 % 2 ^ 24
  uiAppID := ntohl pBuf 8
  uiHopByHopID := ntohl pBuf 12
  uiEndToEndID := ntohl pBuf 16

/-- Some number of turns is enough, and each turn leaves the loop or goes on in the message. -/
structure Terminates (pBuf : Nat → UInt8) (dDataLen : Int) (info : DiameterInfo) : Prop where
  ends : Started pBuf → ∃ turns, (avpLoop pBuf dDataLen turns 20
    { info with stDiameterHdr := messageHdr pBuf info }).isSome = true
  advances : Started pBuf → ∀ offset, Reads pBuf dDataLen offset →
    Leaves pBuf offset ∨ offset < offset + padded (lengthAt pBuf offset)

end Claim

section Loop

variable {pBuf : Nat → UInt8} {dDataLen : Int}

theorem group_loop_isSome (value uiLength : Nat) (fields : Record NumField TextField) :
    (groupLoop pBuf value uiLength (uiLength + 1) 0 fields).isSome = true := by
  rcases Nat.eq_zero_or_pos uiLength with none | positive
  · subst none
    rfl
  · rw [group_loop_eq positive]
    rfl

theorem avp_case_isSome (avpHdr : AvpHdr) (fields : Record NumField TextField) :
    (avpCase pBuf avpHdr fields).isSome = true := by
  rw [avpCase]
  split
  · exact group_loop_isSome _ _ _
  · exact group_loop_isSome _ _ _
  · split
    · rfl
    · rfl
  · rfl

theorem header_code (offset : Nat) (avpHdr : AvpHdr) :
    (analyzeAvpHeader pBuf offset avpHdr).1.uiAvpCode = codeAt pBuf offset := rfl

theorem header_length (offset : Nat) (avpHdr : AvpHdr) :
    (analyzeAvpHeader pBuf offset avpHdr).1.uiLength = lengthAt pBuf offset := rfl

theorem header_zero (offset : Nat) (avpHdr : AvpHdr) :
    (analyzeAvpHeader pBuf offset avpHdr).2 = 0 ↔
      ¬Listed (codeAt pBuf offset) ∧ lengthAt pBuf offset = 0 := by
  have size : (analyzeAvpHeader pBuf offset avpHdr).2 =
      if Listed (codeAt pBuf offset) then
        if (pBuf (offset + 4)).toNat >>> 7 ≠ 0 then 12 else 8
      else padded (lengthAt pBuf offset) := rfl
  rw [size]
  by_cases listed : Listed (codeAt pBuf offset)
  · rw [if_pos listed]
    refine iff_of_false ?_ (fun both => both.1 listed)
    split
    · exact Nat.succ_ne_zero _
    · exact Nat.succ_ne_zero _
  · rw [if_neg listed, and_iff_right listed]
    have longer := padded_le (lengthAt pBuf offset)
    constructor
    · intro none
      omega
    · intro none
      rw [none]
      rfl

theorem loop_outside {offset : Nat} {info : DiameterInfo}
    (length : info.stDiameterHdr.uiLength = messageLength pBuf)
    (outside : ¬Inside pBuf dDataLen offset) (turns : Nat) :
    (avpLoop pBuf dDataLen (turns + 1) offset info).isSome = true := by
  rw [Inside] at outside
  rw [avpLoop, length, if_neg outside]
  rfl

theorem loop_leaves {offset : Nat} {info : DiameterInfo}
    (length : info.stDiameterHdr.uiLength = messageLength pBuf)
    (inside : Inside pBuf dDataLen offset) (leaves : Leaves pBuf offset) (turns : Nat) :
    (avpLoop pBuf dDataLen (turns + 1) offset info).isSome = true := by
  rw [Inside] at inside
  have code := @header_code pBuf offset info.stAVPHdr
  have zero := @header_zero pBuf offset info.stAVPHdr
  rw [avpLoop, length, if_pos inside]
  generalize analyzeAvpHeader pBuf offset info.stAVPHdr = header at code zero ⊢
  obtain ⟨avpHdr, nextOffset⟩ := header
  dsimp only at code zero ⊢
  split
  · rfl
  · next goes =>
      obtain ⟨fields, stored⟩ := Option.isSome_iff_exists.mp (@avp_case_isSome pBuf avpHdr info.fields)
      have last := leaves.resolve_right (fun none => goes (zero.mpr none))
      rw [stored, Option.bind_eq_bind, Option.bind_some, code, if_pos last]
      rfl

/-- A turn that does not leave goes on behind the AVP. -/
theorem loop_next {offset : Nat} {info : DiameterInfo}
    (length : info.stDiameterHdr.uiLength = messageLength pBuf)
    (inside : Inside pBuf dDataLen offset) (stays : ¬Leaves pBuf offset) (turns : Nat) :
    ∃ info', info'.stDiameterHdr.uiLength = messageLength pBuf ∧
      avpLoop pBuf dDataLen (turns + 1) offset info =
        avpLoop pBuf dDataLen turns (offset + padded (lengthAt pBuf offset)) info' := by
  rw [Inside] at inside
  have code := @header_code pBuf offset info.stAVPHdr
  have size := @header_length pBuf offset info.stAVPHdr
  have zero := @header_zero pBuf offset info.stAVPHdr
  rw [avpLoop, length, if_pos inside]
  generalize analyzeAvpHeader pBuf offset info.stAVPHdr = header at code size zero ⊢
  obtain ⟨avpHdr, nextOffset⟩ := header
  dsimp only at code size zero ⊢
  obtain ⟨fields, stored⟩ := Option.isSome_iff_exists.mp (@avp_case_isSome pBuf avpHdr info.fields)
  refine ⟨{ info with stAVPHdr := avpHdr, fields := fields }, length, ?_⟩
  rw [if_neg (fun none => stays (Or.inr (zero.mp none))), stored, Option.bind_eq_bind,
    Option.bind_some, code, size, if_neg (fun last => stays (Or.inl last))]

/-- From a listed AVP of length zero no number of turns is enough. -/
theorem loop_stuck {offset : Nat} (inside : Inside pBuf dDataLen offset) (empty : Empty pBuf offset)
    (turns : Nat) {info : DiameterInfo}
    (length : info.stDiameterHdr.uiLength = messageLength pBuf) :
    avpLoop pBuf dDataLen turns offset info = none := by
  have stays : ¬Leaves pBuf offset := by
    rintro (last | ⟨unlisted, -⟩)
    · have listed := empty.1
      rw [last] at listed
      exact absurd listed (by decide)
    · exact unlisted empty.1
  induction turns generalizing info with
  | zero => rfl
  | succ turns ih =>
      obtain ⟨info', length', next⟩ := loop_next length inside stays turns
      have same : offset + padded (lengthAt pBuf offset) = offset := by
        rw [empty.2]
        rfl
      rw [next, same]
      exact ih length'

theorem reads_inside {offset : Nat} (reads : Reads pBuf dDataLen offset) :
    Inside pBuf dDataLen offset := by
  cases reads with
  | first inside => exact inside
  | next _ _ _ inside => exact inside

/-- What holds of the loop from a place that is read holds of it from the start. -/
theorem reads_never {offset : Nat} (reads : Reads pBuf dDataLen offset)
    (never : ∀ turns info, info.stDiameterHdr.uiLength = messageLength pBuf →
      avpLoop pBuf dDataLen turns offset info = none) :
    ∀ turns info, info.stDiameterHdr.uiLength = messageLength pBuf →
      avpLoop pBuf dDataLen turns 20 info = none := by
  induction reads with
  | first => exact never
  | next offset reads stays inside ih =>
      apply ih
      intro turns info length
      cases turns with
      | zero => rfl
      | succ turns =>
          obtain ⟨info', length', next⟩ := loop_next length (reads_inside reads) stays turns
          rw [next]
          exact never turns info' length'

/-- Where every AVP that is read goes on, a turn for each byte of the message is enough. -/
theorem loop_ends (goes : ∀ offset, Reads pBuf dDataLen offset → ¬Empty pBuf offset) (turns : Nat)
    {offset : Nat} (reads : Reads pBuf dDataLen offset) (enough : messageLength pBuf ≤ offset + turns)
    {info : DiameterInfo} (length : info.stDiameterHdr.uiLength = messageLength pBuf) :
    (avpLoop pBuf dDataLen (turns + 1) offset info).isSome = true := by
  have inside := reads_inside reads
  induction turns generalizing offset info with
  | zero => exact absurd inside.1 (Nat.not_lt.mpr enough)
  | succ turns ih =>
      by_cases leaves : Leaves pBuf offset
      · exact loop_leaves length inside leaves _
      · obtain ⟨info', length', next⟩ := loop_next length inside leaves (turns + 1)
        have positive : 0 < lengthAt pBuf offset := by
          rcases Nat.eq_zero_or_pos (lengthAt pBuf offset) with none | positive
          · have listed : Listed (codeAt pBuf offset) := by
              by_contra unlisted
              exact leaves (Or.inr ⟨unlisted, none⟩)
            exact absurd ⟨listed, none⟩ (goes offset reads)
          · exact positive
        have longer := padded_le (lengthAt pBuf offset)
        rw [next]
        by_cases inside' : Inside pBuf dDataLen (offset + padded (lengthAt pBuf offset))
        · exact ih (.next offset reads leaves inside') (by omega) length' inside'
        · exact loop_outside length' inside' _

/-- The decoder terminates just when no AVP that is read is a listed one of length zero. -/
theorem diameter_terminates_iff (pBuf : Nat → UInt8) (dDataLen : Int) (info : DiameterInfo) :
    Terminates pBuf dDataLen info ↔
      (Started pBuf → ∀ offset, Reads pBuf dDataLen offset → ¬Empty pBuf offset) := by
  constructor
  · intro terminates started offset reads empty
    obtain ⟨turns, some⟩ := terminates.ends started
    have never := reads_never reads (fun turns _ length =>
      loop_stuck (reads_inside reads) empty turns length) turns
        { info with stDiameterHdr := messageHdr pBuf info } rfl
    rw [never] at some
    cases some
  · intro goes
    constructor
    · intro started
      by_cases inside : Inside pBuf dDataLen 20
      · exact ⟨_, loop_ends (goes started) (messageLength pBuf) (.first inside) (by omega) rfl⟩
      · exact ⟨1, loop_outside rfl inside 0⟩
    · intro started offset reads
      by_cases leaves : Leaves pBuf offset
      · exact Or.inl leaves
      · have longer := padded_le (lengthAt pBuf offset)
        have nonempty := goes started offset reads
        refine Or.inr ?_
        rcases Nat.eq_zero_or_pos (lengthAt pBuf offset) with none | positive
        · have listed : Listed (codeAt pBuf offset) := by
            by_contra unlisted
            exact leaves (Or.inr ⟨unlisted, none⟩)
          exact absurd ⟨listed, none⟩ nonempty
        · omega

theorem analyze_started (started : Started pBuf) (info : DiameterInfo) :
    analyzeDiameter pBuf dDataLen info =
      avpLoop pBuf dDataLen (messageLength pBuf + 1) 20
        { info with stDiameterHdr := messageHdr pBuf info } := by
  have version : ¬(pBuf 0).toNat ≠ 1 := by
    rw [started.1]
    decide
  have long : ¬ntohl pBuf 0 % 2 ^ 24 ≤ DIAMETER_HDR_SIZE := Nat.not_le.mpr started.2
  rw [analyzeDiameter]
  dsimp only
  rw [if_neg version, if_neg long]
  rfl

/-- A message with one AVP, of the code of the result and of length zero. -/
def emptyResult (place : Nat) : UInt8 :=
  if place = 0 then 1 else if place = 3 then 36 else if place = 22 then 1
  else if place = 23 then 12 else 0

theorem empty_result_stuck : ¬Terminates emptyResult 36 clearedInfo ∧
    analyzeDiameter emptyResult 36 clearedInfo = none := by
  have started : Started emptyResult := by decide +kernel
  have inside : Inside emptyResult 36 20 := by decide +kernel
  have empty : Empty emptyResult 20 := by decide +kernel
  have length : ({ clearedInfo with
      stDiameterHdr := messageHdr emptyResult clearedInfo } : DiameterInfo).stDiameterHdr.uiLength =
    messageLength emptyResult := rfl
  constructor
  · intro terminates
    obtain ⟨turns, some⟩ := terminates.ends started
    rw [loop_stuck inside empty turns length] at some
    cases some
  · rw [analyze_started started, loop_stuck inside empty _ length]

end Loop

end Upst.Diameter
