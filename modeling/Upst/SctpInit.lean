import Upst.SctpChunks
import Upst.Walking

/-!
INIT and INIT ACK chunks with their parameters, and what `dAnalyzeINIT` makes of them. The loop over
the parameters goes on while the length is not above the offset, so that it is left before the first
parameter of a chunk that has one.
-/

namespace Upst.Sctp

open Asso Bytes Network Walking

set_option autoImplicit false

section Format

/-- A parameter: its type, its value, and the octets that fill the last word. -/
structure Param where
  usParaType : Nat
  value : List UInt8
  padding : List UInt8
  typed : usParaType < 2 ^ 16
  short : 4 + value.length < 2 ^ 16
  padded : padding.length = uiPaddingLen (4 + value.length)
  address : usParaType = 5 → value.length = 4

def Param.bytes (param : Param) : List UInt8 :=
  toBe 2 param.usParaType ++ (toBe 2 (4 + param.value.length) ++ param.value)

/-- The padding of the last parameter is that of the chunk. -/
def paramBytes : List Param → List UInt8
  | [] => []
  | [param] => param.bytes
  | param :: params => param.bytes ++ (param.padding ++ paramBytes params)

/-- The parameters stand behind the sixteen octets that every INIT has. -/
structure InitChunk where
  chunk : Chunk
  kind : chunk.kind = 1 ∨ chunk.kind = 2
  wf : chunk.WellFormed
  fixed : List UInt8
  sixteen : fixed.length = DEF_INIT_SIZE
  params : List Param
  value : chunk.value = fixed ++ paramBytes params

/-- The IPv4 addresses as they are copied into a `UINT`. -/
def addresses (params : List Param) : List Nat :=
  params.filterMap fun param => if param.usParaType = 5 then some (fromLe param.value) else none

def ipFst (ucType : Nat) (data : AssoData) : Nat :=
  if ucType = 1 then data.uiSrcIPFst else data.uiDestIPFst

def ipSnd (ucType : Nat) (data : AssoData) : Nat :=
  if ucType = 1 then data.uiSrcIPSnd else data.uiDestIPSnd

/-- The number of the addresses, the first of them, and the last of the others. -/
structure Decoded (ucType : Nat) (addresses : List Nat) (data : AssoData) (sent : Nat × AssoData) :
    Prop where
  number : sent.1 = addresses.length
  first : ipFst ucType sent.2 = addresses.head?.getD (ipFst ucType data)
  second : ipSnd ucType sent.2 = addresses.tail.getLast?.getD (ipSnd ucType data)

/-- The walk over what stands behind a chunk without parameters comes back below the offset that it
starts from, and meets no address. -/
def WalksOut (pBuf : Nat → UInt8) (pucData : Nat) : Prop :=
  ∃ turns, (paramStep pBuf pucData)^[turns] DEF_INIT_SIZE < DEF_INIT_SIZE ∧
    ∀ turn, turn < turns →
      isAddress pBuf pucData ((paramStep pBuf pucData)^[turn] DEF_INIT_SIZE) = false

end Format

section Loop

variable {pBuf : Nat → UInt8} {pucData : Nat}

/-- How many addresses the loop meets in so many turns. -/
def addressCount (pBuf : Nat → UInt8) (pucData usOffset turns : Nat) : Nat :=
  (List.range turns).countP fun turn =>
    isAddress pBuf pucData ((paramStep pBuf pucData)^[turn] usOffset)

theorem address_count_succ (usOffset turns : Nat) : addressCount pBuf pucData usOffset (turns + 1) =
    addressCount pBuf pucData (paramStep pBuf pucData usOffset) turns +
      if isAddress pBuf pucData usOffset then 1 else 0 := by
  rw [addressCount, List.range_succ_eq_map, List.countP_cons, List.countP_map]
  rfl

/-- What the loop returns is the number of the addresses that it meets before it is left. -/
theorem init_loop_count {ucType usChunkLen fuel usOffset usIPCnt : Nat} {data : AssoData}
    {sent : Nat × AssoData}
    (done : initLoop pBuf ucType pucData usChunkLen fuel usOffset usIPCnt data = some sent)
    (short : usIPCnt < 2 ^ 16) : ∃ turns, (paramStep pBuf pucData)^[turns] usOffset < usChunkLen ∧
      (∀ turn, turn < turns → ¬(paramStep pBuf pucData)^[turn] usOffset < usChunkLen) ∧
      sent.1 = u16 (usIPCnt + addressCount pBuf pucData usOffset turns) := by
  induction fuel generalizing usOffset usIPCnt data with
  | zero => exact nomatch done
  | succ fuel ih =>
      by_cases inside : usChunkLen ≤ usOffset
      · rw [init_turn_eq ucType usChunkLen fuel usOffset usIPCnt data inside] at done
        have onward {cnt : Nat} {after : AssoData} (bound : cnt < 2 ^ 16)
            (counted : cnt = u16 (usIPCnt + if isAddress pBuf pucData usOffset then 1 else 0))
            (rest : initLoop pBuf ucType pucData usChunkLen fuel (paramStep pBuf pucData usOffset) cnt
              after = some sent) : ∃ turns, (paramStep pBuf pucData)^[turns] usOffset < usChunkLen ∧
            (∀ turn, turn < turns → ¬(paramStep pBuf pucData)^[turn] usOffset < usChunkLen) ∧
            sent.1 = u16 (usIPCnt + addressCount pBuf pucData usOffset turns) := by
          obtain ⟨turns, ended, goes, number⟩ := ih rest bound
          refine ⟨turns + 1, ended, ?_, ?_⟩
          · intro turn less
            cases turn with
            | zero => exact Nat.not_lt_of_le inside
            | succ turn => exact goes turn (Nat.lt_of_succ_lt_succ less)
          · rw [number, counted, address_count_succ]
            unfold u16
            omega
        split at done
        · next address =>
            apply onward _ _ done
            · exact Nat.mod_lt _ (by decide)
            · rw [if_pos address]
        · next other =>
            apply onward short _ done
            rw [if_neg other]
            exact (Nat.mod_eq_of_lt short).symm
      · rw [initLoop, if_neg inside] at done
        cases done
        refine ⟨0, Nat.lt_of_not_le inside, fun turn less => absurd less (Nat.not_lt_zero turn), ?_⟩
        exact (Nat.mod_eq_of_lt short).symm

theorem init_loop_quiet {ucType usChunkLen : Nat} (turns : Nat) {usOffset : Nat}
    (ended : (paramStep pBuf pucData)^[turns] usOffset < usChunkLen)
    (quiet : ∀ turn, turn < turns →
      isAddress pBuf pucData ((paramStep pBuf pucData)^[turn] usOffset) = false)
    (usIPCnt : Nat) (data : AssoData) :
    initLoop pBuf ucType pucData usChunkLen (turns + 1) usOffset usIPCnt data = some (usIPCnt, data) := by
  induction turns generalizing usOffset with
  | zero =>
      have left : ¬usChunkLen ≤ usOffset := Nat.not_le_of_lt ended
      rw [initLoop, if_neg left]
  | succ turns ih =>
      by_cases inside : usChunkLen ≤ usOffset
      · have other := quiet 0 (Nat.succ_pos turns)
        rw [init_turn_eq ucType usChunkLen (turns + 1) usOffset usIPCnt data inside]
        rw [Function.iterate_zero_apply] at other
        rw [other, if_neg Bool.false_ne_true]
        exact ih ended fun turn less => quiet (turn + 1) (Nat.succ_lt_succ less)
      · rw [initLoop, if_neg inside]

/-- The offsets from the first one on, up to the one at which the loop is left, are words. -/
theorem walk_short {turns : Nat}
    (ended : (paramStep pBuf pucData)^[turns] DEF_INIT_SIZE < DEF_INIT_SIZE)
    (goes : ∀ turn, turn < turns → ¬(paramStep pBuf pucData)^[turn] DEF_INIT_SIZE < DEF_INIT_SIZE) :
    turns < 2 ^ 16 := by
  have word (turn : Nat) : (paramStep pBuf pucData)^[turn] DEF_INIT_SIZE < 2 ^ 16 := by
    cases turn with
    | zero => exact show 16 < 2 ^ 16 by decide
    | succ turn =>
        rw [Function.iterate_succ_apply']
        exact Nat.mod_lt _ (by decide)
  have bound := @orbit_short turns (paramStep pBuf pucData) (fun place => place < DEF_INIT_SIZE)
    DEF_INIT_SIZE DEF_INIT_SIZE (2 ^ 16) ended goes
    fun turn less => ⟨Nat.le_of_not_lt (goes turn less), word turn⟩
  exact Nat.lt_of_le_of_lt bound (by decide)

theorem walks_out_of_zero {ucType fuel : Nat} {data : AssoData} {sent : Nat × AssoData}
    (done : initLoop pBuf ucType pucData DEF_INIT_SIZE fuel DEF_INIT_SIZE 0 data = some sent)
    (zero : sent.1 = 0) : WalksOut pBuf pucData := by
  obtain ⟨turns, ended, goes, number⟩ := init_loop_count done (by decide)
  have counted : addressCount pBuf pucData DEF_INIT_SIZE turns ≤ turns := by
    apply le_trans List.countP_le_length
    rw [List.length_range]
  have short := walk_short ended goes
  have none : addressCount pBuf pucData DEF_INIT_SIZE turns = 0 := by
    rw [zero] at number
    unfold u16 at number
    omega
  refine ⟨turns, ended, fun turn less => ?_⟩
  have other := List.countP_eq_zero.mp none turn (List.mem_range.mpr less)
  exact Bool.not_eq_true _ ▸ other

end Loop

section Claim

variable {pBuf : Nat → UInt8} {place : Nat}

theorem init_fields_ip (pucData ucType side : Nat) (data : AssoData) :
    ipFst side (initFields pBuf pucData ucType data) = ipFst side data ∧
      ipSnd side (initFields pBuf pucData ucType data) = ipSnd side data := by
  unfold initFields
  split
  · exact ⟨rfl, rfl⟩
  · exact ⟨rfl, rfl⟩

theorem param_bytes_length (param : Param) (params : List Param) :
    0 < (paramBytes (param :: params)).length := by
  cases params with
  | nil =>
      rw [paramBytes, Param.bytes, List.length_append, to_be_length]
      omega
  | cons next params =>
      rw [paramBytes, Param.bytes, List.length_append, List.length_append, to_be_length]
      · omega
      · exact List.cons_ne_nil next params

/-- Without an address there is nothing to set. -/
theorem decoded_none {ucType : Nat} {data after : AssoData} {count : Nat}
    (first : ipFst ucType after = ipFst ucType data) (second : ipSnd ucType after = ipSnd ucType data) :
    Decoded ucType [] data (count, after) ↔ count = 0 :=
  ⟨fun decoded => decoded.number, fun zero => ⟨zero, first, second⟩⟩

theorem value_length (chunk : InitChunk) :
    chunk.chunk.value.length = DEF_INIT_SIZE + (paramBytes chunk.params).length := by
  rw [chunk.value, List.length_append, chunk.sixteen]

/-- An INIT chunk is decoded just when it has no address, and one without any parameter just when the
walk over what stands behind it comes to an end without an address. -/
theorem init_chunk_decoded_iff (pBuf : Nat → UInt8) (place : Nat) (chunk : InitChunk)
    (stands : Stands pBuf place chunk.chunk.bytes) (data : AssoData) :
    (∃ fuel sent, dAnalyzeINIT pBuf fuel (place + DEF_SCTPCHUNKHEADER_SIZE) (chunkHeader pBuf place) data =
        some sent ∧ Decoded chunk.chunk.kind (addresses chunk.params) data sent) ↔
      addresses chunk.params = [] ∧
        (chunk.params = [] → WalksOut pBuf (place + DEF_SCTPCHUNKHEADER_SIZE)) := by
  have length := value_length chunk
  simp only [dAnalyzeINIT, header_of_chunk chunk.wf stands, value_len chunk.wf, length]
  cases listed : chunk.params with
  | nil =>
      have bare : addresses [] = [] := rfl
      rw [paramBytes, List.length_nil, Nat.add_zero, bare, and_iff_right rfl, forall_prop_of_true rfl]
      constructor
      · intro decoded
        obtain ⟨fuel, sent, done, decoded⟩ := decoded
        exact walks_out_of_zero done decoded.number
      · intro walks
        obtain ⟨turns, ended, quiet⟩ := walks
        refine ⟨turns + 1, _, init_loop_quiet turns ended quiet 0 _, ?_⟩
        have kept := @init_fields_ip pBuf (place + DEF_SCTPCHUNKHEADER_SIZE) chunk.chunk.header.ucType
          chunk.chunk.kind data
        exact (decoded_none kept.1 kept.2).mpr rfl
  | cons param params =>
      have left : ¬DEF_INIT_SIZE + (paramBytes (param :: params)).length ≤ DEF_INIT_SIZE := by
        have some_bytes := param_bytes_length param params
        omega
      have skipped (fuel : Nat) : initLoop pBuf chunk.chunk.header.ucType
          (place + DEF_SCTPCHUNKHEADER_SIZE) (DEF_INIT_SIZE + (paramBytes (param :: params)).length)
          (fuel + 1) DEF_INIT_SIZE 0
          (initFields pBuf (place + DEF_SCTPCHUNKHEADER_SIZE) chunk.chunk.header.ucType data) =
            some (0, initFields pBuf (place + DEF_SCTPCHUNKHEADER_SIZE) chunk.chunk.header.ucType data) := by
        rw [initLoop, if_neg left]
      rw [and_iff_left fun absurd => by cases absurd]
      constructor
      · intro decoded
        obtain ⟨fuel, sent, done, decoded⟩ := decoded
        cases fuel with
        | zero => cases done
        | succ fuel =>
            rw [skipped fuel] at done
            cases done
            exact List.length_eq_zero_iff.mp decoded.number.symm
      · intro none
        have kept := @init_fields_ip pBuf (place + DEF_SCTPCHUNKHEADER_SIZE) chunk.chunk.header.ucType
          chunk.chunk.kind data
        rw [none]
        exact ⟨1, _, skipped 0, (decoded_none kept.1 kept.2).mpr rfl⟩

/-- An INIT with one address, 10.0.0.1. -/
def oneAddress : InitChunk where
  chunk :=
    { ucType := 1
      ucFlag := 0
      value := List.replicate 16 0 ++ [0, 5, 0, 8, 10, 0, 0, 1]
      padding := [] }
  kind := .inl rfl
  wf := ⟨by decide, rfl, by decide⟩
  fixed := List.replicate 16 0
  sixteen := rfl
  params := [⟨5, [10, 0, 0, 1], [], by decide, by decide, rfl, fun _ => rfl⟩]
  value := rfl

def oneAddressMemory : Nat → UInt8 := writeBytes (fun _ => 0) 0 oneAddress.chunk.bytes

theorem one_address_iff :
    (∃ fuel sent, dAnalyzeINIT oneAddressMemory fuel (0 + DEF_SCTPCHUNKHEADER_SIZE)
        (chunkHeader oneAddressMemory 0) (initASSODATA .zero) = some sent ∧
        Decoded oneAddress.chunk.kind (addresses oneAddress.params) (initASSODATA .zero) sent) ↔
      addresses oneAddress.params = [] ∧
        (oneAddress.params = [] → WalksOut oneAddressMemory (0 + DEF_SCTPCHUNKHEADER_SIZE)) :=
  init_chunk_decoded_iff oneAddressMemory 0 oneAddress (stands_written _ _ _) (initASSODATA .zero)

/-- The address is not counted. -/
theorem one_address_missed : addresses oneAddress.params = [0x0100000A] ∧
    ¬∃ fuel sent, dAnalyzeINIT oneAddressMemory fuel (0 + DEF_SCTPCHUNKHEADER_SIZE)
      (chunkHeader oneAddressMemory 0) (initASSODATA .zero) = some sent ∧
      Decoded oneAddress.chunk.kind (addresses oneAddress.params) (initASSODATA .zero) sent := by
  refine ⟨by decide, fun decoded => ?_⟩
  obtain ⟨fuel, sent, done, decoded⟩ := decoded
  cases fuel with
  | zero => exact nomatch done
  | succ fuel =>
      rw [dAnalyzeINIT, initLoop, if_neg (by decide)] at done
      cases done
      exact absurd decoded.number (by decide)

end Claim

end Upst.Sctp
