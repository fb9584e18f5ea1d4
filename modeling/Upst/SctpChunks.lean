import Upst.Sctp

/-!
The chunks of a packet as they lie behind each other in memory, and what the walk over them does
with one chunk: which handlers come to an end, what becomes of the association, and what is done
with the node of a DATA chunk.
-/

namespace Upst.Sctp

open Asso Bytes Network

set_option autoImplicit false

variable {pBuf : Nat → UInt8}

section Chunk

structure Chunk where
  ucType : UInt8
  ucFlag : UInt8
  value : List UInt8
  padding : List UInt8

def Chunk.len (chunk : Chunk) : Nat := 4 + chunk.value.length

def Chunk.kind (chunk : Chunk) : Nat := chunk.ucType.toNat

def Chunk.bytes (chunk : Chunk) : List UInt8 :=
  [chunk.ucType, chunk.ucFlag] ++ (toBe 2 chunk.len ++ (chunk.value ++ chunk.padding))

def Chunk.header (chunk : Chunk) : ChunkHeader where
  ucType := chunk.kind
  ucFlag := chunk.ucFlag.toNat
  usChunkLen := chunk.len

/-- The length is a `USHORT`, the padding fills the last word, and a DATA chunk has its header. -/
structure Chunk.WellFormed (chunk : Chunk) : Prop where
  short : chunk.len < 2 ^ 16
  padded : chunk.padding.length = uiPaddingLen chunk.len
  data : chunk.kind = 0 → DEF_DATA_SIZE ≤ chunk.value.length

def Chunk.userBytes (chunk : Chunk) : List UInt8 := chunk.value.drop DEF_DATA_SIZE

variable {place : Nat} {chunk : Chunk}

theorem chunk_size (wf : chunk.WellFormed) :
    chunk.bytes.length = chunk.len + uiPaddingLen chunk.len := by
  rw [← wf.padded, Chunk.bytes, Chunk.len]
  simp only [List.length_append, List.length_cons, List.length_nil, to_be_length]
  omega

theorem header_of_chunk (wf : chunk.WellFormed) (stands : Stands pBuf place chunk.bytes) :
    chunkHeader pBuf place = chunk.header := by
  have kind : pBuf place = chunk.ucType :=
    stands_at stands (show chunk.bytes[0]? = some chunk.ucType from rfl)
  have flag : pBuf (place + 1) = chunk.ucFlag := stands_at stands rfl
  have behind := (stands_append stands).2
  have length : ntohs pBuf (place + 2) = chunk.len :=
    ntohs_number wf.short (stands_append behind).1
  rw [chunkHeader, Chunk.header, Chunk.kind, ← kind, ← flag, ← length]

theorem value_stands (stands : Stands pBuf place chunk.bytes) :
    Stands pBuf (place + DEF_SCTPCHUNKHEADER_SIZE) chunk.value := by
  have behind := (stands_append (stands_append stands).2).2
  rw [to_be_length] at behind
  exact (stands_append behind).1

/-- The copied octets are those behind the header of the DATA chunk. -/
theorem user_bytes_read (stands : Stands pBuf place chunk.bytes)
    (long : DEF_DATA_SIZE ≤ chunk.value.length) :
    readBytes pBuf (place + DEF_SCTPCHUNKHEADER_SIZE + DEF_DATA_SIZE) chunk.userBytes.length =
      chunk.userBytes := by
  have length : chunk.userBytes.length = chunk.value.length - DEF_DATA_SIZE := List.length_drop
  rw [stands_part (value_stands stands) (by omega), length]
  apply List.take_of_length_le
  rw [List.length_drop]

theorem write_len (wf : chunk.WellFormed) (data : chunk.kind = 0) :
    writeLen chunk.len = chunk.userBytes.length := by
  have short := wf.short
  have long := wf.data data
  rw [writeLen, u16, Chunk.userBytes, List.length_drop]
  rw [Chunk.len] at short ⊢
  unfold DEF_DATA_SIZE at *
  omega

end Chunk

section Loops

variable {pucData : Nat}

/-- The next parameter by the octet that is read as the length of this one. -/
def paramStep (pBuf : Nat → UInt8) (pucData usOffset : Nat) : Nat :=
  u16 (usOffset + (pBuf (pucData + u16 (usOffset + 2))).toNat)

/-- The octet that is read as the type of the parameter is that of an address. -/
def isAddress (pBuf : Nat → UInt8) (pucData usOffset : Nat) : Bool :=
  (pBuf (pucData + usOffset)).toNat = 5

theorem init_turn_eq (ucType usChunkLen fuel usOffset usIPCnt : Nat) (data : AssoData)
    (inside : usChunkLen ≤ usOffset) :
    initLoop pBuf ucType pucData usChunkLen (fuel + 1) usOffset usIPCnt data =
      if isAddress pBuf pucData usOffset then
        initLoop pBuf ucType pucData usChunkLen fuel (paramStep pBuf pucData usOffset) (u16 (usIPCnt + 1))
          (setIP data ucType usIPCnt (fromLe (readBytes pBuf (pucData + u16 (usOffset + 4)) 4)))
      else initLoop pBuf ucType pucData usChunkLen fuel (paramStep pBuf pucData usOffset) usIPCnt data := by
  have option : ¬ dCheckOptionParameter (pBuf (pucData + usOffset)).toNat < 0 := by
    unfold dCheckOptionParameter logicalAnd
    split_ifs <;> simp_all
  rw [initLoop, if_pos inside, if_neg option, isAddress]
  by_cases address : (pBuf (pucData + usOffset)).toNat = 5
  · have next : u16 (u16 (usOffset + 4) + (pBuf (pucData + u16 (usOffset + 2))).toNat + 2 ^ 16 - 4) =
        paramStep pBuf pucData usOffset := by
      unfold paramStep u16
      omega
    rw [if_pos address, next, if_pos (decide_eq_true address)]
  · have next : u16 (u16 (usOffset + 2) + (pBuf (pucData + u16 (usOffset + 2))).toNat + 2 ^ 16 - 2) =
        paramStep pBuf pucData usOffset := by
      unfold paramStep u16
      omega
    rw [if_neg address, next, if_neg (decide_eq_false address ▸ Bool.false_ne_true)]

theorem init_turn (ucType usChunkLen fuel usOffset usIPCnt : Nat) (data : AssoData)
    (inside : usChunkLen ≤ usOffset) : ∃ cnt after, after.stKey = data.stKey ∧
      initLoop pBuf ucType pucData usChunkLen (fuel + 1) usOffset usIPCnt data =
        initLoop pBuf ucType pucData usChunkLen fuel (paramStep pBuf pucData usOffset) cnt after := by
  rw [init_turn_eq ucType usChunkLen fuel usOffset usIPCnt data inside]
  split
  · refine ⟨_, _, ?_, rfl⟩
    unfold setIP
    split_ifs <;> rfl
  · exact ⟨_, _, rfl, rfl⟩

/-- The loop over the parameters comes to an end where the offset falls below the length. -/
theorem init_loop_some {ucType usChunkLen fuel usOffset usIPCnt : Nat} {data : AssoData}
    {sent : Nat × AssoData}
    (done : initLoop pBuf ucType pucData usChunkLen fuel usOffset usIPCnt data = some sent) :
    sent.2.stKey = data.stKey ∧ ∃ turns, (paramStep pBuf pucData)^[turns] usOffset < usChunkLen := by
  induction fuel generalizing usOffset usIPCnt data with
  | zero => exact nomatch done
  | succ fuel ih =>
      by_cases inside : usChunkLen ≤ usOffset
      · obtain ⟨cnt, after, key, turn⟩ := init_turn ucType usChunkLen fuel usOffset usIPCnt data inside
        rw [turn] at done
        obtain ⟨kept, turns, ended⟩ := ih done
        exact ⟨kept.trans key, turns + 1, ended⟩
      · rw [initLoop, if_neg inside] at done
        obtain rfl := Option.some.inj done
        exact ⟨rfl, 0, Nat.lt_of_not_le inside⟩

theorem init_loop_ends {ucType usChunkLen : Nat} (turns fuel : Nat) (enough : turns < fuel)
    {usOffset : Nat} (ended : (paramStep pBuf pucData)^[turns] usOffset < usChunkLen)
    (usIPCnt : Nat) (data : AssoData) :
    ∃ sent, initLoop pBuf ucType pucData usChunkLen fuel usOffset usIPCnt data = some sent := by
  induction fuel generalizing turns usOffset usIPCnt data with
  | zero => exact absurd enough (Nat.not_lt_zero turns)
  | succ fuel ih =>
      by_cases inside : usChunkLen ≤ usOffset
      · obtain ⟨cnt, after, -, turn⟩ := init_turn ucType usChunkLen fuel usOffset usIPCnt data inside
        rw [turn]
        cases turns with
        | zero => exact absurd ended (Nat.not_lt_of_le inside)
        | succ turns => exact ih turns (Nat.lt_of_succ_lt_succ enough) ended cnt after
      · rw [initLoop, if_neg inside]
        exact ⟨_, rfl⟩

theorem init_loop_mono {ucType usChunkLen fuel more : Nat} (le : fuel ≤ more) {usOffset usIPCnt : Nat}
    {data : AssoData} {sent : Nat × AssoData}
    (done : initLoop pBuf ucType pucData usChunkLen fuel usOffset usIPCnt data = some sent) :
    initLoop pBuf ucType pucData usChunkLen more usOffset usIPCnt data = some sent := by
  induction fuel generalizing more usOffset usIPCnt data with
  | zero => exact nomatch done
  | succ fuel ih =>
      obtain ⟨more, rfl⟩ := Nat.exists_eq_add_of_le le
      rw [Nat.add_right_comm]
      rw [initLoop] at done ⊢
      split_ifs at done ⊢ with inside option address
      · exact ih (Nat.le_add_right _ _) done
      · exact ih (Nat.le_add_right _ _) done
      · exact ih (Nat.le_add_right _ _) done
      · exact done

/-- The cause that every turn reads again. -/
def knownCause (pBuf : Nat → UInt8) (pucData : Nat) : Prop :=
  1 ≤ ntohs pBuf pucData ∧ ntohs pBuf pucData ≤ 10

/-- An offset below the length after so many turns. -/
def CausesEnd (pBuf : Nat → UInt8) (pucData usChunkDataLen usDataOffset : Nat) : Prop :=
  knownCause pBuf pucData →
    ∃ turns, u16 (usDataOffset + turns * ntohs pBuf (pucData + 2)) < usChunkDataLen

theorem cause_turn (usDataOffset : Nat) :
    u16 (u16 (u16 usDataOffset + DEF_ERROR_SIZE) + ntohs pBuf (pucData + 2) + 2 ^ 16 -
      DEF_ERROR_SIZE) = u16 (usDataOffset + ntohs pBuf (pucData + 2)) := by
  unfold u16 DEF_ERROR_SIZE
  omega

theorem cause_loop_some {usChunkDataLen fuel usDataOffset : Nat} {dRet : Int}
    (done : causeLoop pBuf pucData usChunkDataLen fuel (u16 usDataOffset) = some dRet) :
    CausesEnd pBuf pucData usChunkDataLen usDataOffset := by
  intro known
  induction fuel generalizing usDataOffset with
  | zero => exact nomatch done
  | succ fuel ih =>
      rw [causeLoop] at done
      by_cases inside : usChunkDataLen ≤ u16 usDataOffset
      · rw [if_pos inside, if_pos (And.intro known.1 known.2), cause_turn] at done
        obtain ⟨turns, ended⟩ := ih done
        refine ⟨turns + 1, ?_⟩
        rw [Nat.succ_mul, Nat.add_comm (turns * _), ← Nat.add_assoc]
        exact ended
      · refine ⟨0, ?_⟩
        rw [Nat.zero_mul]
        exact Nat.lt_of_not_le inside

theorem cause_loop_ends {usChunkDataLen : Nat} (turns fuel : Nat) (enough : turns < fuel)
    {usDataOffset : Nat}
    (ended : knownCause pBuf pucData →
      u16 (usDataOffset + turns * ntohs pBuf (pucData + 2)) < usChunkDataLen) :
    ∃ dRet, causeLoop pBuf pucData usChunkDataLen fuel (u16 usDataOffset) = some dRet := by
  induction fuel generalizing turns usDataOffset with
  | zero => exact absurd enough (Nat.not_lt_zero turns)
  | succ fuel ih =>
      rw [causeLoop]
      by_cases inside : usChunkDataLen ≤ u16 usDataOffset
      · rw [if_pos inside]
        by_cases known : 1 ≤ ntohs pBuf pucData ∧ ntohs pBuf pucData ≤ 10
        · rw [if_pos known, cause_turn]
          have later := ended known
          cases turns with
          | zero =>
              rw [Nat.zero_mul] at later
              exact absurd later (Nat.not_lt_of_le inside)
          | succ turns =>
              apply ih turns (Nat.lt_of_succ_lt_succ enough)
              intro _
              rw [Nat.succ_mul, Nat.add_comm (turns * _), ← Nat.add_assoc] at later
              exact later
        · rw [if_neg known]
          exact ⟨_, rfl⟩
      · rw [if_neg inside]
        exact ⟨_, rfl⟩

theorem cause_loop_mono {usChunkDataLen fuel more : Nat} (le : fuel ≤ more) {usDataOffset : Nat}
    {dRet : Int} (done : causeLoop pBuf pucData usChunkDataLen fuel usDataOffset = some dRet) :
    causeLoop pBuf pucData usChunkDataLen more usDataOffset = some dRet := by
  induction fuel generalizing more usDataOffset with
  | zero => exact nomatch done
  | succ fuel ih =>
      obtain ⟨more, rfl⟩ := Nat.exists_eq_add_of_le le
      rw [Nat.add_right_comm]
      rw [causeLoop] at done ⊢
      split_ifs at done ⊢ with inside known
      · exact ih (Nat.le_add_right _ _) done
      · exact done
      · exact done

end Loops

section Data

variable {place : Nat} {chunk : Chunk}

def DataSupply.reachesCopy (supply : DataSupply) : Prop :=
  supply.nodeAlloc.isSome ∧ supply.capHeader ∧ supply.infoEth ∧ supply.sctpData

def DataSupply.accepts (supply : DataSupply) : Bool :=
  supply.capHeader && supply.infoEth && supply.sctpData && supply.ethData && supply.gifoWrite

/-- The node of a DATA chunk. -/
def Chunk.node (chunk : Chunk) (pBuf : Nat → UInt8) (cap : CaptureHeaderMsg) (info : InfoEth) :
    DataNode where
  capHeader := cap
  infoEth := { info with wDataLen := chunk.userBytes.length }
  sctpData := chunk.userBytes ++ List.replicate (SCTP_DATA_SIZE - chunk.userBytes.length) 0
  ethData := readBytes pBuf 0 cap.datalen

/-- A node that is made is written or else deleted. -/
def dataEvents (sent : Bool) (nodeAlloc : Option Nat) (node : DataNode) : List NodeEvent :=
  match nodeAlloc with
  | none => []
  | some offset => [.alloc offset, if sent then .write offset node else .delete offset]

theorem data_events_length (sent other : Bool) (nodeAlloc : Option Nat) (node node' : DataNode) :
    (dataEvents sent nodeAlloc node).length = (dataEvents other nodeAlloc node').length := by
  cases nodeAlloc <;> rfl

theorem data_events_eq {sent other : Bool} {nodeAlloc : Option Nat} {node : DataNode}
    (same : dataEvents sent nodeAlloc node = dataEvents other nodeAlloc node)
    (made : nodeAlloc.isSome) : sent = other := by
  obtain ⟨offset, rfl⟩ := Option.isSome_iff_exists.mp made
  cases sent <;> cases other <;> simp [dataEvents] at same ⊢

def InfoEth.measured (info : InfoEth) (nodeAlloc : Option Nat) (wDataLen : Nat) : InfoEth :=
  if nodeAlloc.isSome then { info with wDataLen := wDataLen } else info

theorem data_outcome (wf : chunk.WellFormed) (data : chunk.kind = 0)
    (stands : Stands pBuf place chunk.bytes) (key : AssoKey) (cap : CaptureHeaderMsg)
    (info : InfoEth) (supply : DataSupply) :
    dAnalyzeDATA pBuf key cap info (place + DEF_SCTPCHUNKHEADER_SIZE) chunk.header supply =
      if supply.nodeAlloc.isSome ∧ (supply.capHeader ∧ supply.infoEth ∧ supply.sctpData) ∧
          SCTP_DATA_SIZE < chunk.userBytes.length then none
      else
        some (info.measured supply.nodeAlloc chunk.userBytes.length,
          dataEvents (supply.accepts && hasDiameterPort key) supply.nodeAlloc
            (chunk.node pBuf cap info)) := by
  have length : writeLen chunk.header.usChunkLen = chunk.userBytes.length := write_len wf data
  have value : sctpDataValue pBuf (place + DEF_SCTPCHUNKHEADER_SIZE) chunk.userBytes.length =
      chunk.userBytes ++ List.replicate (SCTP_DATA_SIZE - chunk.userBytes.length) 0 := by
    rw [sctpDataValue, user_bytes_read stands (wf.data data)]
  rw [dAnalyzeDATA, length, value]
  cases supply.nodeAlloc with
  | none => rfl
  | some offset =>
      dsimp only
      by_cases made : supply.capHeader ∧ supply.infoEth ∧ supply.sctpData
      · rw [if_neg (not_not_intro made)]
        by_cases wide : SCTP_DATA_SIZE < chunk.userBytes.length
        · rw [if_pos wide, if_pos ⟨rfl, made, wide⟩]
        · have short : ¬ ((some offset).isSome ∧
              (supply.capHeader ∧ supply.infoEth ∧ supply.sctpData) ∧
                SCTP_DATA_SIZE < chunk.userBytes.length) := fun long => wide long.2.2
          rw [if_neg wide, if_neg short]
          simp only [DataSupply.accepts, made.1, made.2.1, made.2.2]
          cases supply.ethData <;> cases hasDiameterPort key <;> cases supply.gifoWrite <;> rfl
      · have short : ¬ ((some offset).isSome ∧
            (supply.capHeader ∧ supply.infoEth ∧ supply.sctpData) ∧
              SCTP_DATA_SIZE < chunk.userBytes.length) := fun long => made long.2.1
        rw [if_pos made, if_neg short]
        have refused : supply.accepts = false := by
          rw [DataSupply.accepts]
          by_contra accepted
          simp only [Bool.not_eq_false, Bool.and_eq_true] at accepted
          exact made ⟨accepted.1.1.1.1, accepted.1.1.1.2, accepted.1.1.2⟩
        rw [refused]
        rfl

end Data

section Step

variable {place : Nat} {chunk : Chunk}

/-- ABORT and SHUTDOWN COMPLETE. -/
def Chunk.closes (chunk : Chunk) : Bool := chunk.kind = 6 ∨ chunk.kind = 14

def Chunk.leaves (chunk : Chunk) (slot : Nat) (supply : Supply) (table : AssoTable) : AssoTable :=
  if chunk.closes then table.freeMMDB slot supply.moved else table

/-- The loops over parameters and over causes come to an end. -/
structure Chunk.Ends (chunk : Chunk) (pBuf : Nat → UInt8) (place : Nat) (supply : Supply) : Prop where
  init : chunk.kind = 1 ∨ chunk.kind = 2 →
    ∃ turns, (paramStep pBuf (place + DEF_SCTPCHUNKHEADER_SIZE))^[turns] DEF_INIT_SIZE <
      chunk.value.length
  causes : chunk.kind = 6 ∨ chunk.kind = 9 →
    CausesEnd pBuf (place + DEF_SCTPCHUNKHEADER_SIZE) chunk.value.length supply.usDataOffset

def Chunk.Fits (chunk : Chunk) (supply : DataSupply) : Prop :=
  chunk.kind = 0 → supply.reachesCopy → chunk.userBytes.length ≤ SCTP_DATA_SIZE

def Chunk.events (chunk : Chunk) (pBuf : Nat → UInt8) (cap : CaptureHeaderMsg) (info : InfoEth)
    (port : Bool) (supply : DataSupply) : List NodeEvent :=
  if chunk.kind = 0 then
    dataEvents (supply.accepts && port) supply.nodeAlloc (chunk.node pBuf cap info)
  else []

def Chunk.measures (chunk : Chunk) (info : InfoEth) (supply : DataSupply) : InfoEth :=
  if chunk.kind = 0 then info.measured supply.nodeAlloc chunk.userBytes.length else info

theorem value_len (wf : chunk.WellFormed) :
    u16 (chunk.header.usChunkLen + 2 ^ 16 - DEF_SCTPCHUNKHEADER_SIZE) = chunk.value.length := by
  have short := wf.short
  rw [Chunk.len] at short
  rw [Chunk.header, Chunk.len, u16, DEF_SCTPCHUNKHEADER_SIZE]
  dsimp only
  omega

theorem never_skipped (ucType : Nat) : ¬ mustSkip ucType := by
  unfold mustSkip logicalAnd
  split_ifs <;> simp

theorem init_fields_key (pucData ucType : Nat) (data : AssoData) :
    (initFields pBuf pucData ucType data).stKey = data.stKey := by
  unfold initFields
  split_ifs <;> rfl

theorem init_chunk_some (wf : chunk.WellFormed) {fuel pucData : Nat} {info : InfoEth}
    {data sent : AssoData} (done : initChunk pBuf fuel pucData chunk.header info data = some sent) :
    sent.stKey = data.stKey ∧
      ∃ turns, (paramStep pBuf pucData)^[turns] DEF_INIT_SIZE < chunk.value.length := by
  rw [initChunk, dAnalyzeINIT, value_len wf] at done
  cases loop : initLoop pBuf chunk.header.ucType pucData chunk.value.length fuel DEF_INIT_SIZE 0
      (initFields pBuf pucData chunk.header.ucType data) with
  | none =>
      rw [loop] at done
      exact nomatch done
  | some found =>
      obtain ⟨cnt, after⟩ := found
      obtain ⟨key, ends⟩ := init_loop_some loop
      have kept : after.stKey = data.stKey := key.trans (init_fields_key _ _ _)
      rw [loop] at done
      refine ⟨?_, ends⟩
      cases cnt with
      | zero =>
          dsimp only at done
          split_ifs at done <;> obtain rfl := Option.some.inj done <;> exact kept
      | succ cnt =>
          obtain rfl := Option.some.inj done
          exact kept

theorem init_chunk_isSome (wf : chunk.WellFormed) (fuel pucData : Nat) (info : InfoEth)
    (data : AssoData)
    (loop : ∃ sent, initLoop pBuf chunk.header.ucType pucData chunk.value.length fuel DEF_INIT_SIZE 0
      (initFields pBuf pucData chunk.header.ucType data) = some sent) :
    ∃ sent, initChunk pBuf fuel pucData chunk.header info data = some sent := by
  obtain ⟨⟨cnt, after⟩, loop⟩ := loop
  rw [initChunk, dAnalyzeINIT, value_len wf, loop]
  cases cnt with
  | zero =>
      dsimp only
      split_ifs <;> exact ⟨_, rfl⟩
  | succ cnt => exact ⟨_, rfl⟩

theorem init_chunk_mono {fuel more pucData : Nat} (le : fuel ≤ more) {header : ChunkHeader}
    {info : InfoEth} {data sent : AssoData}
    (done : initChunk pBuf fuel pucData header info data = some sent) :
    initChunk pBuf more pucData header info data = some sent := by
  rw [initChunk, dAnalyzeINIT] at done ⊢
  cases loop : initLoop pBuf header.ucType pucData
      (u16 (header.usChunkLen + 2 ^ 16 - DEF_SCTPCHUNKHEADER_SIZE)) fuel DEF_INIT_SIZE 0
      (initFields pBuf pucData header.ucType data) with
  | none =>
      rw [loop] at done
      exact nomatch done
  | some found =>
      rw [loop] at done
      rw [init_loop_mono le loop]
      exact done

/-- What a chunk that is handled tells and leaves. -/
structure Handled (pBuf : Nat → UInt8) (place slot : Nat) (cap : CaptureHeaderMsg) (supply : Supply)
    (chunk : Chunk) (work sent : Work) : Prop where
  named : chunk.kind < 15
  ends : chunk.Ends pBuf place supply
  fits : chunk.Fits supply.data
  keys : SameKeys (chunk.leaves slot supply work.table) sent.table
  info : sent.info = chunk.measures work.info supply.data
  events : sent.events = work.events ++ chunk.events pBuf cap work.info
    (hasDiameterPort (work.table.tuple slot).stKey) supply.data

theorem chunk_step_eq (wf : chunk.WellFormed) (stands : Stands pBuf place chunk.bytes)
    (named : chunk.kind < 15) (fuel slot : Nat) (cap : CaptureHeaderMsg) (supply : Supply)
    (work : Work) : chunkStep pBuf fuel slot cap place supply work =
      chunkCase pBuf fuel slot cap (place + DEF_SCTPCHUNKHEADER_SIZE) chunk.header supply work := by
  have name : ¬ 15 ≤ chunk.header.ucType := Nat.not_le_of_lt named
  rw [chunkStep, header_of_chunk wf stands, if_neg name, if_neg (never_skipped _)]

theorem ends_apart {supply : Supply} (init : ¬ (chunk.kind = 1 ∨ chunk.kind = 2))
    (causes : ¬ (chunk.kind = 6 ∨ chunk.kind = 9)) : chunk.Ends pBuf place supply :=
  ⟨fun kind => absurd kind init, fun kind => absurd kind causes⟩

/-- A chunk that neither closes the association nor carries data. -/
theorem handled_quiet {slot : Nat} {cap : CaptureHeaderMsg} {supply : Supply} {work sent : Work}
    (named : chunk.kind < 15) (stays : ¬ (chunk.kind = 6 ∨ chunk.kind = 14))
    (apart : chunk.kind ≠ 0) (ends : chunk.Ends pBuf place supply)
    (keys : SameKeys work.table sent.table) (info : sent.info = work.info)
    (events : sent.events = work.events) :
    Handled pBuf place slot cap supply chunk work sent where
  named := named
  ends := ends
  fits data := absurd data apart
  keys := by
    rw [Chunk.leaves, Chunk.closes, decide_eq_false stays]
    exact keys
  info := by rw [Chunk.measures, if_neg apart, info]
  events := by rw [Chunk.events, if_neg apart, List.append_nil, events]

theorem handled_closing {slot : Nat} {cap : CaptureHeaderMsg} {supply : Supply} {work sent : Work}
    (named : chunk.kind < 15) (closing : chunk.kind = 6 ∨ chunk.kind = 14)
    (ends : chunk.Ends pBuf place supply)
    (keys : SameKeys (work.table.freeMMDB slot supply.moved) sent.table)
    (info : sent.info = work.info) (events : sent.events = work.events) :
    Handled pBuf place slot cap supply chunk work sent where
  named := named
  ends := ends
  fits data := by omega
  keys := by
    rw [Chunk.leaves, Chunk.closes, decide_eq_true closing]
    exact keys
  info := by rw [Chunk.measures, if_neg (by omega), info]
  events := by rw [Chunk.events, if_neg (by omega), List.append_nil, events]

theorem set_status_same_keys (work : Work) (slot ucSetupStatus : Nat) :
    SameKeys work.table
      (work.setData slot (setStatus (work.table.tuple slot) ucSetupStatus)).table :=
  set_data_same_keys _ _ rfl

theorem data_handled (wf : chunk.WellFormed) (stands : Stands pBuf place chunk.bytes)
    (data : chunk.kind = 0) {slot : Nat} {cap : CaptureHeaderMsg} {supply : Supply}
    {work sent : Work}
    (done : (dAnalyzeDATA pBuf (work.table.tuple slot).stKey cap work.info
      (place + DEF_SCTPCHUNKHEADER_SIZE) chunk.header supply.data).map
        (fun sent => { work with info := sent.1, events := work.events ++ sent.2 }) = some sent) :
    Handled pBuf place slot cap supply chunk work sent := by
  rw [data_outcome wf data stands] at done
  split_ifs at done with wide
  · exact nomatch done
  · obtain rfl := Option.some.inj done
    refine ⟨by omega, ends_apart (by omega) (by omega), ?_, ?_, ?_, ?_⟩
    · intro _ reached
      by_contra long
      exact wide ⟨reached.1, reached.2, Nat.lt_of_not_le long⟩
    · have stays : ¬ (chunk.kind = 6 ∨ chunk.kind = 14) := by omega
      rw [Chunk.leaves, Chunk.closes, decide_eq_false stays]
      exact same_keys_refl _
    · rw [Chunk.measures, if_pos data]
    · rw [Chunk.events, if_pos data]

theorem chunk_step_some (wf : chunk.WellFormed) (stands : Stands pBuf place chunk.bytes)
    {fuel slot : Nat} {cap : CaptureHeaderMsg} {supply : Supply} {work sent : Work}
    (done : chunkStep pBuf fuel slot cap place supply work = some sent) :
    Handled pBuf place slot cap supply chunk work sent := by
  have named : chunk.kind < 15 := by
    by_contra nameless
    have name : 15 ≤ chunk.header.ucType := Nat.le_of_not_lt nameless
    rw [chunkStep, header_of_chunk wf stands, if_pos name] at done
    exact nomatch done
  rw [chunk_step_eq wf stands named] at done
  unfold chunkCase at done
  split at done
  case h_1 kind => exact data_handled wf stands kind done
  case h_2 kind | h_3 kind =>
    replace kind : chunk.kind = _ := kind
    obtain ⟨data, found, rfl⟩ := Option.map_eq_some_iff.mp done
    obtain ⟨key, loop⟩ := init_chunk_some wf found
    exact handled_quiet named (by omega) (by omega)
      ⟨fun _ => loop, fun other => absurd other (by omega)⟩ (set_data_same_keys _ _ key) rfl rfl
  case h_4 kind =>
    replace kind : chunk.kind = _ := kind
    obtain ⟨dRet, found, rfl⟩ := Option.map_eq_some_iff.mp done
    rw [causesLen, value_len wf] at found
    exact handled_closing named (by omega)
      ⟨fun other => absurd other (by omega), fun _ => cause_loop_some found⟩ (same_keys_refl _) rfl rfl
  case h_7 kind =>
    replace kind : chunk.kind = _ := kind
    obtain ⟨dRet, found, rfl⟩ := Option.map_eq_some_iff.mp done
    rw [causesLen, value_len wf] at found
    exact handled_quiet named (by omega) (by omega)
      ⟨fun other => absurd other (by omega), fun _ => cause_loop_some found⟩ (same_keys_refl _) rfl rfl
  case h_5 kind | h_6 kind | h_8 kind | h_9 kind =>
    replace kind : chunk.kind = _ := kind
    obtain rfl := Option.some.inj done
    exact handled_quiet named (by omega) (by omega) (ends_apart (by omega) (by omega))
      (set_status_same_keys _ _ _) rfl rfl
  case h_10 kind =>
    replace kind : chunk.kind = _ := kind
    obtain rfl := Option.some.inj done
    exact handled_closing named (by omega) (ends_apart (by omega) (by omega))
      ((set_status_same_keys work slot _).freeMMDB slot supply.moved) rfl rfl
  case h_11 data init initAck abort _ _ error _ _ complete =>
    obtain rfl := Option.some.inj done
    have closing : ¬ (chunk.kind = 6 ∨ chunk.kind = 14) := fun either => either.elim abort complete
    have starts : ¬ (chunk.kind = 1 ∨ chunk.kind = 2) := fun either => either.elim init initAck
    have causes : ¬ (chunk.kind = 6 ∨ chunk.kind = 9) := fun either => either.elim abort error
    exact handled_quiet named closing data (ends_apart starts causes) (same_keys_refl _) rfl rfl

/-- A named chunk whose loops end and whose data fits is handled, given turns enough. -/
theorem chunk_step_ends (wf : chunk.WellFormed) (stands : Stands pBuf place chunk.bytes)
    (slot : Nat) (cap : CaptureHeaderMsg) {supply : Supply} (work : Work) (named : chunk.kind < 15)
    (ends : chunk.Ends pBuf place supply) (fits : chunk.Fits supply.data) :
    ∃ fuel sent, chunkStep pBuf fuel slot cap place supply work = some sent := by
  have init : chunk.kind = 1 ∨ chunk.kind = 2 → ∃ fuel data, initChunk pBuf fuel
      (place + DEF_SCTPCHUNKHEADER_SIZE) chunk.header work.info (work.table.tuple slot) = some data := by
    intro starts
    obtain ⟨turns, ended⟩ := ends.init starts
    exact ⟨turns + 1, init_chunk_isSome wf _ _ _ _
      (init_loop_ends turns (turns + 1) (Nat.lt_succ_self turns) ended _ _)⟩
  have causes : chunk.kind = 6 ∨ chunk.kind = 9 → ∃ fuel dRet, dCheckErrorCode pBuf fuel
      (place + DEF_SCTPCHUNKHEADER_SIZE) (causesLen chunk.header.usChunkLen)
        supply.usDataOffset = some dRet := by
    intro failing
    rw [causesLen, value_len wf]
    by_cases known : knownCause pBuf (place + DEF_SCTPCHUNKHEADER_SIZE)
    · obtain ⟨turns, ended⟩ := ends.causes failing known
      exact ⟨turns + 1, cause_loop_ends turns (turns + 1) (Nat.lt_succ_self turns) fun _ => ended⟩
    · exact ⟨1, cause_loop_ends 0 1 Nat.one_pos fun read => absurd read known⟩
  by_cases starts : chunk.kind = 1 ∨ chunk.kind = 2
  · obtain ⟨fuel, data, found⟩ := init starts
    refine ⟨fuel, work.setData slot data, ?_⟩
    rw [chunk_step_eq wf stands named]
    rcases starts with kind | kind <;>
      · replace kind : chunk.header.ucType = _ := kind
        rw [chunkCase, kind, found, Option.map_some]
        rfl
  by_cases failing : chunk.kind = 6 ∨ chunk.kind = 9
  · obtain ⟨fuel, dRet, found⟩ := causes failing
    rcases failing with kind | kind
    · refine ⟨fuel, { work with table := work.table.freeMMDB slot supply.moved }, ?_⟩
      replace kind : chunk.header.ucType = _ := kind
      rw [chunk_step_eq wf stands named, chunkCase, kind, found, Option.map_some]
      rfl
    · refine ⟨fuel, work, ?_⟩
      replace kind : chunk.header.ucType = _ := kind
      rw [chunk_step_eq wf stands named, chunkCase, kind, found, Option.map_some]
      rfl
  refine ⟨0, ?_⟩
  rw [chunk_step_eq wf stands named]
  by_cases data : chunk.kind = 0
  · have fitting : ¬ (supply.data.nodeAlloc.isSome ∧
        (supply.data.capHeader ∧ supply.data.infoEth ∧ supply.data.sctpData) ∧
          SCTP_DATA_SIZE < chunk.userBytes.length) :=
      fun long => Nat.not_lt_of_le (fits data ⟨long.1, long.2.1⟩) long.2.2
    have kind : chunk.header.ucType = 0 := data
    rw [chunkCase, kind, data_outcome wf data stands, if_neg fitting]
    exact ⟨_, rfl⟩
  · unfold chunkCase
    split
    case h_1 kind => exact absurd kind data
    case h_2 kind => exact absurd (Or.inl kind) starts
    case h_3 kind => exact absurd (Or.inr kind) starts
    case h_4 kind => exact absurd (Or.inl kind) failing
    case h_7 kind => exact absurd (Or.inr kind) failing
    all_goals exact ⟨_, rfl⟩

theorem chunk_step_mono {fuel more slot : Nat} (le : fuel ≤ more) {cap : CaptureHeaderMsg}
    {supply : Supply} {work sent : Work}
    (done : chunkStep pBuf fuel slot cap place supply work = some sent) :
    chunkStep pBuf more slot cap place supply work = some sent := by
  unfold chunkStep at done ⊢
  split_ifs at done ⊢ with name skip
  · exact done
  unfold chunkCase at done ⊢
  split at done
  case h_2 | h_3 =>
    obtain ⟨data, found, rfl⟩ := Option.map_eq_some_iff.mp done
    rw [init_chunk_mono le found, Option.map_some]
  case h_4 | h_7 =>
    obtain ⟨dRet, found, rfl⟩ := Option.map_eq_some_iff.mp done
    have kept : dCheckErrorCode pBuf more (place + DEF_SCTPCHUNKHEADER_SIZE)
        (causesLen (chunkHeader pBuf place).usChunkLen) supply.usDataOffset = some dRet :=
      cause_loop_mono le found
    rw [kept, Option.map_some]
  all_goals exact done

end Step

section Walk

variable {slot usSCTPDataLen : Nat} {cap : CaptureHeaderMsg}
  {supply : Nat → Supply}

def chunkBytes (chunks : List Chunk) : List UInt8 := chunks.flatMap Chunk.bytes

theorem chunks_split {chunk : Chunk} {chunks : List Chunk} {usPosition place : Nat}
    (stands : Stands pBuf place (chunkBytes (chunk :: chunks)))
    (whole : usPosition + (chunkBytes (chunk :: chunks)).length = usSCTPDataLen) :
    Stands pBuf place chunk.bytes ∧ Stands pBuf (place + chunk.bytes.length) (chunkBytes chunks) ∧
      usPosition + chunk.bytes.length + (chunkBytes chunks).length = usSCTPDataLen := by
  rw [chunkBytes, List.flatMap_cons] at stands whole
  rw [List.length_append, ← Nat.add_assoc] at whole
  obtain ⟨front, behind⟩ := stands_append stands
  exact ⟨front, behind, whole⟩

theorem chunk_loop_cons {chunk : Chunk} {chunks : List Chunk} {count usPosition place : Nat}
    (wf : chunk.WellFormed) (stands : Stands pBuf place (chunkBytes (chunk :: chunks)))
    (whole : usPosition + (chunkBytes (chunk :: chunks)).length = usSCTPDataLen)
    (short : usSCTPDataLen < 2 ^ 16) (fuel : Nat) (work : Work) :
    chunkLoop pBuf slot usSCTPDataLen cap supply (fuel + 1) count usPosition place work =
      (chunkStep pBuf fuel slot cap place (supply count) work).bind fun work =>
        chunkLoop pBuf slot usSCTPDataLen cap supply fuel (count + 1)
          (usPosition + chunk.bytes.length) (place + chunk.bytes.length) work := by
  obtain ⟨front, -, whole⟩ := chunks_split stands whole
  have size := chunk_size wf
  have positive : 0 < chunk.len := by
    rw [Chunk.len]
    omega
  have inside : usPosition < usSCTPDataLen := by omega
  have position : u16 (usPosition + chunk.header.usChunkLen +
      uiPaddingLen chunk.header.usChunkLen) = usPosition + chunk.bytes.length := by
    have length : chunk.header.usChunkLen = chunk.len := rfl
    rw [length, Nat.add_assoc, ← size, u16]
    apply Nat.mod_eq_of_lt
    omega
  have address : place + chunk.header.usChunkLen + uiPaddingLen chunk.header.usChunkLen =
      place + chunk.bytes.length := by
    have length : chunk.header.usChunkLen = chunk.len := rfl
    rw [length, Nat.add_assoc, ← size]
  rw [chunkLoop, if_pos inside, header_of_chunk wf front, position, address]

theorem chunk_loop_nil (fuel count place : Nat) (work : Work) :
    chunkLoop pBuf slot usSCTPDataLen cap supply (fuel + 1) count usSCTPDataLen place work =
      some work := by
  rw [chunkLoop, if_neg (Nat.lt_irrefl _)]

theorem chunk_loop_mono {fuel more : Nat} (le : fuel ≤ more) {count usPosition place : Nat}
    {work sent : Work}
    (done : chunkLoop pBuf slot usSCTPDataLen cap supply fuel count usPosition place work =
      some sent) :
    chunkLoop pBuf slot usSCTPDataLen cap supply more count usPosition place work = some sent := by
  induction fuel generalizing more count usPosition place work with
  | zero => exact nomatch done
  | succ fuel ih =>
      obtain ⟨more, rfl⟩ := Nat.exists_eq_add_of_le le
      rw [Nat.add_right_comm]
      rw [chunkLoop] at done ⊢
      split_ifs at done ⊢ with inside
      · obtain ⟨mid, step, rest⟩ := Option.bind_eq_some_iff.mp done
        rw [chunk_step_mono (Nat.le_add_right fuel more) step, Option.bind_some]
        exact ih (Nat.le_add_right _ _) rest
      · exact done

/-- The walk over a chunk and those behind it, given turns enough. -/
theorem walk_cons {chunk : Chunk} {chunks : List Chunk} {count usPosition place : Nat}
    (wf : chunk.WellFormed) (stands : Stands pBuf place (chunkBytes (chunk :: chunks)))
    (whole : usPosition + (chunkBytes (chunk :: chunks)).length = usSCTPDataLen)
    (short : usSCTPDataLen < 2 ^ 16) (work sent : Work) :
    (∃ fuel, chunkLoop pBuf slot usSCTPDataLen cap supply fuel count usPosition place work =
        some sent) ↔
      ∃ mid, (∃ fuel, chunkStep pBuf fuel slot cap place (supply count) work = some mid) ∧
        ∃ fuel, chunkLoop pBuf slot usSCTPDataLen cap supply fuel (count + 1)
          (usPosition + chunk.bytes.length) (place + chunk.bytes.length) mid = some sent := by
  constructor
  · rintro ⟨fuel, done⟩
    cases fuel with
    | zero => exact nomatch done
    | succ fuel =>
        rw [chunk_loop_cons wf stands whole short] at done
        obtain ⟨mid, step, rest⟩ := Option.bind_eq_some_iff.mp done
        exact ⟨mid, ⟨fuel, step⟩, fuel, rest⟩
  · rintro ⟨mid, ⟨first, step⟩, others, rest⟩
    refine ⟨max first others + 1, ?_⟩
    rw [chunk_loop_cons wf stands whole short,
      chunk_step_mono (Nat.le_max_left first others) step, Option.bind_some]
    exact chunk_loop_mono (Nat.le_max_right first others) rest

theorem walk_nil (count place : Nat) (work sent : Work) :
    (∃ fuel, chunkLoop pBuf slot usSCTPDataLen cap supply fuel count usSCTPDataLen place work =
        some sent) ↔ sent = work := by
  constructor
  · rintro ⟨fuel, done⟩
    cases fuel with
    | zero => exact nomatch done
    | succ fuel =>
        rw [chunk_loop_nil] at done
        exact (Option.some.inj done).symm
  · rintro rfl
    exact ⟨1, chunk_loop_nil 0 count place sent⟩

end Walk

end Upst.Sctp
