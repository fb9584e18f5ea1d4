import Upst.CifoConf
import Upst.Word

/-!
The configuration of the GIFO: groups of channels, the channel of a writer and a reader, and the
group of a reader. The two files are read line by line into structures that nobody has cleared.
An access outside an array has no result.
-/

namespace Upst.Gifo

open Word Mems Cifo

set_option autoImplicit false

def MAX_GROUP_CNT : Nat := 100
def BUFSIZ : Nat := 8192
def DEF_ERR_NOT_EXIST : Int := -10

section Text

def isspace (c : Char) : Bool := c == ' ' || (9 ≤ c.toNat && c.toNat ≤ 13)

/-- `ltrim(rtrim(s))`, for a token of `strtok`, which is not empty. -/
def trim (s : List Char) : List Char :=
  (s.reverse.dropWhile isspace).reverse.dropWhile isspace

/-- The tokens that `strtok` gives, call by call. -/
def strtok (separator : Char) (s : List Char) : List (List Char) :=
  (s.splitOn separator).filter fun token => token ≠ []

/-- What `fgets` reads, call by call; `buf` is what the call has read so far. -/
def fgets (buf : List Char) : List Char → List (List Char)
  | [] => if buf = [] then [] else [buf]
  | c :: rest =>
      if c = '\n' ∨ buf.length + 1 = BUFSIZ - 1 then (buf ++ [c]) :: fgets [] rest
      else fgets (buf ++ [c]) rest

/-- The lines that the loaders do not skip, up to a NUL. -/
def confLines (text : List Char) : List (List Char) :=
  ((fgets [] text).map fun buf => buf.takeWhile fun c => c.toNat ≠ 0).filter fun buf =>
    buf.head? ≠ some '#' ∧ buf.head? ≠ some '\r' ∧ buf.head? ≠ some '\n'

/-- The tokens before an empty one or a comment. -/
def upToComment (tokens : List (List Char)) : List (List Char) :=
  (tokens.map trim).takeWhile fun token => token ≠ [] ∧ token.head? ≠ some '#'

end Text

/-- A loader returns an error, or it leaves an array. -/
inductive Failure where
  | rejected (dRet : Int)
  | outside
  deriving DecidableEq, Repr

def checked {α : Type} (result : Except Int α) : Except Failure α := result.mapError .rejected

section Cifo

structure KeyConf where
  uiShmKey : Nat
  uiHeadRoomSize : Nat
  deriving DecidableEq, Repr

/-- `szType`, `szTmp` and `szInfo`, as far as `sscanf` reads them. -/
def scanWords (buf : List Char) : List (List Char) :=
  ((buf.splitOnP isspace).filter fun word => word ≠ []).take 3

/-- One of the first two lines of `cifo_conf_init`. The arrays of the words have 64 places. -/
def cifoKeyLine (keys : KeyConf) (buf : List Char) : Except Failure KeyConf :=
  if ∃ word ∈ scanWords buf, 64 ≤ word.length then .error .outside
  else
    match scanWords buf with
    | [szType, _, szInfo] =>
        if szType = "uiShmKey".toList then do
          let uiShmKey ← checked (defaultCheck szInfo .zero)
          .ok { keys with uiShmKey := uiShmKey }
        else if szType = "uiHeadRoomSize".toList then do
          let uiHeadRoomSize ← checked (defaultCheck szInfo .zero)
          .ok { keys with uiHeadRoomSize := uiHeadRoomSize }
        else .error (.rejected (-1))
    | _ => .error (.rejected (-1))

/-- `cifo_chan_init` stores the channel at `stCHANCONF[uiChCnt]`. -/
def cifoChanLine (locals : ChanConf) (chans : List ChanConf) (buf : List Char) :
    Except Failure (List ChanConf) := do
  let after ← checked (cifoChanInit locals chans ((strtok '/' buf).map trim))
  if chans.length < MAX_CHAN_CNT then .ok after else .error .outside

def cifoConfInit (keys : KeyConf) (locals : ChanConf) (text : List Char) :
    Except Failure (KeyConf × List ChanConf) := do
  let keys ← ((confLines text).take 2).foldlM cifoKeyLine keys
  let chans ← ((confLines text).drop 2).foldlM (cifoChanLine locals) []
  .ok (keys, chans)

/-- `st_CIFOCONF`; `uiChID` is what `stCHANCONF` held before. -/
structure StCifoConf where
  chans : List ChanConf
  uiChID : Nat → Nat

/-- `pCIFOCONF->stCHANCONF[index].uiChID`. -/
def StCifoConf.chanID (conf : StCifoConf) (index : Nat) : Except Failure Nat :=
  if index < MAX_CHAN_CNT then
    .ok (match conf.chans[index]? with
      | some chan => chan.uiChID
      | none => conf.uiChID index)
  else .error .outside

end Cifo

section Gifo

structure Group where
  uiGrID : Nat
  uiChCnt : Nat
  uiChID : Nat → Nat

def Group.channels (group : Group) : List Nat := (List.range group.uiChCnt).map group.uiChID

structure StGifo where
  uiGrCnt : Nat
  stGROUP : Nat → Group
  uiMatrixChID : Nat → Nat
  uiMatrixGrID : Nat → Nat

def StGifo.setGroup (gifo : StGifo) (index : Nat) (group : Group) : StGifo :=
  { gifo with stGROUP := Function.update gifo.stGROUP index group }

/-- The loop over the channels of another group. -/
def Group.lists (group : Group) (uiChID : Nat) : Except Failure Bool :=
  if ∃ j < min group.uiChCnt MAX_CHAN_CNT, group.uiChID j = uiChID then .ok true
  else if MAX_CHAN_CNT < group.uiChCnt then .error .outside
  else .ok false

/-- The loop over the groups before. -/
def inOtherGroup (gifo : StGifo) (uiChID : Nat) : Except Failure Bool :=
  (List.range gifo.uiGrCnt).anyM fun i =>
    if i < MAX_GROUP_CNT then (gifo.stGROUP i).lists uiChID else .error .outside

/-- One turn of the loop of `gifo_group_init`. -/
def groupChan (conf : StCifoConf) (gifo : StGifo) (pChTok : List Char) : Except Failure StGifo := do
  let uiChID ← checked (defaultCheck pChTok .zero)
  if ← inOtherGroup gifo uiChID then .error (.rejected DEF_ERR_EXIST)
  else do
    let stored ← conf.chanID uiChID
    if stored ≠ uiChID then .error (.rejected DEF_ERR_NOT_EXIST)
    else if MAX_GROUP_CNT ≤ gifo.uiGrCnt then .error .outside
    else
      let pGroup := gifo.stGROUP gifo.uiGrCnt
      if pGroup.uiChCnt > MAX_CHAN_CNT then .error (.rejected DEF_MAX_OVERFLOW)
      else if pGroup.uiChCnt = MAX_CHAN_CNT then .error .outside
      else
        .ok (gifo.setGroup gifo.uiGrCnt { pGroup with
          uiChID := Function.update pGroup.uiChID pGroup.uiChCnt uiChID
          uiChCnt := pGroup.uiChCnt + 1 })

/-- The tokens of the channels of a group, in the second part of its line. -/
def groupTokens (buf : List Char) : List (List Char) :=
  upToComment (strtok ',' ((strtok '/' buf).getD 1 []))

def gifoGroupInit (conf : StCifoConf) (gifo : StGifo) (buf : List Char) : Except Failure StGifo :=
  match (strtok '/' buf).head? with
  | none => .error (.rejected DEF_ERR_NOTNUM)
  | some pTok => do
      let uiGrID ← checked (defaultCheck pTok .zero)
      if gifo.uiGrCnt ≠ uiGrID then .error (.rejected DEF_ERR_EXIST)
      else do
        let gifo ← (groupTokens buf).foldlM (groupChan conf) gifo
        if MAX_GROUP_CNT ≤ gifo.uiGrCnt then .error .outside
        else
          let pGroup := gifo.stGROUP gifo.uiGrCnt
          if pGroup.uiChCnt = 0 then .error (.rejected DEF_ERR_LOWONE)
          else
            .ok { gifo.setGroup gifo.uiGrCnt { pGroup with uiGrID := uiGrID } with
              uiGrCnt := gifo.uiGrCnt + 1 }

/-- `uiWSeq*1000+uiRSeq`. -/
def matrixIndex (uiWSeq uiRSeq : Nat) : Nat := u32 (uiWSeq * 1000 + uiRSeq)

def MATRIX_SIZE : Nat := MAX_SEQ_PROC_NUM * MAX_SEQ_PROC_NUM

/-- The third token of a line of the write matrix. -/
def matrixChan (conf : StCifoConf) (pTok : List Char) : Except Failure Nat := do
  let uiChID ← checked (defaultCheck pTok .zero)
  let stored ← conf.chanID uiChID
  if stored ≠ uiChID then .error (.rejected DEF_ERR_NOT_EXIST) else .ok uiChID

def gifoWriteMatrix (conf : StCifoConf) (gifo : StGifo) (buf : List Char) : Except Failure StGifo :=
  match (upToComment (strtok '/' buf)).take 3 with
  | [write, read, chan] => do
      let uiWSeq ← checked (defaultCheck write .zero)
      let uiRSeq ← checked (defaultCheck read .zero)
      let uiChID ← matrixChan conf chan
      let index := matrixIndex uiWSeq uiRSeq
      if index > MATRIX_SIZE then .error (.rejected DEF_MAX_OVERFLOW)
      else if index = MATRIX_SIZE then .error .outside
      else if gifo.uiMatrixChID index ≠ INVALID_ID then .error (.rejected DEF_ERR_EXIST)
      else .ok { gifo with uiMatrixChID := Function.update gifo.uiMatrixChID index uiChID }
  | tokens => do
      let _ ← tokens.mapM fun pTok => checked (defaultCheck pTok .zero)
      .error (.rejected DEF_ERR_MEMBERS)

/-- The first token of a line of the read matrix. -/
def matrixReader (gifo : StGifo) (pTok : List Char) : Except Failure Nat := do
  let uiRSeq ← checked (defaultCheck pTok .zero)
  if MAX_SEQ_PROC_NUM ≤ uiRSeq then .error .outside
  else if gifo.uiMatrixGrID uiRSeq ≠ INVALID_ID then .error (.rejected DEF_ERR_EXIST)
  else .ok uiRSeq

/-- The second token of a line of the read matrix. -/
def matrixGroup (gifo : StGifo) (pTok : List Char) : Except Failure Nat := do
  let uiGrID ← checked (defaultCheck pTok .zero)
  if MAX_GROUP_CNT ≤ uiGrID then .error .outside
  else if (gifo.stGROUP uiGrID).uiGrID ≠ uiGrID then .error (.rejected DEF_ERR_NOT_EXIST)
  else .ok uiGrID

def gifoReadMatrix (gifo : StGifo) (buf : List Char) : Except Failure StGifo :=
  match (upToComment (strtok '/' buf)).take 2 with
  | [read, group] => do
      let uiRSeq ← matrixReader gifo read
      let uiGrID ← matrixGroup gifo group
      if uiRSeq > MAX_SEQ_PROC_NUM then .error (.rejected DEF_MAX_OVERFLOW)
      else .ok { gifo with uiMatrixGrID := Function.update gifo.uiMatrixGrID uiRSeq uiGrID }
  | [read] => do
      let _ ← matrixReader gifo read
      .error (.rejected DEF_ERR_MEMBERS)
  | _ => .error (.rejected DEF_ERR_MEMBERS)

/-- `strtok(buf, "#")`. -/
def uncomment (buf : List Char) : List Char := buf.takeWhile fun c => c ≠ '#'

/-- The line that ends a part of the file, by `dCurSet`. -/
def endMark : Nat → List Char
  | 0 => "END_GROUP".toList
  | 1 => "END_WRITE_MATRIX".toList
  | _ => "END_READ_MATRIX".toList

def gifoPart (conf : StCifoConf) : Nat → StGifo → List Char → Except Failure StGifo
  | 0 => gifoGroupInit conf
  | 1 => gifoWriteMatrix conf
  | _ => gifoReadMatrix

/-- One turn of the loop of `gifo_conf_init`. -/
def gifoLine (conf : StCifoConf) (state : Nat × StGifo) (buf : List Char) :
    Except Failure (Nat × StGifo) :=
  if 3 ≤ state.1 then .ok state
  else if uncomment buf = endMark state.1 then .ok (state.1 + 1, state.2)
  else do
    let gifo ← gifoPart conf state.1 state.2 (uncomment buf)
    .ok (state.1, gifo)

/-- The structure before the first line; `stGROUP` is what the groups held. -/
def gifoStart (stGROUP : Nat → Group) : StGifo where
  uiGrCnt := 0
  stGROUP := stGROUP
  uiMatrixChID := fun _ => INVALID_ID
  uiMatrixGrID := fun _ => INVALID_ID

def gifoConfInit (conf : StCifoConf) (stGROUP : Nat → Group) (text : List Char) :
    Except Failure StGifo := do
  let (dCurSet, gifo) ← (confLines text).foldlM (gifoLine conf) (0, gifoStart stGROUP)
  if dCurSet ≠ 3 then .error (.rejected DEF_ERR_FORM) else .ok gifo

/-- What the structures of `gifo_init_group` and the locals of `cifo_chan_init` hold before. -/
structure Raw where
  keys : KeyConf
  locals : ChanConf
  uiChID : Nat → Nat
  stGROUP : Nat → Group

/-- The loaders of `gifo_init_group`. -/
def gifoLoad (raw : Raw) (cifoText gifoText : List Char) :
    Except Failure (List ChanConf × StGifo) := do
  let (_, chans) ← cifoConfInit raw.keys raw.locals cifoText
  let gifo ← gifoConfInit ⟨chans, raw.uiChID⟩ raw.stGROUP gifoText
  .ok (chans, gifo)

def gifoWrite (shm : MemsInfo) (cifo : StCifo) (gifo : StGifo) (uiWProcID uiRProcID offset : Nat) :
    Option (Int × MemsInfo × StCifo) :=
  let index := matrixIndex uiWProcID uiRProcID
  if index < MATRIX_SIZE then cifoWrite shm cifo (gifo.uiMatrixChID index) offset else none

end Gifo

end Upst.Gifo
