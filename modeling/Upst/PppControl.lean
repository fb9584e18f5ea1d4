import Upst.Guarded
import Mathlib.Data.Int.Init

/-!
The parsers of the PPP control packets PAP, CHAP and IPCP. The packet is its `wSize` bytes and no
more, and the three arrays that the parsers write have the sizes of their declarations: a read or a
write outside has no result.
-/

namespace Upst.PppControl

open Bytes Network Guarded

set_option autoImplicit false

section Source

/-- The fields of `ANALYZE_INFO_PPP` that the parsers write. -/
structure PppInfo where
  bSimpleIP : Bool
  ucCode : Nat
  ucID : Nat
  ucIPAddr : Block UInt8 4
  szUserName : Block UInt8 32
  szFailureMsg : Block UInt8 64

def ERR_Invalid_Length : Int := -11
def ERR_030101 : Int := -30101
def ERR_040101 : Int := -40101
def ERR_060101 : Int := -60101

/-- `sizeof(PPP_DATA_HEADER)-1`. -/
def HEADER_SIZE : Nat := 4

def s16 (value : Int) : Int := value.bmod (2 ^ 16)

/-- The start that the parsers share: `codes` is the table that the code is looked up in, and `data`
what follows with the code and `Length`. -/
def parse (err : Int) (codes : List Nat) (message : List UInt8) (info : PppInfo)
    (data : Nat → Nat → PppInfo → Option (Int × PppInfo)) : Option (Int × PppInfo) :=
  if message.length < HEADER_SIZE then some (err, info)
  else do
    let code ← numberAt message 0 1
    if code ∈ codes then do
      let id ← numberAt message 1 1
      let length ← numberAt message 2 2
      data code length { info with ucCode := code, ucID := id }
    else some (0, info)

/-- The last part of `Analyze_PPP_CHAP`. -/
def chapData (message : List UInt8) (code length : Nat) (info : PppInfo) : Option (Int × PppInfo) :=
  if length > message.length ∨ length < 4 then some (ERR_Invalid_Length, info)
  else if code = 2 then do
    let tempLen ← numberAt message 4 1
    if tempLen + 5 ≥ length then some (ERR_Invalid_Length, info)
    else do
      let name ← bytesAt message (4 + tempLen + 1) (length - tempLen - 5)
      let szUserName ← info.szUserName.copy 0 name
      let szUserName ← szUserName.copy (length - tempLen - 5) [0]
      some (1, { info with szUserName := szUserName })
  else if code = 4 then do
    let text ← bytesAt message 4 (length - 4)
    let szFailureMsg ← info.szFailureMsg.copy 0 text
    some (1, { info with szFailureMsg := szFailureMsg })
  else some (1, info)

def Analyze_PPP_CHAP (message : List UInt8) (info : PppInfo) : Option (Int × PppInfo) :=
  parse ERR_030101 [1, 2, 3, 4] message info (chapData message)

/-- The switch over the option at `i`. -/
def ipcpOption (message : List UInt8) (code i : Nat) (info : PppInfo) : Option PppInfo := do
  let option ← numberAt message (4 + i) 1
  if option = 3 then do
    let info := if code = 2 then { info with bSimpleIP := true } else info
    let address ← bytesAt message (4 + i + 2) 4
    let ucIPAddr ← info.ucIPAddr.copy 0 address
    some { info with ucIPAddr := ucIPAddr }
  else some info

/-- The second look at an option length of zero is never met. -/
def ipcpLoop (message : List UInt8) (code length : Nat) (dataLength : Int) (i : Nat) (info : PppInfo) :
    Option (Int × PppInfo) :=
  if 0 < dataLength then
    (numberAt message (4 + i + 1) 1).bind fun tempLen =>
      if tempLen > length ∨ tempLen ≤ 0 then some (ERR_Invalid_Length, info)
      else
        (ipcpOption message code i info).bind fun info =>
          if dataLength - tempLen < 0 then some (ERR_Invalid_Length, info)
          else ipcpLoop message code length (dataLength - tempLen) (i + tempLen) info
  else some (1, info)
termination_by dataLength.toNat

def ipcpData (message : List UInt8) (code length : Nat) (info : PppInfo) : Option (Int × PppInfo) :=
  if length > message.length then some (ERR_Invalid_Length, info)
  else ipcpLoop message code length (s16 (s16 length - 4)) 0 info

def Analyze_PPP_IPCP (message : List UInt8) (info : PppInfo) : Option (Int × PppInfo) :=
  parse ERR_040101 [1, 2, 3, 4, 5, 6, 7] message info (ipcpData message)

def papData (message : List UInt8) (code length : Nat) (info : PppInfo) : Option (Int × PppInfo) :=
  if length > message.length then some (ERR_Invalid_Length, info)
  else if code = 1 then do
    let userLength ← numberAt message 4 1
    let name ← bytesAt message 5 userLength
    let szUserName ← info.szUserName.copy 0 name
    let szUserName ← szUserName.copy userLength [0]
    some (1, { info with szUserName := szUserName })
  else some (1, info)

def Analyze_PPP_PAP (message : List UInt8) (info : PppInfo) : Option (Int × PppInfo) :=
  parse ERR_060101 [1, 2, 3] message info (papData message)

end Source

section Claim

def byteAt (message : List UInt8) (place : Nat) : Nat := (memory message place).toNat

def lengthOf (message : List UInt8) : Nat := ntohs (memory message) 2

/-- The packet has a header with a code of the table, so that its data are looked at. -/
def Taken (codes : List Nat) (message : List UInt8) : Prop :=
  HEADER_SIZE ≤ message.length ∧ byteAt message 0 ∈ codes

/-- A response says how long its value is, and its name is shorter than its array; a failure message
fits its array. -/
def ChapInside (message : List UInt8) : Prop :=
  4 ≤ lengthOf message → lengthOf message ≤ message.length →
    (byteAt message 0 = 2 → 5 ≤ message.length ∧
      (byteAt message 4 + 5 < lengthOf message → lengthOf message - byteAt message 4 - 5 < 32)) ∧
    (byteAt message 0 = 4 → lengthOf message ≤ 68)

/-- A request says how long its name is, and the name lies inside of the packet and is shorter than
its array. -/
def PapInside (message : List UInt8) : Prop :=
  lengthOf message ≤ message.length → byteAt message 0 = 1 →
    5 + byteAt message 4 ≤ message.length ∧ 5 ≤ message.length ∧ byteAt message 4 < 32

/-- The data length that the loop over the options starts with. -/
def dataLengthOf (message : List UInt8) : Int := s16 (s16 (lengthOf message) - 4)

/-- An option length that passes. -/
def Passes (message : List UInt8) (i : Nat) : Prop :=
  0 < byteAt message (4 + i + 1) ∧ byteAt message (4 + i + 1) ≤ lengthOf message

instance (message : List UInt8) (i : Nat) : Decidable (Passes message i) :=
  inferInstanceAs (Decidable (_ ∧ _))

/-- The places of the options that are read, from the first one. -/
inductive Reads (message : List UInt8) : Nat → Prop where
  | first : 0 < dataLengthOf message → Reads message 0
  | next (i : Nat) : Reads message i → Passes message i →
      (i + byteAt message (4 + i + 1) : Nat) < dataLengthOf message →
      Reads message (i + byteAt message (4 + i + 1))

/-- The two octets of the option lie inside of the packet, and so does the address. -/
def OptionInside (message : List UInt8) (i : Nat) : Prop :=
  4 + i + 2 ≤ message.length ∧
    (Passes message i → byteAt message (4 + i) = 3 → 4 + i + 6 ≤ message.length)

def IpcpInside (message : List UInt8) : Prop :=
  lengthOf message ≤ message.length → ∀ i, Reads message i → OptionInside message i

end Claim

section Shared

variable {message : List UInt8}

theorem byte_at_eq (place : Nat) :
    fromBe (readBytes (memory message) place 1) = byteAt message place := one_byte message place

theorem parse_isSome {fits : Prop} {err : Int} {codes : List Nat} {info : PppInfo}
    {data : Nat → Nat → PppInfo → Option (Int × PppInfo)}
    (each : ∀ info, (data (byteAt message 0) (lengthOf message) info).isSome = true ↔ fits) :
    (parse err codes message info data).isSome = true ↔ (Taken codes message → fits) := by
  rw [parse, Taken]
  by_cases short : message.length < HEADER_SIZE
  · rw [if_pos short]
    exact iff_of_true rfl fun taken => absurd taken.1 (Nat.not_le.mpr short)
  · have long : 4 ≤ message.length := Nat.not_lt.mp short
    rw [if_neg short, Option.bind_eq_bind, number_bind, if_pos (by omega), byte_at_eq]
    split
    · next found =>
        rw [number_bind, if_pos (by omega), number_bind, if_pos (by omega)]
        exact (each _).trans ⟨fun inside _ => inside, fun inside => inside ⟨long, found⟩⟩
    · next unknown => exact iff_of_true rfl fun taken => absurd taken.2 unknown

end Shared

section Names

variable {message : List UInt8}

theorem read_length (place size : Nat) : (readBytes (memory message) place size).length = size :=
  read_bytes_length _ _ _

theorem name_isSome {place size : Nat} (block : Block UInt8 32) (result : Block UInt8 32 → Int × PppInfo) :
    ((bytesAt message place size).bind fun name =>
      (block.copy 0 name).bind fun block =>
        (block.copy size [0]).bind fun block => some (result block)).isSome = true ↔
      place + size ≤ message.length ∧ size < 32 := by
  rw [bytes_bind_isSome]
  refine and_congr_right fun _ => ?_
  rw [copy_bind_isSome block 0 _ (fun copied => copy_some_isSome copied size [0] result), read_length,
    List.length_singleton]
  omega

theorem chap_data_isSome (info : PppInfo) :
    (chapData message (byteAt message 0) (lengthOf message) info).isSome = true ↔
      ChapInside message := by
  rw [chapData, ChapInside]
  split
  · next refused => exact iff_of_true rfl fun low high => by omega
  · next passed =>
      have low : 4 ≤ lengthOf message := by omega
      have high : lengthOf message ≤ message.length := by omega
      rw [forall_prop_of_true low, forall_prop_of_true high]
      split
      · next response =>
          have single : byteAt message 0 ≠ 4 := by omega
          rw [Option.bind_eq_bind, number_bind_isSome, byte_at_eq, forall_prop_of_true response,
            and_iff_left (fun four => absurd four single)]
          refine and_congr_right fun _ => ?_
          split
          · next short => exact iff_of_true rfl fun long => by omega
          · next long =>
              rw [forall_prop_of_true (by omega)]
              refine (name_isSome info.szUserName _).trans ?_
              omega
      · next other =>
          split
          · next failure =>
              rw [and_iff_right (fun two => absurd two other), forall_prop_of_true failure,
                Option.bind_eq_bind, bytes_bind_isSome, Option.bind_eq_bind, copy_some_isSome, read_length]
              omega
          · next neither =>
              exact iff_of_true rfl ⟨fun two => absurd two other, fun four => absurd four neither⟩

theorem pap_data_isSome (info : PppInfo) :
    (papData message (byteAt message 0) (lengthOf message) info).isSome = true ↔
      PapInside message := by
  rw [papData, PapInside]
  split
  · next refused => exact iff_of_true rfl fun high => by omega
  · next passed =>
      rw [forall_prop_of_true (Nat.not_lt.mp passed)]
      split
      · next request =>
          rw [forall_prop_of_true request, Option.bind_eq_bind, number_bind_isSome, byte_at_eq]
          refine (and_congr_right fun _ => name_isSome info.szUserName _).trans ?_
          omega
      · next other => exact iff_of_true rfl fun one => absurd one other

end Names

section Options

variable {message : List UInt8}

theorem option_isSome (i : Nat) (info : PppInfo) :
    (ipcpOption message (byteAt message 0) i info).isSome = true ↔
      4 + i + 1 ≤ message.length ∧ (byteAt message (4 + i) = 3 → 4 + i + 6 ≤ message.length) := by
  rw [ipcpOption, Option.bind_eq_bind, number_bind_isSome, byte_at_eq]
  refine and_congr_right fun _ => ?_
  split
  · next address =>
      rw [forall_prop_of_true address, Option.bind_eq_bind, bytes_bind_isSome, Option.bind_eq_bind,
        copy_some_isSome, read_length]
      omega
  · next other => exact iff_of_true rfl fun three => absurd three other

theorem loop_eq {i : Nat} {dataLength : Int} (more : 0 < dataLength) (info : PppInfo) :
    ipcpLoop message (byteAt message 0) (lengthOf message) dataLength i info =
      if 4 + i + 1 + 1 ≤ message.length then
        if Passes message i then
          (ipcpOption message (byteAt message 0) i info).bind fun info =>
            if dataLength - byteAt message (4 + i + 1) < 0 then some (ERR_Invalid_Length, info)
            else ipcpLoop message (byteAt message 0) (lengthOf message)
              (dataLength - byteAt message (4 + i + 1)) (i + byteAt message (4 + i + 1)) info
        else some (ERR_Invalid_Length, info)
      else none := by
  rw [ipcpLoop, if_pos more, number_bind, byte_at_eq]
  refine if_congr Iff.rfl ?_ rfl
  by_cases passes : Passes message i
  · rw [if_pos passes, if_neg]
    rintro (long | none)
    · exact absurd passes.2 (Nat.not_le.mpr long)
    · exact absurd passes.1 (Nat.not_lt.mpr none)
  · rw [if_neg passes, if_pos]
    by_contra neither
    exact passes ⟨by omega, by omega⟩

theorem reads_more {i : Nat} (reads : Reads message i) : (i : Int) < dataLengthOf message := by
  cases reads with
  | first more => exact more
  | next _ _ _ more => exact more

/-- The loop at the option `i`. -/
def loopAt (message : List UInt8) (i : Nat) (info : PppInfo) : Option (Int × PppInfo) :=
  ipcpLoop message (byteAt message 0) (lengthOf message) (dataLengthOf message - i) i info

theorem loop_at_outside {i : Nat} (reads : Reads message i) (outside : ¬OptionInside message i)
    (info : PppInfo) : loopAt message i info = none := by
  have more := reads_more reads
  rw [loopAt, loop_eq (Int.sub_pos_of_lt more)]
  split
  · next header =>
      split
      · next passes =>
          have stored := (not_congr (@option_isSome message i info)).mpr fun inside =>
            outside ⟨header, fun _ => inside.2⟩
          rw [Option.not_isSome_iff_eq_none.mp stored]
          rfl
      · next refused => exact absurd ⟨header, fun passes => absurd passes refused⟩ outside
  · rfl

theorem reads_fail {i : Nat} (reads : Reads message i) (fails : ∀ info, loopAt message i info = none) :
    ∀ info, loopAt message 0 info = none := by
  induction reads with
  | first => exact fails
  | next i reads passes more ih =>
      apply ih
      intro info
      have before := reads_more reads
      rw [loopAt, loop_eq (Int.sub_pos_of_lt before)]
      split
      · cases ipcpOption message (byteAt message 0) i info with
        | none => rfl
        | some info =>
            have next := fails info
            have less : dataLengthOf message - i - byteAt message (4 + i + 1) =
                dataLengthOf message - (i + byteAt message (4 + i + 1) : Nat) := by omega
            rw [loopAt, ← less] at next
            rw [Option.bind_some, if_neg (by omega)]
            exact next
      · rfl

theorem loop_at_inside (inside : ∀ i, Reads message i → OptionInside message i) (turns : Nat) {i : Nat}
    (reads : Reads message i) (enough : dataLengthOf message ≤ i + turns) (info : PppInfo) :
    (loopAt message i info).isSome = true := by
  have more := reads_more reads
  induction turns generalizing i info with
  | zero => exact absurd more (by omega)
  | succ turns ih =>
      obtain ⟨header, address⟩ := inside i reads
      rw [loopAt, loop_eq (Int.sub_pos_of_lt more), if_pos header]
      split
      · next passes =>
          obtain ⟨info', stored⟩ := Option.isSome_iff_exists.mp
            ((option_isSome i info).mpr ⟨by omega, address passes⟩)
          have positive := passes.1
          have less : dataLengthOf message - i - byteAt message (4 + i + 1) =
              dataLengthOf message - (i + byteAt message (4 + i + 1) : Nat) := by omega
          rw [stored, Option.bind_some, less]
          split
          · rfl
          · by_cases more' : (i + byteAt message (4 + i + 1) : Nat) < dataLengthOf message
            · exact ih (.next i reads passes more') (by omega) info' more'
            · rw [ipcpLoop, if_neg (by omega)]
              rfl
      · rfl

theorem ipcp_data_isSome (info : PppInfo) :
    (ipcpData message (byteAt message 0) (lengthOf message) info).isSome = true ↔
      IpcpInside message := by
  rw [ipcpData, IpcpInside]
  split
  · next refused => exact iff_of_true rfl fun high => by omega
  · next passed =>
      have start : ipcpLoop message (byteAt message 0) (lengthOf message)
          (s16 (s16 (lengthOf message) - 4)) 0 info = loopAt message 0 info := by
        rw [loopAt, dataLengthOf, Int.natCast_zero, Int.sub_zero]
      rw [forall_prop_of_true (Nat.not_lt.mp passed), start]
      constructor
      · intro result i reads
        by_contra outside
        rw [reads_fail reads (loop_at_outside reads outside) info] at result
        cases result
      · intro inside
        by_cases more : 0 < dataLengthOf message
        · exact loop_at_inside inside (dataLengthOf message).toNat (.first more) (by omega) info
        · rw [loopAt, ipcpLoop, Int.natCast_zero, Int.sub_zero, if_neg more]
          rfl

/-- Each parser reads inside of the packet and writes inside of its arrays just when the packet is
inside in its sense. -/
theorem ppp_control_inside_iff (message : List UInt8) (info : PppInfo) :
    ((Analyze_PPP_PAP message info).isSome = true ↔ (Taken [1, 2, 3] message → PapInside message)) ∧
    ((Analyze_PPP_CHAP message info).isSome = true ↔
      (Taken [1, 2, 3, 4] message → ChapInside message)) ∧
    ((Analyze_PPP_IPCP message info).isSome = true ↔
      (Taken [1, 2, 3, 4, 5, 6, 7] message → IpcpInside message)) :=
  ⟨parse_isSome pap_data_isSome, parse_isSome chap_data_isSome, parse_isSome ipcp_data_isSome⟩

end Options

section Overruns

def clearedInfo : PppInfo where
  bSimpleIP := false
  ucCode := 0
  ucID := 0
  ucIPAddr := ⟨List.replicate 4 0, rfl⟩
  szUserName := ⟨List.replicate 32 0, rfl⟩
  szFailureMsg := ⟨List.replicate 64 0, rfl⟩

/-- A request with a name of 100 bytes, which all lie inside of the packet. -/
def longRequest : List UInt8 := [1, 7, 0, 105, 100] ++ List.replicate 100 65

/-- A request that ends behind its header, a response that does, and options of one octet. -/
theorem parsers_overrun : Analyze_PPP_PAP longRequest clearedInfo = none ∧
    Analyze_PPP_PAP [1, 7, 0, 4] clearedInfo = none ∧
    Analyze_PPP_CHAP [2, 7, 0, 4] clearedInfo = none ∧
    Analyze_PPP_IPCP [1, 7, 0, 5, 3] clearedInfo = none := by
  simp only [← Option.not_isSome_iff_eq_none, Analyze_PPP_PAP, Analyze_PPP_CHAP, Analyze_PPP_IPCP,
    parse_isSome pap_data_isSome, parse_isSome chap_data_isSome, parse_isSome ipcp_data_isSome]
  refine ⟨fun inside => ?_, fun inside => ?_, fun inside => ?_, fun inside => ?_⟩
  · have name := (inside ⟨by decide, by decide +kernel⟩ (by decide +kernel) (by decide +kernel)).2.2
    exact absurd name (by decide +kernel)
  · have name := (inside ⟨by decide, by decide +kernel⟩ (by decide +kernel) (by decide +kernel)).2.1
    exact absurd name (by decide)
  · have value := ((inside ⟨by decide, by decide +kernel⟩ (by decide +kernel) (by decide +kernel)).1
      (by decide +kernel)).1
    exact absurd value (by decide)
  · have option := (inside ⟨by decide, by decide +kernel⟩ (by decide +kernel) 0
      (.first (by decide +kernel))).1
    exact absurd option (by decide)

end Overruns

end Upst.PppControl
