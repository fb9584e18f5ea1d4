import Upst.L2tpDecode
import Upst.Guarded

/-!
What the decoder of L2TP control messages reads and writes. The message is its bytes and no more:
a read behind the last of them, and a text that does not fit its array, has no result.
-/

namespace Upst.L2tp

open Bytes Network Fields Guarded

set_option autoImplicit false

section Source

/-- `place` is that of `AVPValue`. -/
def Store.performIn (message : List UInt8) (place size : Nat) (info : L2tpInfo) :
    Store → Option L2tpInfo
  | .half field skip => (numberAt message (place + skip) 2).bind fun value =>
      some (info.setNum field value)
  | .word field => (numberAt message place 4).bind fun value =>
      some (info.setNum field value)
  | .octet field skip => (numberAt message (place + skip) 1).bind fun value =>
      some (info.setNum field value)
  | .text field => (bytesAt message place size).bind fun value =>
      if size < field.size then some (info.putText field value) else none
  | .flag field => some (info.setNum field 1)

def avpCaseIn (message : List UInt8) (place size avp_type : Nat) (info : L2tpInfo) : Option L2tpInfo :=
  (avpStores avp_type).foldlM (Store.performIn message place size) info

/-- `avp_len`, `avp_vendor_id` and `avp_type`. -/
def avpHdrIn (message : List UInt8) (idx : Nat) : Option (Nat × Nat × Nat) := do
  let avp_vendor_id ← numberAt message (idx + 2) 2
  let avp_len ← numberAt message (idx + 1) 1
  let avp_type ← numberAt message (idx + 4) 2
  some (avp_len, avp_vendor_id, avp_type)

/-- No case stores to `usLength`. -/
def avpLoopIn (message : List UInt8) (usLength idx : Nat) (info : L2tpInfo) : Option (Int × L2tpInfo) :=
  if idx < usLength then
    (avpHdrIn message idx).bind fun (avp_len, _, avp_type) =>
      if avp_len < 6 then some (-2, info)
      else
        (avpCaseIn message (idx + 6) (avp_len - 6) avp_type info).bind fun info =>
          avpLoopIn message usLength (idx + avp_len) info
  else some (1, info)
termination_by usLength - idx

/-- The header, and `idx` behind it. -/
def analyzeHeaderIn (message : List UInt8) (info : L2tpInfo) : Option (L2tpInfo × Nat) := do
  let control ← numberAt message 0 2
  let info := if CONTROL_BIT control then info.setNum .usPacketType 1 else info
  let (info, idx) ←
    if LENGTH_BIT control then
      (numberAt message 2 2).bind fun usLength => some (info.setNum .usLength usLength, 4)
    else some (info.setNum .usLength 0, 2)
  let usTunnelID ← numberAt message idx 2
  let usSessionID ← numberAt message (idx + 2) 2
  let info := (info.setNum .usTunnelID usTunnelID).setNum .usSessionID usSessionID
  let idx := idx + 4
  let (info, idx) ←
    if SEQUENCE_BIT control then
      (numberAt message idx 2).bind fun usNr => (numberAt message (idx + 2) 2).bind fun usNs =>
        some ((info.setNum .usNr usNr).setNum .usNs usNs, idx + 4)
    else some ((info.setNum .usNr 0).setNum .usNs 0, idx)
  let (info, idx) ←
    if OFFSET_BIT control then
      (numberAt message idx 2).bind fun usOffsetSize =>
        some (info.setNum .usOffsetSize usOffsetSize, idx + 2 + usOffsetSize)
    else some (info.setNum .usOffsetSize 0, idx)
  some (info.setNum .usHeaderSize (idx % 2 ^ 16), idx)

def analyzeL2TPIn (message : List UInt8) (info : L2tpInfo) : Option (Int × L2tpInfo) := do
  let (info, idx) ← analyzeHeaderIn message info
  if info.num .usLength = 12 ∨ info.num .usLength = 0 then some (1, info.setNum .usMessageType 0)
  else avpLoopIn message (info.num .usLength) idx info

end Source

section Claim

def controlOf (message : List UInt8) : Nat := ntohs (memory message) 0

/-- The size of the header without what the offset skips. -/
def headerNeed (control : Nat) : Nat :=
  6 + (if LENGTH_BIT control then 2 else 0) + (if SEQUENCE_BIT control then 4 else 0) +
    (if OFFSET_BIT control then 2 else 0)

def lengthField (message : List UInt8) : Nat :=
  if LENGTH_BIT (controlOf message) then ntohs (memory message) 2 else 0

/-- Where the attributes start. -/
def headerEnd (message : List UInt8) : Nat :=
  headerNeed (controlOf message) +
    if OFFSET_BIT (controlOf message) then
      ntohs (memory message) (headerNeed (controlOf message) - 2)
    else 0

def lengthAt (message : List UInt8) (idx : Nat) : Nat := (memory message (idx + 1)).toNat

def typeAt (message : List UInt8) (idx : Nat) : Nat := ntohs (memory message) (idx + 4)

/-- What the store reads lies inside of the message, and a text is shorter than its array. -/
def Store.Inside (message : List UInt8) (place size : Nat) : Store → Prop
  | .half _ skip => place + skip + 2 ≤ message.length
  | .word _ => place + 4 ≤ message.length
  | .octet _ skip => place + skip + 1 ≤ message.length
  | .text field => place + size ≤ message.length ∧ size < field.size
  | .flag _ => True

/-- The places of the attributes that are read. -/
inductive Reads (message : List UInt8) : Nat → Prop where
  | first : headerEnd message < lengthField message → Reads message (headerEnd message)
  | next (idx : Nat) : Reads message idx → 6 ≤ lengthAt message idx →
      idx + lengthAt message idx < lengthField message → Reads message (idx + lengthAt message idx)

/-- The attribute's header lies inside of the message, and so does what its case stores. -/
def AvpInside (message : List UInt8) (idx : Nat) : Prop :=
  idx + 6 ≤ message.length ∧
    (6 ≤ lengthAt message idx → ∀ store ∈ avpStores (typeAt message idx),
      store.Inside message (idx + 6) (lengthAt message idx - 6))

/-- The header lies inside of the message, and so does every attribute that is read. -/
def MessageInside (message : List UInt8) : Prop :=
  headerNeed (controlOf message) ≤ message.length ∧
    (lengthField message ≠ 12 → ∀ idx, Reads message idx → AvpInside message idx)

end Claim

section Header

variable {message : List UInt8}

theorem header_in_eq (message : List UInt8) (info : L2tpInfo) :
    analyzeHeaderIn message info =
      if headerNeed (controlOf message) ≤ message.length then
        some (analyzeHeader (memory message) info)
      else none := by
  have half (place : Nat) : fromBe (readBytes (memory message) place 2) = ntohs (memory message) place :=
    rfl
  rw [controlOf, analyzeHeader, analyzeHeaderIn, Option.bind_eq_bind, number_bind, half]
  generalize ntohs (memory message) 0 = control
  by_cases length : LENGTH_BIT control <;> by_cases sequence : SEQUENCE_BIT control <;>
    by_cases offset : OFFSET_BIT control
  all_goals
    simp only [headerNeed, length, sequence, offset, if_true, if_false, Option.bind_eq_bind,
      Option.bind_assoc, Option.bind_some]
    simp only [number_bind, half, ← ite_and]
    refine if_congr (by omega) rfl rfl

theorem header_fields (message : List UInt8) (info : L2tpInfo) :
    (analyzeHeader (memory message) info).1.num .usLength = lengthField message ∧
      (analyzeHeader (memory message) info).2 = headerEnd message := by
  rw [lengthField, headerEnd, controlOf, analyzeHeader]
  generalize ntohs (memory message) 0 = control
  by_cases length : LENGTH_BIT control <;> by_cases sequence : SEQUENCE_BIT control <;>
    by_cases offset : OFFSET_BIT control
  all_goals
    simp only [headerNeed, length, sequence, offset, if_true, if_false]
    exact ⟨rfl, trivial⟩

end Header

section Loop

variable {message : List UInt8}

theorem perform_in_isSome (place size : Nat) (info : L2tpInfo) (store : Store) :
    (store.performIn message place size info).isSome = true ↔ store.Inside message place size := by
  cases store with
  | half field skip =>
      rw [Store.performIn, number_bind_isSome]
      exact and_iff_left rfl
  | word field =>
      rw [Store.performIn, number_bind_isSome]
      exact and_iff_left rfl
  | octet field skip =>
      rw [Store.performIn, number_bind_isSome]
      exact and_iff_left rfl
  | text field =>
      rw [Store.performIn, bytes_bind_isSome, Store.Inside]
      refine and_congr_right fun _ => ?_
      split
      · next short => exact iff_of_true rfl short
      · next long => exact iff_of_false Bool.false_ne_true long
  | flag field => exact iff_of_true rfl trivial

theorem avp_case_in_isSome (place size avp_type : Nat) (info : L2tpInfo) :
    (avpCaseIn message place size avp_type info).isSome = true ↔
      ∀ store ∈ avpStores avp_type, store.Inside message place size :=
  foldlM_isSome (fun info store => perform_in_isSome place size info store) _ info

theorem avp_hdr_in_eq (idx : Nat) : avpHdrIn message idx =
    if idx + 6 ≤ message.length then
      some (lengthAt message idx, ntohs (memory message) (idx + 2), typeAt message idx)
    else none := by
  simp only [avpHdrIn, Option.bind_eq_bind, number_bind, one_byte, ← ite_and]
  exact if_congr (by omega) rfl rfl

theorem loop_in_eq {usLength idx : Nat} (more : idx < usLength) (info : L2tpInfo) :
    avpLoopIn message usLength idx info =
      if idx + 6 ≤ message.length then
        if lengthAt message idx < 6 then some (-2, info)
        else (avpCaseIn message (idx + 6) (lengthAt message idx - 6) (typeAt message idx) info).bind
          fun info => avpLoopIn message usLength (idx + lengthAt message idx) info
      else none := by
  rw [avpLoopIn, if_pos more, avp_hdr_in_eq]
  split
  · rw [Option.bind_some]
  · rfl

theorem reads_more {idx : Nat} (reads : Reads message idx) : idx < lengthField message := by
  cases reads with
  | first more => exact more
  | next _ _ _ more => exact more

/-- An attribute that is not inside of the message. -/
theorem loop_in_outside {idx : Nat} (reads : Reads message idx) (outside : ¬AvpInside message idx)
    (info : L2tpInfo) : avpLoopIn message (lengthField message) idx info = none := by
  rw [loop_in_eq (reads_more reads)]
  split
  · next header =>
      split
      · next short =>
          exact absurd ⟨header, fun long => absurd long (Nat.not_le.mpr short)⟩ outside
      · next long =>
          have stored := (not_congr (@avp_case_in_isSome message (idx + 6) (lengthAt message idx - 6)
            (typeAt message idx) info)).mpr fun inside => outside ⟨header, fun _ => inside⟩
          rw [Option.not_isSome_iff_eq_none.mp stored]
          rfl
  · rfl

/-- What fails from an attribute that is read fails from the first one. -/
theorem reads_fail {idx : Nat} (reads : Reads message idx)
    (fails : ∀ info, avpLoopIn message (lengthField message) idx info = none) :
    ∀ info, avpLoopIn message (lengthField message) (headerEnd message) info = none := by
  induction reads with
  | first => exact fails
  | next idx reads long more ih =>
      apply ih
      intro info
      rw [loop_in_eq (reads_more reads)]
      split
      · rw [if_neg (Nat.not_lt.mpr long)]
        cases avpCaseIn message (idx + 6) (lengthAt message idx - 6) (typeAt message idx) info with
        | none => rfl
        | some info => exact fails info
      · rfl

theorem loop_in_inside (inside : ∀ idx, Reads message idx → AvpInside message idx) (turns : Nat)
    {idx : Nat} (reads : Reads message idx) (enough : lengthField message ≤ idx + turns)
    (info : L2tpInfo) : (avpLoopIn message (lengthField message) idx info).isSome = true := by
  induction turns generalizing idx info with
  | zero => exact absurd (reads_more reads) (Nat.not_lt.mpr enough)
  | succ turns ih =>
      obtain ⟨header, stores⟩ := inside idx reads
      rw [loop_in_eq (reads_more reads), if_pos header]
      split
      · rfl
      · next long =>
          obtain ⟨info', stored⟩ := Option.isSome_iff_exists.mp
            ((avp_case_in_isSome _ _ _ info).mpr (stores (Nat.not_lt.mp long)))
          rw [stored, Option.bind_some]
          by_cases more : idx + lengthAt message idx < lengthField message
          · exact ih (.next idx reads (Nat.not_lt.mp long) more) (by omega) info'
          · rw [avpLoopIn, if_neg more]
            rfl

theorem loop_in_isSome (info : L2tpInfo) :
    (avpLoopIn message (lengthField message) (headerEnd message) info).isSome = true ↔
      ∀ idx, Reads message idx → AvpInside message idx := by
  constructor
  · intro result idx reads
    by_contra outside
    rw [reads_fail reads (loop_in_outside reads outside) info] at result
    cases result
  · intro inside
    by_cases more : headerEnd message < lengthField message
    · exact loop_in_inside inside (lengthField message) (.first more) (by omega) info
    · rw [avpLoopIn, if_neg more]
      rfl

theorem analyze_in_eq (header : headerNeed (controlOf message) ≤ message.length) (info : L2tpInfo) :
    analyzeL2TPIn message info =
      if lengthField message = 12 ∨ lengthField message = 0 then
        some (1, (analyzeHeader (memory message) info).1.setNum .usMessageType 0)
      else
        avpLoopIn message (lengthField message) (headerEnd message)
          (analyzeHeader (memory message) info).1 := by
  obtain ⟨length, place⟩ := header_fields message info
  rw [analyzeL2TPIn, header_in_eq, if_pos header, Option.bind_eq_bind, Option.bind_some, ← length,
    ← place]

/-- The decoder reads inside of the message, and each text that it copies fits its array, just when
the header and the attributes that are read are inside. -/
theorem l2tp_inside_iff (message : List UInt8) (info : L2tpInfo) :
    (analyzeL2TPIn message info).isSome = true ↔ MessageInside message := by
  by_cases header : headerNeed (controlOf message) ≤ message.length
  · rw [analyze_in_eq header, MessageInside, and_iff_right header]
    split
    · next empty =>
        refine iff_of_true rfl fun other idx reads => ?_
        have none := empty.resolve_left other
        exact absurd (reads_more reads) (by omega)
    · next long =>
        rw [loop_in_isSome]
        exact ⟨fun inside _ => inside, fun inside => inside fun twelve => long (Or.inl twelve)⟩
  · rw [analyzeL2TPIn, header_in_eq, if_neg header]
    exact iff_of_false Bool.false_ne_true fun both => header both.1

end Loop

section Memory

variable {message : List UInt8}

theorem length_unstored : ∀ avp ∈ avpTypes, ∀ store ∈ avp.stores, store.target ≠ .num .usLength := by
  decide

theorem perform_in_some {place size : Nat} {info info' : L2tpInfo} {store : Store}
    (found : store.performIn message place size info = some info') :
    store.perform (memory message) place size info = some info' := by
  cases store with
  | half field skip =>
      rw [Store.performIn, number_bind] at found
      split at found
      · exact found
      · cases found
  | word field =>
      rw [Store.performIn, number_bind] at found
      split at found
      · exact found
      · cases found
  | octet field skip =>
      rw [Store.performIn, number_bind, one_byte] at found
      split at found
      · exact found
      · cases found
  | text field =>
      rw [Store.performIn, bytesAt] at found
      split at found
      · exact found
      · cases found
  | flag field => exact found

theorem perform_length {pBuf : Nat → UInt8} {place size : Nat} {info info' : L2tpInfo} {store : Store}
    (other : store.target ≠ .num .usLength) (found : store.perform pBuf place size info = some info') :
    info'.num .usLength = info.num .usLength := by
  have applied : info' = store.apply pBuf place size info := by
    cases store with
    | text field =>
        rw [Store.perform] at found
        split at found
        · exact (Option.some.inj found).symm
        · cases found
    | _ => exact (Option.some.inj found).symm
  rw [applied]
  exact congrArg Prod.fst (apply_frame pBuf place size other info)

theorem stores_in_some {place size : Nat} (stores : List Store)
    (others : ∀ store ∈ stores, store.target ≠ .num .usLength) {info info' : L2tpInfo}
    (found : stores.foldlM (Store.performIn message place size) info = some info') :
    stores.foldlM (Store.perform (memory message) place size) info = some info' ∧
      info'.num .usLength = info.num .usLength := by
  induction stores generalizing info with
  | nil =>
      cases found
      exact ⟨rfl, rfl⟩
  | cons store stores ih =>
      rw [List.foldlM_cons, Option.bind_eq_bind, Option.bind_eq_some_iff] at found
      obtain ⟨between, first, found⟩ := found
      have here := perform_in_some first
      obtain ⟨performed, kept⟩ := ih (fun other member => others other (List.mem_cons_of_mem _ member)) found
      rw [List.foldlM_cons, here]
      exact ⟨performed, kept.trans (perform_length (others store List.mem_cons_self) here)⟩

theorem avp_case_in_some {place size avp_type : Nat} {info info' : L2tpInfo}
    (found : avpCaseIn message place size avp_type info = some info') :
    avpCase (memory message) place size avp_type info = some info' ∧
      info'.num .usLength = info.num .usLength := by
  rw [avpCaseIn, avpStores] at found
  rw [avpCase]
  cases kind : AvpType.ofCode avp_type with
  | none =>
      rw [kind] at found
      cases found
      exact ⟨rfl, rfl⟩
  | some avp =>
      rw [kind] at found
      exact stores_in_some avp.stores (length_unstored avp (mem_avp_types avp)) found

theorem loop_in_some (fuel : Nat) {usLength idx : Nat} {info : L2tpInfo} {result : Int × L2tpInfo}
    (enough : usLength ≤ idx + fuel) (length : info.num .usLength = usLength)
    (found : avpLoopIn message usLength idx info = some result) :
    avpLoop (memory message) (fuel + 1) idx info = some result := by
  induction fuel generalizing idx info with
  | zero =>
      have done : ¬idx < usLength := Nat.not_lt.mpr enough
      rw [avpLoopIn, if_neg done] at found
      rw [avpLoop, length, if_neg done]
      exact found
  | succ fuel ih =>
      rw [avpLoop, length]
      by_cases more : idx < usLength
      · rw [loop_in_eq more] at found
        rw [if_pos more]
        split at found
        · rw [← lengthAt, ← typeAt]
          split at found
          · next short =>
              rw [if_pos short]
              exact found
          · next long =>
              obtain ⟨between, stored, found⟩ := Option.bind_eq_some_iff.mp found
              obtain ⟨performed, kept⟩ := avp_case_in_some stored
              rw [if_neg long, performed]
              exact ih (by omega) (kept.trans length) found
        · cases found
      · rw [avpLoopIn, if_neg more] at found
        rw [if_neg more]
        exact found

/-- Inside of its message the decoder does what it does on the memory that the message stands in. -/
theorem analyze_in_some {info : L2tpInfo} {result : Int × L2tpInfo}
    (found : analyzeL2TPIn message info = some result) :
    analyzeL2TP (memory message) info = some result := by
  rw [analyzeL2TPIn, header_in_eq] at found
  split at found
  · rw [Option.bind_eq_bind, Option.bind_some] at found
    rw [analyzeL2TP]
    generalize analyzeHeader (memory message) info = read at found ⊢
    obtain ⟨info, idx⟩ := read
    dsimp only at found ⊢
    split at found
    · next empty =>
        rw [if_pos empty]
        exact found
    · next other =>
        rw [if_neg other]
        exact loop_in_some _ (by omega) rfl found
  · cases found

/-- A host name of 41 bytes in a message that is as long as it says. -/
def longName : List UInt8 :=
  [0xC8, 2, 0, 67, 0, 0, 0, 0, 0, 0, 0, 0, 0x80, 8, 0, 0, 0, 0, 0, 1, 0, 47, 0, 0, 0, 7] ++
    List.replicate 41 65

theorem long_name_overruns : longName.length = 67 ∧ analyzeL2TPIn longName clearedInfo = none ∧
    analyzeL2TPIn [0xC8, 2] clearedInfo = none := by
  have more : headerEnd longName < lengthField longName := by decide +kernel
  have name : headerEnd longName + lengthAt longName (headerEnd longName) = 20 := by decide +kernel
  have reads : Reads longName 20 := by
    rw [← name]
    exact .next _ (.first more) (by decide +kernel) (by decide +kernel)
  have outside : ¬AvpInside longName 20 := by
    intro inside
    have stored := inside.2 (by decide +kernel) (.text .szHostName) (by decide +kernel)
    exact absurd stored.2 (by decide +kernel)
  refine ⟨rfl, ?_, ?_⟩
  · rw [analyze_in_eq (by decide +kernel), if_neg (by decide +kernel)]
    exact reads_fail reads (loop_in_outside reads outside) _
  · rw [analyzeL2TPIn, header_in_eq, if_neg (by decide +kernel)]
    rfl

end Memory

end Upst.L2tp
