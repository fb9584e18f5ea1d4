import Upst.Diameter

/-!
What the decoder makes of a message. It takes version 1 only, stops behind an AVP with code 0, and
takes the rest of a group for its first AVP's; apart from that the last AVP of a code is in its field.
-/

namespace Upst.Diameter

open Bytes Network Fields

set_option autoImplicit false

section Encoding

/-- What an AVP says. The fields for the authorization type, the rule status and the cause are
not among it. -/
def AvpCode.means : AvpCode → Option Store
  | USER_AUTHORIZATION_TYPE | PCC_RULE_STATUS | CAUSE_CODE_CDN => none
  | EXPERIMENTAL_RESULT_CODE => some (.word .uiExpResultCode)
  | avp => avp.store

def Store.Fits (value : List UInt8) : Store → Prop
  | .word _ | .low _ => value.length = 4
  | .lead _ | .text _ => True

def ValueFits (code : Nat) (value : List UInt8) : Prop :=
  ∀ avp store, AvpCode.ofCode code = some avp → avp.means = some store → store.Fits value

structure Avp where
  uiAvpCode : UInt32
  ucFlags : UInt8
  uiVenderId : UInt32
  value : List UInt8
  short : value.length + 12 < 2 ^ 24
  fits : ValueFits uiAvpCode.toNat value

def Avp.hdrLen (avp : Avp) : Nat := if avp.ucFlags.toNat >>> 7 ≠ 0 then 12 else 8

def Avp.uiLength (avp : Avp) : Nat := avp.hdrLen + avp.value.length

def Avp.bytes (avp : Avp) : List UInt8 :=
  toBe 4 avp.uiAvpCode.toNat ++ (avp.ucFlags :: toBe 3 avp.uiLength ++
    ((if avp.ucFlags.toNat >>> 7 ≠ 0 then toBe 4 avp.uiVenderId.toNat else []) ++
      (avp.value ++ List.replicate (padded avp.uiLength - avp.uiLength) 0)))

def IsGroup (code : Nat) : Prop :=
  code = AvpCode.EXPERIMENTAL_RESULT.code ∨ code = AvpCode.USER_IDENTITY.code

/-- An AVP of the message, and the AVPs in it. -/
structure Element where
  avp : Avp
  subs : List Avp
  grouped : IsGroup avp.uiAvpCode.toNat → avp.value = subs.flatMap Avp.bytes
  plain : ¬IsGroup avp.uiAvpCode.toNat → subs = []

def elementBytes (elements : List Element) : List UInt8 :=
  elements.flatMap fun element => element.avp.bytes

structure Message where
  ucVersion : UInt8
  ucFlags : UInt8
  uiCmdCode : BitVec 24
  uiAppID : UInt32
  uiHopByHopID : UInt32
  uiEndToEndID : UInt32
  elements : List Element
  bounded : 20 + (elementBytes elements).length < 2 ^ 24

def Message.uiLength (message : Message) : Nat := 20 + (elementBytes message.elements).length

def Message.bytes (message : Message) : List UInt8 :=
  message.ucVersion :: toBe 3 message.uiLength ++
    (message.ucFlags :: toBe 3 message.uiCmdCode.toNat ++ (toBe 4 message.uiAppID.toNat ++
      (toBe 4 message.uiHopByHopID.toNat ++ (toBe 4 message.uiEndToEndID.toNat ++
        elementBytes message.elements))))

end Encoding

section Recovery

abbrev Target := Fields.Target NumField TextField

def Store.target : Store → Target
  | .word field | .low field | .lead field => .num field
  | .text field => .text field

/-- The elements up to the first with code 0. -/
def decoded : List Element → List Element
  | [] => []
  | element :: rest =>
      if element.avp.uiAvpCode.toNat = AvpCode.EXCEPTIONAL_CASE.code then [element]
      else element :: decoded rest

def GroupCode (code : Nat) : Prop :=
  code = AvpCode.EXPERIMENTAL_RESULT_CODE.code ∨ code = AvpCode.PUBLIC_IDENTITY.code

instance (code : Nat) : Decidable (GroupCode code) := inferInstanceAs (Decidable (_ ∨ _))
instance (code : Nat) : Decidable (IsGroup code) := inferInstanceAs (Decidable (_ ∨ _))

/-- The AVPs of an element that the fields are for: the two codes that are looked for in a group, and
otherwise the element itself, unless it has the code that is looked for in groups only. -/
def Element.carried (element : Element) : List Avp :=
  if IsGroup element.avp.uiAvpCode.toNat then
    element.subs.filter fun sub => GroupCode sub.uiAvpCode.toNat
  else if element.avp.uiAvpCode.toNat = AvpCode.EXPERIMENTAL_RESULT_CODE.code then []
  else [element.avp]

def Store.Holds (value : List UInt8) (fields : Record NumField TextField) : Store → Prop
  | .word field => fields.num field = fromBe value
  | .low field => fields.num field = fromBe value % 2 ^ 8
  | .lead _ => True
  | .text field => (fields.text field).take (value.take field.len).length = value.take field.len

/-- The groups have one AVP that could be looked for, and it is the first. -/
def PlainGroups (elements : List Element) : Prop :=
  ∀ element ∈ elements, IsGroup element.avp.uiAvpCode.toNat →
    ∃ first rest, element.subs = first :: rest ∧ ∀ sub ∈ rest, ¬GroupCode sub.uiAvpCode.toNat

def GroupTarget (target : Target) : Prop :=
  target = .num .uiExpResultCode ∨ target = .text .szPublicID

/-- The fields that an AVP is for or reaches. -/
def AvpCode.targets : AvpCode → List Target
  | EXPERIMENTAL_RESULT_CODE => [.num .uiExpResultCode]
  | CAUSE_CODE => [.num .iCauseCode]
  | avp => avp.store.toList.map Store.target

/-- The fields behind the message: the last AVP of each code, and as before what none is for. -/
structure Recovered (elements : List Element) (before fields : Record NumField TextField) : Prop where
  last : ∀ front avp back, elements.flatMap Element.carried = front ++ avp :: back →
    (∀ later ∈ back, later.uiAvpCode ≠ avp.uiAvpCode) →
    ∀ kind store, AvpCode.ofCode avp.uiAvpCode.toNat = some kind → kind.means = some store →
      (GroupTarget store.target → PlainGroups elements) → store.Holds avp.value fields
  frame : ∀ target : Target,
    (∀ avp ∈ elements.flatMap Element.carried, ∀ kind, AvpCode.ofCode avp.uiAvpCode.toNat = some kind →
      target ∉ kind.targets) →
    (GroupTarget target → PlainGroups elements) → fields.read target = before.read target

end Recovery

variable {pBuf : Nat → UInt8}

section Reading

theorem padded_le (uiLength : Nat) : uiLength ≤ padded uiLength := Nat.le_add_right _ _

theorem hdr_len_eq (avp : Avp) : avp.hdrLen = 8 ∨ avp.hdrLen = 12 := by
  unfold Avp.hdrLen
  split_ifs
  · exact Or.inr rfl
  · exact Or.inl rfl

theorem avp_bytes_length (avp : Avp) : avp.bytes.length = padded avp.uiLength := by
  have enough := padded_le avp.uiLength
  have size : avp.hdrLen + avp.value.length = avp.uiLength := rfl
  unfold Avp.hdrLen at size
  simp only [Avp.bytes, List.length_append, List.length_cons, to_be_length, List.length_replicate]
  split_ifs at size ⊢
  · simp only [to_be_length]
    omega
  · simp only [List.length_nil]
    omega

/-- The low 24 bits of a word that is read as one. -/
theorem ntohl_low {place value : Nat} {byte : UInt8} (bound : value < 2 ^ 24)
    (stands : Stands pBuf place (byte :: toBe 3 value)) : ntohl pBuf place % 2 ^ 24 = value := by
  have read : readBytes pBuf place 4 = [byte] ++ toBe 3 value := by
    rw [Stands, List.length_cons, to_be_length] at stands
    exact stands
  have low := from_be_mod [byte] (toBe 3 value)
  rw [to_be_length] at low
  rw [ntohl, read]
  refine low.trans ?_
  rw [from_to_be]
  exact Nat.mod_eq_of_lt bound

theorem ntohl_stands {place : Nat} {value : UInt32} (stands : Stands pBuf place (toBe 4 value.toNat)) :
    ntohl pBuf place = value.toNat := by
  rw [Stands, to_be_length] at stands
  rw [ntohl, stands, from_to_be]
  exact Nat.mod_eq_of_lt value.toNat_lt

theorem byte_stands {place : Nat} {byte : UInt8} {rest : List UInt8}
    (stands : Stands pBuf place (byte :: rest)) : pBuf place = byte :=
  stands_at stands (rfl : (byte :: rest)[0]? = some byte)

theorem uiLength_lt (avp : Avp) : avp.uiLength < 2 ^ 24 := by
  have short := avp.short
  have size : avp.uiLength = avp.hdrLen + avp.value.length := rfl
  rcases hdr_len_eq avp with eight | twelve
  · omega
  · omega

/-- What the header decoder finds of an AVP. -/
structure HeaderOf (avp : Avp) (offset : Nat) (avpHdr : AvpHdr) : Prop where
  code : avpHdr.uiAvpCode = avp.uiAvpCode.toNat
  vendor : avpHdr.ucVendor = avp.ucFlags.toNat >>> 7
  length : avpHdr.uiLength = avp.uiLength
  value : avpHdr.value = offset + avp.hdrLen

theorem avp_header_read {offset : Nat} {avp : Avp} (stands : Stands pBuf offset avp.bytes)
    (avpHdr : AvpHdr) : HeaderOf avp offset (analyzeAvpHeader pBuf offset avpHdr).1 ∧
      (analyzeAvpHeader pBuf offset avpHdr).2 ≠ 0 ∧ Stands pBuf (offset + avp.hdrLen) avp.value := by
  obtain ⟨code, stands⟩ := stands_append stands
  rw [to_be_length] at stands
  obtain ⟨length, stands⟩ := stands_append stands
  rw [List.length_cons, to_be_length] at stands
  obtain ⟨-, stands⟩ := stands_append stands
  obtain ⟨value, -⟩ := stands_append stands
  have place : offset + avp.hdrLen = offset + 4 + (3 + 1) +
      (if avp.ucFlags.toNat >>> 7 ≠ 0 then toBe 4 avp.uiVenderId.toNat else []).length := by
    unfold Avp.hdrLen
    split_ifs
    · rw [to_be_length]
    · rfl
  have flags := byte_stands length
  have low := ntohl_low (uiLength_lt avp) length
  refine ⟨⟨ntohl_stands code, ?_, low, ?_⟩, ?_, by rw [place]; exact value⟩
  · exact congrArg (fun byte : UInt8 => byte.toNat >>> 7) flags
  · rw [analyzeAvpHeader]
    dsimp only
    rw [flags]
    rfl
  · rw [analyzeAvpHeader]
    dsimp only
    rw [flags, low]
    have more := padded_le avp.uiLength
    have size : avp.uiLength = avp.hdrLen + avp.value.length := rfl
    rcases hdr_len_eq avp with eight | twelve
    · split_ifs
      all_goals omega
    · split_ifs
      all_goals omega

theorem value_size {avp : Avp} {offset : Nat} {avpHdr : AvpHdr} (header : HeaderOf avp offset avpHdr) :
    u32Sub avpHdr.uiLength (if avpHdr.ucVendor ≠ 0 then 12 else 8) = avp.value.length := by
  have bound := uiLength_lt avp
  have size : avp.uiLength = avp.hdrLen + avp.value.length := rfl
  rw [header.length, header.vendor]
  change u32Sub avp.uiLength avp.hdrLen = avp.value.length
  rw [u32Sub, size]
  have room : avp.hdrLen + avp.value.length + 2 ^ 32 - avp.hdrLen = avp.value.length + 2 ^ 32 := by
    omega
  rw [room, Nat.add_mod_right]
  apply Nat.mod_eq_of_lt
  omega

end Reading

section Steps

/-- What an element whose value stands at `place` does to the fields. -/
def elementStep (pBuf : Nat → UInt8) (fields : Record NumField TextField) (placed : Nat × Element) :
    Record NumField TextField :=
  let code := placed.2.avp.uiAvpCode.toNat
  if IsGroup code then groupTurn pBuf placed.1 fields
  else
    match (AvpCode.ofCode code).bind AvpCode.store with
    | some store => store.perform pBuf placed.1 placed.2.avp.value.length fields
    | none => fields

theorem group_loop_eq {uiLength : Nat} (positive : 0 < uiLength) (value : Nat)
    (fields : Record NumField TextField) :
    groupLoop pBuf value uiLength (uiLength + 1) 0 fields = some (groupTurn pBuf value fields) := by
  obtain ⟨less, rfl⟩ := Nat.exists_eq_succ_of_ne_zero (Nat.ne_of_gt positive)
  have longer := padded_le less.succ
  rw [groupLoop, if_pos positive, groupLoop, if_neg (by omega)]
  rfl

theorem of_code_eq {code : Nat} {avp : AvpCode} (found : AvpCode.ofCode code = some avp) :
    avp.code = code := by
  simpa using List.find?_some found

theorem of_code_group (code : Nat) : IsGroup code ↔
    AvpCode.ofCode code = some .EXPERIMENTAL_RESULT ∨ AvpCode.ofCode code = some .USER_IDENTITY := by
  constructor
  · rintro (rfl | rfl)
    · exact Or.inl (by decide)
    · exact Or.inr (by decide)
  · rintro (found | found)
    · exact Or.inl (of_code_eq found).symm
    · exact Or.inr (of_code_eq found).symm

theorem avp_case_eq {offset : Nat} {element : Element} {avpHdr : AvpHdr}
    (header : HeaderOf element.avp offset avpHdr) (fields : Record NumField TextField) :
    avpCase pBuf avpHdr fields =
      some (elementStep pBuf fields (offset + element.avp.hdrLen, element)) := by
  have positive : 0 < element.avp.uiLength := by
    have size : element.avp.uiLength = element.avp.hdrLen + element.avp.value.length := rfl
    rcases hdr_len_eq element.avp with eight | twelve
    · omega
    · omega
  have size := value_size header
  rw [avpCase, elementStep]
  dsimp only
  rw [size, header.code, header.value, header.length, group_loop_eq positive]
  by_cases group : IsGroup element.avp.uiAvpCode.toNat
  · rw [if_pos group]
    rcases (of_code_group _).mp group with found | found
    · rw [found]
    · rw [found]
  · rw [if_neg group]
    cases found : AvpCode.ofCode element.avp.uiAvpCode.toNat with
    | none => rfl
    | some kind =>
        have neither := (not_congr (of_code_group _)).mp group
        rw [found] at neither
        cases kind
        case EXPERIMENTAL_RESULT => exact absurd (Or.inl rfl) neither
        case USER_IDENTITY => exact absurd (Or.inr rfl) neither
        all_goals rfl

/-- The elements with the places of their values. -/
def placed : Nat → List Element → List (Nat × Element)
  | _, [] => []
  | offset, element :: rest =>
      (offset + element.avp.hdrLen, element) :: placed (offset + element.avp.bytes.length) rest

theorem element_bytes_cons (element : Element) (rest : List Element) :
    elementBytes (element :: rest) = element.avp.bytes ++ elementBytes rest := List.flatMap_cons

/-- The loop takes the elements up to the one with code 0. -/
theorem loop_steps {dDataLen : Int} (elements : List Element) :
    ∀ {fuel offset : Nat} {info : DiameterInfo}, Stands pBuf offset (elementBytes elements) →
      info.stDiameterHdr.uiLength = offset + (elementBytes elements).length →
      (info.stDiameterHdr.uiLength : Int) ≤ dDataLen → elements.length < fuel → ∃ avpHdr,
      avpLoop pBuf dDataLen fuel offset info =
        some (((offset + (elementBytes (decoded elements)).length : Nat) : Int),
          { stDiameterHdr := info.stDiameterHdr
            stAVPHdr := avpHdr
            fields := (placed offset (decoded elements)).foldl (elementStep pBuf) info.fields }) := by
  induction elements with
  | nil =>
      intro fuel offset info _ length data enough
      obtain ⟨fuel, rfl⟩ := Nat.exists_eq_succ_of_ne_zero (Nat.ne_of_gt enough)
      have ended : ¬(offset < info.stDiameterHdr.uiLength ∧ (offset : Int) < dDataLen) := by
        rw [length]
        exact fun inside => Nat.lt_irrefl _ inside.1
      refine ⟨info.stAVPHdr, ?_⟩
      rw [avpLoop, if_neg ended]
      rfl
  | cons element rest ih =>
      intro fuel offset info stands length data enough
      obtain ⟨fuel, rfl⟩ := Nat.exists_eq_succ_of_ne_zero (Nat.ne_of_gt (Nat.zero_lt_of_lt enough))
      rw [element_bytes_cons] at stands length
      obtain ⟨here, behind⟩ := stands_append stands
      obtain ⟨header, something, -⟩ := avp_header_read here info.stAVPHdr
      rw [List.length_append] at length
      have positive : 0 < element.avp.bytes.length := by
        have more := padded_le element.avp.uiLength
        have size : element.avp.uiLength = element.avp.hdrLen + element.avp.value.length := rfl
        rw [avp_bytes_length]
        rcases hdr_len_eq element.avp with eight | twelve
        · omega
        · omega
      have inside : offset < info.stDiameterHdr.uiLength ∧ (offset : Int) < dDataLen := by omega
      have next : padded (analyzeAvpHeader pBuf offset info.stAVPHdr).1.uiLength =
          element.avp.bytes.length := by rw [header.length, avp_bytes_length]
      rw [avpLoop, if_pos inside]
      dsimp only
      rw [if_neg something, avp_case_eq header, next, header.code, Option.bind_eq_bind,
        Option.bind_some, decoded]
      split_ifs with zero
      · refine ⟨(analyzeAvpHeader pBuf offset info.stAVPHdr).1, ?_⟩
        rw [element_bytes_cons]
        simp [elementBytes, placed]
      · obtain ⟨avpHdr, ran⟩ := @ih fuel _
          { info with
            stAVPHdr := (analyzeAvpHeader pBuf offset info.stAVPHdr).1
            fields := elementStep pBuf info.fields (offset + element.avp.hdrLen, element) }
          behind (by rw [length, Nat.add_assoc]) data (Nat.lt_of_succ_lt_succ enough)
        refine ⟨avpHdr, ran.trans ?_⟩
        rw [element_bytes_cons, List.length_append, Nat.add_assoc]
        rfl

end Steps

section Fields

theorem perform_frame {store : Store} {target : Target} (other : store.target ≠ target)
    (place size : Nat) (fields : Record NumField TextField) :
    (store.perform pBuf place size fields).read target = fields.read target := by
  cases store with
  | text field => exact set_text_frame other fields _
  | _ => exact set_num_frame other fields _

theorem holds_congr {store : Store} {value : List UInt8} {fields fields' : Record NumField TextField}
    (same : fields'.read store.target = fields.read store.target) (holds : store.Holds value fields) :
    store.Holds value fields' := by
  cases store with
  | text field =>
      have text : fields'.text field = fields.text field := congrArg Prod.snd same
      rwa [Store.Holds, text]
  | word field =>
      have num : fields'.num field = fields.num field := congrArg Prod.fst same
      rwa [Store.Holds, num]
  | low field =>
      have num : fields'.num field = fields.num field := congrArg Prod.fst same
      rwa [Store.Holds, num]
  | lead field => trivial

theorem perform_holds {store : Store} {value : List UInt8} {place : Nat}
    (stands : Stands pBuf place value) (fits : store.Fits value) (fields : Record NumField TextField) :
    store.Holds value (store.perform pBuf place value.length fields) := by
  cases store with
  | word field =>
      rw [Stands, fits] at stands
      simp only [Store.Holds, Store.perform, num_set_num, if_true, ntohl, stands]
  | low field =>
      rw [Stands, fits] at stands
      simp only [Store.Holds, Store.perform, num_set_num, if_true, ntohl, stands]
  | lead field => trivial
  | text field =>
      have read : readBytes pBuf place (min field.len value.length) = value.take field.len := by
        have part := @stands_part pBuf place value stands 0 (min field.len value.length) (by omega)
        rw [Nat.add_zero, List.drop_zero] at part
        rw [part]
        exact List.take_eq_take_iff.mpr (by omega)
      simp only [Store.Holds, Store.perform, text_set_text, if_true, read]
      exact List.take_left' rfl

theorem mem_avp_codes (avp : AvpCode) : avp ∈ avpCodes := by
  cases avp <;> decide

/-- No other AVP reaches the field that an AVP is for. -/
theorem means_apart : ∀ kind ∈ avpCodes, ∀ store ∈ kind.means.toList, ∀ other ∈ avpCodes,
    store.target ∈ other.targets → other = kind := by
  decide +kernel

theorem store_targets {kind : AvpCode} {store : Store} (found : kind.store = some store) :
    store.target ∈ kind.targets := by
  cases kind
  case EXPERIMENTAL_RESULT_CODE => exact nomatch found
  case CAUSE_CODE => exact nomatch found
  all_goals simp_all [AvpCode.targets]

/-- A group stores what its first AVP says. -/
theorem group_turn_first {place : Nat} {first : Avp} (stands : Stands pBuf place first.bytes)
    (fields : Record NumField TextField) :
    groupTurn pBuf place fields =
      if first.uiAvpCode.toNat = 298 then
        Store.perform pBuf (place + first.hdrLen) first.value.length fields (.word .uiExpResultCode)
      else if first.uiAvpCode.toNat = 601 then
        Store.perform pBuf (place + first.hdrLen) first.value.length fields (.text .szPublicID)
      else fields := by
  obtain ⟨header, -, -⟩ := avp_header_read stands ⟨0, 0, 0, 0, 0, 0, 0⟩
  rw [groupTurn, value_size header, header.code, header.value]
  simp only [AvpCode.code]
  by_cases result : first.uiAvpCode.toNat = 298
  · simp [result]
  · simp [result]

/-- A group reaches two fields. -/
theorem group_turn_frame {target : Target} (other : ¬GroupTarget target) (place : Nat)
    (fields : Record NumField TextField) :
    (groupTurn pBuf place fields).read target = fields.read target := by
  obtain ⟨not_result, not_identity⟩ := not_or.mp other
  rw [groupTurn]
  generalize (analyzeAvpHeader pBuf place ⟨0, 0, 0, 0, 0, 0, 0⟩).1 = header
  generalize u32Sub header.uiLength (if header.ucVendor ≠ 0 then 12 else 8) = size
  have of_result := @perform_frame pBuf (.word .uiExpResultCode) target (Ne.symm not_result)
  have of_identity := @perform_frame pBuf (.text .szPublicID) target (Ne.symm not_identity)
  split_ifs
  · rw [of_identity, of_result]
  · rw [of_identity]
  · rw [of_result]
  · rfl

/-- A group with AVPs in it, the first of them looked at. -/
theorem group_step {element : Element} (group : IsGroup element.avp.uiAvpCode.toNat) {first : Avp}
    {rest : List Avp} (subs : element.subs = first :: rest) {place : Nat}
    (stands : Stands pBuf place element.avp.value) (fields : Record NumField TextField) :
    elementStep pBuf fields (place, element) =
        (if first.uiAvpCode.toNat = 298 then
          Store.perform pBuf (place + first.hdrLen) first.value.length fields (.word .uiExpResultCode)
        else if first.uiAvpCode.toNat = 601 then
          Store.perform pBuf (place + first.hdrLen) first.value.length fields (.text .szPublicID)
        else fields) ∧
      Stands pBuf (place + first.hdrLen) first.value := by
  rw [element.grouped group, subs, List.flatMap_cons] at stands
  obtain ⟨here, -⟩ := stands_append stands
  refine ⟨?_, (avp_header_read here ⟨0, 0, 0, 0, 0, 0, 0⟩).2.2⟩
  rw [elementStep]
  dsimp only
  rw [if_pos group, group_turn_first here]

theorem result_code : AvpCode.ofCode 298 = some .EXPERIMENTAL_RESULT_CODE := by decide

theorem identity_code : AvpCode.ofCode 601 = some .PUBLIC_IDENTITY := by decide

/-- An element leaves the fields alone that what it carries is not for. -/
theorem element_frame {element : Element} {target : Target}
    (apart : ∀ avp ∈ element.carried, ∀ kind, AvpCode.ofCode avp.uiAvpCode.toNat = some kind →
      target ∉ kind.targets)
    (plain : GroupTarget target → PlainGroups [element]) {place : Nat}
    (stands : Stands pBuf place element.avp.value) (fields : Record NumField TextField) :
    (elementStep pBuf fields (place, element)).read target = fields.read target := by
  by_cases group : IsGroup element.avp.uiAvpCode.toNat
  · by_cases reached : GroupTarget target
    · obtain ⟨first, rest, subs, -⟩ := plain reached element List.mem_cons_self group
      rw [(group_step group subs stands fields).1]
      have carries : GroupCode first.uiAvpCode.toNat → first ∈ element.carried := by
        intro looked
        rw [Element.carried, if_pos group, subs]
        simp [looked]
      split_ifs with result identity
      · apply perform_frame
        intro same
        apply apart first (carries (Or.inl result)) _ (by rw [result]; exact result_code)
        rw [← same]
        exact List.mem_cons_self
      · apply perform_frame
        intro same
        apply apart first (carries (Or.inr identity)) _ (by rw [identity]; exact identity_code)
        rw [← same]
        exact List.mem_cons_self
      · rfl
    · rw [elementStep]
      dsimp only
      rw [if_pos group]
      exact group_turn_frame reached place fields
  · rw [elementStep]
    dsimp only
    rw [if_neg group]
    cases found : AvpCode.ofCode element.avp.uiAvpCode.toNat with
    | none => rfl
    | some kind =>
        rw [Option.bind_some]
        cases stores : kind.store with
        | none => rfl
        | some store =>
            apply perform_frame
            rintro rfl
            have carries : element.avp ∈ element.carried := by
              rw [Element.carried, if_neg group, if_neg]
              · exact List.mem_singleton_self _
              · intro result
                rw [result, show AvpCode.EXPERIMENTAL_RESULT_CODE.code = 298 from rfl,
                  result_code] at found
                obtain rfl := Option.some.inj found
                exact nomatch stores
            exact apart element.avp carries kind found (store_targets stores)

/-- What an element carries is in its field behind it. -/
theorem element_holds {element : Element} {inside behind : List Avp} {avp : Avp}
    (carries : element.carried = inside ++ avp :: behind) {kind : AvpCode} {store : Store}
    (found : AvpCode.ofCode avp.uiAvpCode.toNat = some kind) (means : kind.means = some store)
    (plain : GroupTarget store.target → PlainGroups [element]) {place : Nat}
    (stands : Stands pBuf place element.avp.value) (fields : Record NumField TextField) :
    store.Holds avp.value (elementStep pBuf fields (place, element)) := by
  have fits := avp.fits kind store found means
  have member : avp ∈ element.carried := by simp [carries]
  by_cases group : IsGroup element.avp.uiAvpCode.toNat
  · rw [Element.carried, if_pos group, List.mem_filter, decide_eq_true_eq] at member
    have reached : GroupTarget store.target := by
      rcases member.2 with result | identity
      · rw [result] at found
        obtain rfl := Option.some.inj (found.symm.trans result_code)
        obtain rfl := Option.some.inj means
        exact Or.inl rfl
      · rw [identity] at found
        obtain rfl := Option.some.inj (found.symm.trans identity_code)
        obtain rfl := Option.some.inj means
        exact Or.inr rfl
    obtain ⟨first, rest, subs, alone⟩ := plain reached element List.mem_cons_self group
    obtain ⟨step, value⟩ := group_step group subs stands fields
    rw [subs] at member
    have first_one : avp = first := by
      rcases List.mem_cons.mp member.1 with same | later
      · exact same
      · exact absurd member.2 (alone avp later)
    subst first_one
    rw [step]
    rcases member.2 with result | identity
    · rw [result] at found
      obtain rfl := Option.some.inj (found.symm.trans result_code)
      obtain rfl := Option.some.inj means
      rw [if_pos (show avp.uiAvpCode.toNat = 298 from result)]
      exact perform_holds value fits fields
    · rw [identity] at found
      obtain rfl := Option.some.inj (found.symm.trans identity_code)
      obtain rfl := Option.some.inj means
      rw [if_neg (by rw [identity]; decide), if_pos (show avp.uiAvpCode.toNat = 601 from identity)]
      exact perform_holds value fits fields
  · rw [Element.carried, if_neg group] at member
    split_ifs at member with result
    · exact nomatch member
    obtain rfl := List.mem_singleton.mp member
    rw [elementStep]
    dsimp only
    rw [if_neg group, found, Option.bind_some]
    have stores : kind.store = some store := by
      cases kind
      case EXPERIMENTAL_RESULT_CODE => exact absurd (of_code_eq found).symm result
      case USER_AUTHORIZATION_TYPE => exact nomatch means
      case PCC_RULE_STATUS => exact nomatch means
      case CAUSE_CODE_CDN => exact nomatch means
      all_goals exact means
    rw [stores]
    exact perform_holds stands fits fields

end Fields

section Run

theorem decoded_prefix (elements : List Element) : ∃ rest, elements = decoded elements ++ rest := by
  induction elements with
  | nil => exact ⟨[], rfl⟩
  | cons element elements ih =>
      obtain ⟨rest, split⟩ := ih
      rw [decoded]
      split_ifs
      · exact ⟨elements, rfl⟩
      · refine ⟨rest, ?_⟩
        rw [List.cons_append, ← split]

theorem placed_append (front back : List Element) (offset : Nat) :
    placed offset (front ++ back) =
      placed offset front ++ placed (offset + (elementBytes front).length) back := by
  induction front generalizing offset with
  | nil => rfl
  | cons element front ih =>
      rw [List.cons_append, placed, placed, ih, element_bytes_cons, List.length_append,
        List.cons_append, Nat.add_assoc]

theorem steps_frame {elements : List Element} {target : Target}
    (apart : ∀ element ∈ elements, ∀ avp ∈ element.carried, ∀ kind,
      AvpCode.ofCode avp.uiAvpCode.toNat = some kind → target ∉ kind.targets)
    (plain : GroupTarget target → PlainGroups elements) {offset : Nat}
    (stands : Stands pBuf offset (elementBytes elements)) (fields : Record NumField TextField) :
    ((placed offset elements).foldl (elementStep pBuf) fields).read target = fields.read target := by
  induction elements generalizing offset fields with
  | nil => rfl
  | cons element elements ih =>
      rw [element_bytes_cons] at stands
      obtain ⟨here, behind⟩ := stands_append stands
      obtain ⟨-, -, value⟩ := avp_header_read here ⟨0, 0, 0, 0, 0, 0, 0⟩
      rw [placed, List.foldl_cons]
      rw [ih (fun other member => apart other (List.mem_cons_of_mem _ member))
        (fun reached other member => plain reached other (List.mem_cons_of_mem _ member)) behind]
      apply element_frame (apart element List.mem_cons_self) _ value
      intro reached other member
      obtain rfl := List.mem_singleton.mp member
      exact plain reached other List.mem_cons_self

/-- What the elements are for is in the fields behind them. -/
theorem steps_recovered {elements : List Element} {offset : Nat}
    (stands : Stands pBuf offset (elementBytes elements)) (fields : Record NumField TextField) :
    Recovered elements fields ((placed offset elements).foldl (elementStep pBuf) fields) := by
  constructor
  · intro front avp back split later kind store found means plain
    obtain ⟨before, element, after, inside, behind, rfl, carries, rfl⟩ := flatMap_split split
    have bytes : elementBytes (before ++ element :: after) =
        elementBytes before ++ (element.avp.bytes ++ elementBytes after) := by simp [elementBytes]
    rw [bytes] at stands
    obtain ⟨-, stands⟩ := stands_append stands
    obtain ⟨here, rest⟩ := stands_append stands
    obtain ⟨-, -, value⟩ := avp_header_read here ⟨0, 0, 0, 0, 0, 0, 0⟩
    rw [placed_append, List.foldl_append, placed, List.foldl_cons]
    have held := element_holds carries found means (fun reached other member => by
      obtain rfl := List.mem_singleton.mp member
      exact plain reached other (by simp)) value
      ((placed offset before).foldl (elementStep pBuf) fields)
    refine holds_congr (steps_frame ?_ ?_ rest _) held
    · intro other member carried_avp carried_in other_kind other_found reached
      have apart := later carried_avp (by
        rw [List.mem_append, List.mem_flatMap]
        exact Or.inr ⟨other, member, carried_in⟩)
      have same := means_apart kind (mem_avp_codes kind) store (by simp [means]) other_kind
        (mem_avp_codes other_kind) reached
      apply apart
      apply UInt32.toNat_inj.mp
      rw [← of_code_eq found, ← of_code_eq other_found, same]
    · intro reached other member
      exact plain reached other (by simp [member])
  · intro target apart plain
    apply steps_frame _ plain stands
    intro element member avp inside
    exact apart avp (List.mem_flatMap.mpr ⟨element, member, inside⟩)

/-- Where the numbers of the message's header stand. -/
theorem message_header {message : Message} (stands : Stands pBuf 0 message.bytes) :
    pBuf 0 = message.ucVersion ∧ ntohl pBuf 0 % 2 ^ 24 = message.uiLength ∧
      Stands pBuf 20 (elementBytes message.elements) := by
  obtain ⟨front, stands⟩ := stands_append stands
  rw [List.length_cons, to_be_length] at stands
  obtain ⟨-, stands⟩ := stands_append stands
  rw [List.length_cons, to_be_length] at stands
  obtain ⟨-, stands⟩ := stands_append stands
  rw [to_be_length] at stands
  obtain ⟨-, stands⟩ := stands_append stands
  rw [to_be_length] at stands
  obtain ⟨-, stands⟩ := stands_append stands
  rw [to_be_length] at stands
  exact ⟨byte_stands front, ntohl_low message.bounded front, stands⟩

theorem elements_few (elements : List Element) : elements.length ≤ (elementBytes elements).length := by
  induction elements with
  | nil => exact Nat.le_refl 0
  | cons element elements ih =>
      have some_bytes : 0 < element.avp.bytes.length := by simp [Avp.bytes]
      rw [element_bytes_cons, List.length_append, List.length_cons]
      omega

/-- A message of another version is refused; one of version 1 that is longer than the header record
is decoded to its end, or to the end of the first AVP with code 0. -/
theorem message_decoded (message : Message) (extra : Nat) (memory : Nat → UInt8)
    (info : DiameterInfo) :
    (message.ucVersion ≠ 1 → ∃ hdr,
      analyzeDiameter (writeBytes memory 0 message.bytes) (message.uiLength + extra) info =
        some (-1, { info with stDiameterHdr := hdr })) ∧
    (message.ucVersion = 1 → DIAMETER_HDR_SIZE < message.uiLength → ∃ info',
      analyzeDiameter (writeBytes memory 0 message.bytes) (message.uiLength + extra) info =
        some (((20 + (elementBytes (decoded message.elements)).length : Nat) : Int), info') ∧
      Recovered (decoded message.elements) info.fields info'.fields) := by
  obtain ⟨version, length, stands⟩ := message_header (stands_written memory 0 message.bytes)
  generalize writeBytes memory 0 message.bytes = pBuf at version length stands ⊢
  constructor
  · intro other
    have differs : (pBuf 0).toNat ≠ 1 := by
      rw [version]
      exact fun same => other (UInt8.toNat_inj.mp same)
    rw [analyzeDiameter]
    dsimp only
    rw [if_pos differs]
    exact ⟨_, rfl⟩
  · intro first long
    have same : ¬(pBuf 0).toNat ≠ 1 := by
      rw [version, first]
      decide
    have few := elements_few message.elements
    have size : message.uiLength = 20 + (elementBytes message.elements).length := rfl
    obtain ⟨rest, split⟩ := decoded_prefix message.elements
    have decoded_stands : Stands pBuf 20 (elementBytes (decoded message.elements)) := by
      rw [split, elementBytes, List.flatMap_append] at stands
      exact (stands_append stands).1
    have ran : ∀ start : DiameterInfo, start.stDiameterHdr.uiLength = message.uiLength →
        start.fields = info.fields → ∃ info',
        avpLoop pBuf (message.uiLength + extra) (message.uiLength + 1) 20 start =
          some (((20 + (elementBytes (decoded message.elements)).length : Nat) : Int), info') ∧
        Recovered (decoded message.elements) info.fields info'.fields := by
      intro start sized fields
      obtain ⟨avpHdr, ran⟩ := @loop_steps pBuf (message.uiLength + extra) message.elements
        (message.uiLength + 1) 20 start stands (sized.trans size) (by omega) (by omega)
      refine ⟨_, ran, ?_⟩
      rw [← fields]
      exact steps_recovered decoded_stands start.fields
    rw [analyzeDiameter]
    dsimp only
    rw [if_neg same, length, if_neg (Nat.not_le.mpr long)]
    exact ran _ rfl rfl

theorem result_fits : ValueFits (268 : UInt32).toNat [0, 0, 0x07, 0xD1] := by
  intro avp store found means
  have kind : AvpCode.ofCode (268 : UInt32).toNat = some .RESULT_CODE := by decide
  obtain rfl := Option.some.inj (found.symm.trans kind)
  obtain rfl := Option.some.inj means
  rfl

/-- Result-Code 2001. -/
def resultElement : Element where
  avp := ⟨268, 0x40, 0, [0, 0, 0x07, 0xD1], by decide, result_fits⟩
  subs := []
  grouped := fun group => absurd group (by decide)
  plain := fun _ => rfl

/-- A message with the result twice. -/
def answer (ucVersion : UInt8) : Message where
  ucVersion := ucVersion
  ucFlags := 0
  uiCmdCode := 272
  uiAppID := 4
  uiHopByHopID := 1
  uiEndToEndID := 1
  elements := [resultElement, resultElement]
  bounded := by decide

def clearedInfo : DiameterInfo :=
  ⟨⟨0, 0, 0, 0, 0, 0, 0, 0, 0, 0, 0⟩, ⟨0, 0, 0, 0, 0, 0, 0⟩,
    ⟨fun _ => 0, fun field => List.replicate (field.len + 1) 0⟩⟩

theorem answer_decoded : ∃ info',
    analyzeDiameter (writeBytes (fun _ => 0) 0 (answer 1).bytes) 44 clearedInfo = some (44, info') ∧
      info'.fields.num .uiResultCode = 2001 := by
  obtain ⟨info', ran, recovered⟩ :=
    (message_decoded (answer 1) 0 (fun _ => 0) clearedInfo).2 rfl (by decide)
  refine ⟨info', ran, ?_⟩
  apply recovered.last [resultElement.avp] resultElement.avp [] rfl (by simp) .RESULT_CODE
    (.word .uiResultCode) (by decide) rfl
  rintro (reached | reached)
  · exact absurd reached (by decide)
  · exact absurd reached (by decide)

/-- The same message with version 2. -/
theorem answer_refused :
    (analyzeDiameter (writeBytes (fun _ => 0) 0 (answer 2).bytes) 44 clearedInfo).map Prod.fst =
        some (-1) ∧
      (answer 2).uiLength = 44 := by
  decide +kernel

end Run

end Upst.Diameter
