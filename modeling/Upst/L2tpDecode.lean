import Upst.L2tp

/-!
What the decoder recovers of a control message. Nr and Ns are taken in the other order than they
are sent, and a sub-address is also taken for the transmit speed; everything else is recovered.
-/

namespace Upst.L2tp

open Bytes Network Fields

set_option autoImplicit false

section Encoding

/-- What an attribute says: the sub-address has no field. -/
def AvpType.means : AvpType → List Store
  | SUB_ADDRESS => []
  | avp => avp.stores

def Store.Fits (value : List UInt8) : Store → Prop
  | .half _ skip => value.length = skip + 2
  | .word _ => value.length = 4
  | .octet _ skip => value.length = skip + 1
  | .text field => value.length < field.size
  | .flag _ => True

/-- A result code is followed by an error code and a message, or by nothing. -/
def ValueFits (avp_type : Nat) (value : List UInt8) : Prop :=
  match AvpType.ofCode avp_type with
  | none => True
  | some .RESULT_ERROR_CODE => value.length = 2 ∨ 4 ≤ value.length
  | some avp => ∀ store ∈ avp.means, store.Fits value

structure Avp where
  ucControl : UInt8
  usVendorID : UInt16
  usAVPType : UInt16
  value : List UInt8
  /-- The high bits of the length. -/
  lengthBits : ucControl &&& 3 = 0
  short : value.length ≤ 249
  fits : ValueFits usAVPType.toNat value

def Avp.bytes (avp : Avp) : List UInt8 :=
  [avp.ucControl, UInt8.ofNat (6 + avp.value.length)] ++
    (toBe 2 avp.usVendorID.toNat ++ (toBe 2 avp.usAVPType.toNat ++ avp.value))

def avpBytes (avps : List Avp) : List UInt8 := avps.flatMap Avp.bytes

/-- The fields in front of the attributes, but for the flags and the length. -/
def headerFields (flags usTunnelID usSessionID usNs usNr : UInt16) (offsetPad : List UInt8) :
    List UInt8 :=
  toBe 2 usTunnelID.toNat ++ (toBe 2 usSessionID.toNat ++
    ((if SEQUENCE_BIT flags.toNat then toBe 2 usNs.toNat ++ toBe 2 usNr.toNat else []) ++
      (if OFFSET_BIT flags.toNat then toBe 2 offsetPad.length ++ offsetPad else [])))

structure Message where
  flags : UInt16
  usTunnelID : UInt16
  usSessionID : UInt16
  usNs : UInt16
  usNr : UInt16
  offsetPad : List UInt8
  avps : List Avp
  control : CONTROL_BIT flags.toNat
  hasLength : LENGTH_BIT flags.toNat
  /-- The length of the message can be said. -/
  bounded : 4 + (headerFields flags usTunnelID usSessionID usNs usNr offsetPad).length +
    (avpBytes avps).length < 2 ^ 16

def Message.header (message : Message) : List UInt8 :=
  headerFields message.flags message.usTunnelID message.usSessionID message.usNs message.usNr
    message.offsetPad

def Message.headerSize (message : Message) : Nat := 4 + message.header.length

def Message.usLength (message : Message) : Nat := message.headerSize + (avpBytes message.avps).length

def Message.bytes (message : Message) : List UInt8 :=
  toBe 2 message.flags.toNat ++ (toBe 2 message.usLength ++ (message.header ++ avpBytes message.avps))

/-- Where the value of the attribute behind `front` stands. -/
def Message.valueAt (message : Message) (front : List Avp) : Nat :=
  message.headerSize + (avpBytes front).length + 6

end Encoding

section Recovery

def Store.Holds (value : List UInt8) (info : L2tpInfo) : Store → Prop
  | .half field skip => skip + 2 ≤ value.length →
      info.num field = fromBe ((value.drop skip).take 2)
  | .word field => info.num field = fromBe value
  | .octet field skip => info.num field = fromBe ((value.drop skip).take 1)
  | .text field => (info.text field).take (value.length + 1) = value ++ [0]
  | .flag field => info.num field = 1

/-- What the attribute says is found in the fields. -/
def Avp.Recovered (avp : Avp) (info : L2tpInfo) : Prop :=
  ∀ kind, AvpType.ofCode avp.usAVPType.toNat = some kind → ∀ store ∈ kind.means,
    store.Holds avp.value info

/-- The message is found in the fields; of several attributes of a type it is the last. -/
structure Recovered (message : Message) (info : L2tpInfo) : Prop where
  tunnel : info.num .usTunnelID = message.usTunnelID.toNat
  session : info.num .usSessionID = message.usSessionID.toNat
  ns : info.num .usNs = if SEQUENCE_BIT message.flags.toNat then message.usNs.toNat else 0
  nr : info.num .usNr = if SEQUENCE_BIT message.flags.toNat then message.usNr.toNat else 0
  headerSize : info.num .usHeaderSize = message.headerSize
  avps : ∀ front avp back, message.avps = front ++ avp :: back →
    (∀ later ∈ back, later.usAVPType ≠ avp.usAVPType) → avp.Recovered info

/-- The numbers of the sequence, where they are sent, are the same. -/
def SameSequence (message : Message) : Prop :=
  SEQUENCE_BIT message.flags.toNat → message.usNs = message.usNr

/-- No sub-address behind the last transmit speed, unless the last one starts with its octets. -/
def SpeedKept (message : Message) (pBuf : Nat → UInt8) : Prop :=
  ∀ front speed between sub back,
    message.avps = front ++ speed :: between ++ sub :: back →
    speed.usAVPType = 24 → sub.usAVPType = 23 → (∀ avp ∈ between, avp.usAVPType ≠ 24) →
    (∀ avp ∈ back, avp.usAVPType ≠ 24 ∧ avp.usAVPType ≠ 23) →
    ntohl pBuf (message.valueAt (front ++ speed :: between)) = fromBe speed.value

end Recovery

section Header

variable {message : Message} {pBuf : Nat → UInt8}

theorem header_length : message.header.length =
    4 + (if SEQUENCE_BIT message.flags.toNat then 4 else 0) +
      if OFFSET_BIT message.flags.toNat then 2 + message.offsetPad.length else 0 := by
  rw [Message.header, headerFields]
  split_ifs <;> simp only [List.length_append, to_be_length, List.length_nil] <;> omega

theorem length_lt : message.usLength < 256 ^ 2 := message.bounded

/-- The numbers that the decoder finds in the header. -/
theorem header_numbers (stands : Stands pBuf 0 message.bytes) :
    ntohs pBuf 0 = message.flags.toNat ∧ ntohs pBuf 2 = message.usLength ∧
      ntohs pBuf 4 = message.usTunnelID.toNat ∧ ntohs pBuf 6 = message.usSessionID.toNat ∧
      (SEQUENCE_BIT message.flags.toNat →
        ntohs pBuf 8 = message.usNs.toNat ∧ ntohs pBuf 10 = message.usNr.toNat) ∧
      (OFFSET_BIT message.flags.toNat →
        ntohs pBuf (8 + if SEQUENCE_BIT message.flags.toNat then 4 else 0) =
          message.offsetPad.length) ∧
      Stands pBuf message.headerSize (avpBytes message.avps) := by
  obtain ⟨flags, stands⟩ := stands_append stands
  rw [to_be_length, Nat.zero_add] at stands
  obtain ⟨length, stands⟩ := stands_append stands
  rw [to_be_length] at stands
  obtain ⟨header, avps⟩ := stands_append stands
  unfold Message.header headerFields at header
  obtain ⟨tunnel, header⟩ := stands_append header
  rw [to_be_length] at header
  obtain ⟨session, header⟩ := stands_append header
  rw [to_be_length] at header
  obtain ⟨sequence, offset⟩ := stands_append header
  refine ⟨ntohs_stands flags, ntohs_number length_lt length, ntohs_stands tunnel,
    ntohs_stands session, fun bit => ?_, fun bit => ?_, avps⟩
  · rw [if_pos bit] at sequence
    obtain ⟨ns, nr⟩ := stands_append sequence
    rw [to_be_length] at nr
    exact ⟨ntohs_stands ns, ntohs_stands nr⟩
  · rw [if_pos bit] at offset
    obtain ⟨size, -⟩ := stands_append offset
    have bound : message.offsetPad.length < 256 ^ 2 := by
      have whole : message.usLength < 256 ^ 2 := length_lt
      rw [Message.usLength, Message.headerSize, header_length, if_pos bit] at whole
      omega
    have read := ntohs_number bound size
    split_ifs at read ⊢
    · simpa using read
    · simpa using read

theorem header_read (stands : Stands pBuf 0 message.bytes) (info : L2tpInfo) :
    (analyzeHeader pBuf info).2 = message.headerSize ∧
      (analyzeHeader pBuf info).1.num .usLength = message.usLength ∧
      (analyzeHeader pBuf info).1.num .usTunnelID = message.usTunnelID.toNat ∧
      (analyzeHeader pBuf info).1.num .usSessionID = message.usSessionID.toNat ∧
      ((analyzeHeader pBuf info).1.num .usNs =
        if SEQUENCE_BIT message.flags.toNat then message.usNr.toNat else 0) ∧
      ((analyzeHeader pBuf info).1.num .usNr =
        if SEQUENCE_BIT message.flags.toNat then message.usNs.toNat else 0) ∧
      (analyzeHeader pBuf info).1.num .usHeaderSize = message.headerSize := by
  obtain ⟨flags, length, tunnel, session, sequence, offset, -⟩ := header_numbers stands
  have size : message.headerSize = 8 + (if SEQUENCE_BIT message.flags.toNat then 4 else 0) +
      if OFFSET_BIT message.flags.toNat then 2 + message.offsetPad.length else 0 := by
    rw [Message.headerSize, header_length]
    omega
  have small : message.headerSize % 65536 = message.headerSize := by
    apply Nat.mod_eq_of_lt
    have whole : message.usLength < 256 ^ 2 := length_lt
    rw [Message.usLength] at whole
    omega
  by_cases numbered : SEQUENCE_BIT message.flags.toNat
  · obtain ⟨ns, nr⟩ := sequence numbered
    by_cases padded : OFFSET_BIT message.flags.toNat
    · have pad := offset padded
      simp only [if_pos numbered, if_pos padded] at pad size
      rw [← Nat.add_assoc] at size
      rw [size] at small ⊢
      simp [analyzeHeader, flags, message.control, message.hasLength, length, tunnel, session,
        numbered, padded, ns, nr, pad, small]
    · simp only [if_pos numbered, if_neg padded] at size
      rw [size]
      simp [analyzeHeader, flags, message.control, message.hasLength, length, tunnel, session,
        numbered, padded, ns, nr]
  · by_cases padded : OFFSET_BIT message.flags.toNat
    · have pad := offset padded
      simp only [if_neg numbered, if_pos padded] at pad size
      rw [← Nat.add_assoc] at size
      rw [size] at small ⊢
      simp [analyzeHeader, flags, message.control, message.hasLength, length, tunnel, session,
        numbered, padded, pad, small]
    · simp only [if_neg numbered, if_neg padded] at size
      rw [size]
      simp [analyzeHeader, flags, message.control, message.hasLength, length, tunnel, session,
        numbered, padded]

end Header

section Attributes

abbrev Target := Fields.Target NumField TextField

def Store.target : Store → Target
  | .half field _ | .word field | .octet field _ | .flag field => .num field
  | .text field => .text field

/-- The attribute that a field is for. -/
def owner (target : Target) : Option AvpType :=
  avpTypes.find? fun avp => target ∈ avp.means.map Store.target

theorem mem_avp_types (avp : AvpType) : avp ∈ avpTypes := by
  cases avp <;> decide

theorem means_owner : ∀ avp ∈ avpTypes, ∀ store ∈ avp.means, owner store.target = some avp := by
  decide

theorem means_distinct : ∀ avp ∈ avpTypes, (avp.stores.map Store.target).Nodup := by
  decide

theorem header_unowned : owner (.num .usLength) = none ∧ owner (.num .usTunnelID) = none ∧
    owner (.num .usSessionID) = none ∧ owner (.num .usNs) = none ∧
    owner (.num .usNr) = none ∧ owner (.num .usHeaderSize) = none := by
  decide

theorem stores_means {avp : AvpType} (other : avp ≠ .SUB_ADDRESS) : avp.means = avp.stores := by
  cases avp
  case SUB_ADDRESS => exact absurd rfl other
  all_goals rfl

theorem of_code_eq {code : Nat} {avp : AvpType} (found : AvpType.ofCode code = some avp) :
    avp.code = code := by
  simpa using List.find?_some found

/-- A store that fits. -/
def Store.apply (pBuf : Nat → UInt8) (place size : Nat) (info : L2tpInfo) : Store → L2tpInfo
  | .half field skip => info.setNum field (ntohs pBuf (place + skip))
  | .word field => info.setNum field (ntohl pBuf place)
  | .octet field skip => info.setNum field (pBuf (place + skip)).toNat
  | .text field => info.putText field (readBytes pBuf place size)
  | .flag field => info.setNum field 1

theorem perform_apply {pBuf : Nat → UInt8} {place size : Nat} {store : Store}
    (fits : ∀ field, store = .text field → size < field.size) (info : L2tpInfo) :
    store.perform pBuf place size info = some (store.apply pBuf place size info) := by
  cases store with
  | text field => exact if_pos (fits field rfl)
  | _ => rfl

theorem stores_apply {pBuf : Nat → UInt8} {place size : Nat} {stores : List Store}
    (fits : ∀ store ∈ stores, ∀ field, store = .text field → size < field.size) (info : L2tpInfo) :
    stores.foldlM (Store.perform pBuf place size) info =
      some (stores.foldl (Store.apply pBuf place size) info) := by
  induction stores generalizing info with
  | nil => rfl
  | cons store stores ih =>
      rw [List.foldlM_cons, perform_apply (fits store List.mem_cons_self), List.foldl_cons]
      exact ih (fun other member => fits other (List.mem_cons_of_mem _ member)) _

theorem apply_frame (pBuf : Nat → UInt8) (place size : Nat) {store : Store} {target : Target}
    (other : store.target ≠ target) (info : L2tpInfo) :
    (store.apply pBuf place size info).read target = info.read target := by
  cases store with
  | text written => exact set_text_frame other info _
  | _ => exact set_num_frame other info _

def avpStores (avp_type : Nat) : List Store :=
  match AvpType.ofCode avp_type with
  | none => []
  | some avp => avp.stores

theorem value_fits (avp : Avp) : ∀ store ∈ avpStores avp.usAVPType.toNat, ∀ field,
    store = .text field → avp.value.length < field.size := by
  intro store member field shape
  have fits := avp.fits
  unfold ValueFits at fits
  unfold avpStores at member
  cases found : AvpType.ofCode avp.usAVPType.toNat with
  | none => simp [found] at member
  | some kind =>
      rw [found] at fits member
      dsimp only at fits member
      subst shape
      cases kind
      case RESULT_ERROR_CODE => simp [AvpType.stores] at member
      case SUB_ADDRESS => simp [AvpType.stores] at member
      all_goals exact fits (.text field) member

/-- What an attribute whose value stands at `place` does to the fields. -/
def avpStep (pBuf : Nat → UInt8) (info : L2tpInfo) (placed : Nat × Avp) : L2tpInfo :=
  (avpStores placed.2.usAVPType.toNat).foldl
    (Store.apply pBuf placed.1 placed.2.value.length) info

theorem avp_case_eq (pBuf : Nat → UInt8) (place : Nat) (avp : Avp) (info : L2tpInfo) :
    avpCase pBuf place avp.value.length avp.usAVPType.toNat info =
      some (avpStep pBuf info (place, avp)) := by
  have applied := @stores_apply pBuf place _ _ (value_fits avp) info
  unfold avpStores at applied
  unfold avpStep avpCase avpStores
  dsimp only
  cases found : AvpType.ofCode avp.usAVPType.toNat with
  | none => rfl
  | some kind =>
      rw [found] at applied
      exact applied

theorem step_frame {pBuf : Nat → UInt8} {placed : Nat × Avp} {target : Target}
    (other : ∀ store ∈ avpStores placed.2.usAVPType.toNat, store.target ≠ target) (info : L2tpInfo) :
    (avpStep pBuf info placed).read target = info.read target := by
  apply @foldl_frame _ _ _ _ (fun info : L2tpInfo => info.read target)
  intro info store member
  exact apply_frame pBuf _ _ (other store member) info

/-- A store belongs to its attribute, but for that of the sub-address. -/
theorem store_owner {code : Nat} {store : Store} (member : store ∈ avpStores code) :
    ∃ kind, AvpType.ofCode code = some kind ∧
      (owner store.target = some kind ∧ kind ≠ .SUB_ADDRESS ∨
        kind = .SUB_ADDRESS ∧ store = .word .uiTxConnectSpeed) := by
  unfold avpStores at member
  cases found : AvpType.ofCode code with
  | none => simp [found] at member
  | some kind =>
      rw [found] at member
      dsimp only at member
      refine ⟨kind, rfl, ?_⟩
      by_cases sub : kind = .SUB_ADDRESS
      · subst sub
        exact Or.inr ⟨rfl, by simpa [AvpType.stores] using member⟩
      · rw [← stores_means sub] at member
        exact Or.inl ⟨means_owner kind (mem_avp_types kind) store member, sub⟩

theorem unowned_kept {target : Target} (unowned : owner target = none) (pBuf : Nat → UInt8)
    (placed : Nat × Avp) (info : L2tpInfo) :
    (avpStep pBuf info placed).read target = info.read target := by
  apply step_frame
  intro store member same
  obtain ⟨kind, -, ⟨owned, -⟩ | ⟨-, rfl⟩⟩ := store_owner member
  · rw [same, unowned] at owned
    exact nomatch owned
  · subst same
    revert unowned
    decide

/-- The attributes with the places of their values. -/
def placed : Nat → List Avp → List (Nat × Avp)
  | _, [] => []
  | idx, avp :: rest => (idx + 6, avp) :: placed (idx + 6 + avp.value.length) rest

theorem avp_bytes_cons (avp : Avp) (rest : List Avp) :
    avpBytes (avp :: rest) = avp.bytes ++ avpBytes rest := List.flatMap_cons

theorem avp_length (avp : Avp) : avp.bytes.length = 6 + avp.value.length := by
  simp [Avp.bytes]
  omega

theorem placed_append (front back : List Avp) (idx : Nat) :
    placed idx (front ++ back) = placed idx front ++ placed (idx + (avpBytes front).length) back := by
  induction front generalizing idx with
  | nil => rfl
  | cons avp front ih =>
      rw [List.cons_append, placed, placed, ih, avp_bytes_cons, List.length_append, avp_length,
        List.cons_append]
      congr 3
      omega

/-- What the loop reads of an attribute. -/
theorem avp_numbers {pBuf : Nat → UInt8} {idx : Nat} {avp : Avp} (stands : Stands pBuf idx avp.bytes) :
    (pBuf (idx + 1)).toNat = 6 + avp.value.length ∧
      ntohs pBuf (idx + 4) = avp.usAVPType.toNat ∧ Stands pBuf (idx + 6) avp.value := by
  have length : (pBuf (idx + 1)).toNat = 6 + avp.value.length := by
    rw [stands_at stands (rfl : avp.bytes[1]? = some (UInt8.ofNat (6 + avp.value.length)))]
    have short := avp.short
    simp only [UInt8.toNat_ofNat']
    omega
  obtain ⟨-, stands⟩ := stands_append stands
  obtain ⟨-, stands⟩ := stands_append stands
  obtain ⟨kind, value⟩ := stands_append stands
  rw [to_be_length] at kind value
  exact ⟨length, ntohs_stands kind, value⟩

theorem length_kept (pBuf : Nat → UInt8) (placed : Nat × Avp) (info : L2tpInfo) :
    (avpStep pBuf info placed).num .usLength = info.num .usLength :=
  congrArg Prod.fst (unowned_kept header_unowned.1 pBuf placed info)

/-- The loop takes every attribute. -/
theorem loop_steps {pBuf : Nat → UInt8} (avps : List Avp) : ∀ {fuel idx : Nat} {info : L2tpInfo},
    Stands pBuf idx (avpBytes avps) → info.num .usLength = idx + (avpBytes avps).length →
    avps.length < fuel →
    avpLoop pBuf fuel idx info = some (1, (placed idx avps).foldl (avpStep pBuf) info) := by
  induction avps with
  | nil =>
      intro fuel idx info _ length enough
      obtain ⟨fuel, rfl⟩ := Nat.exists_eq_succ_of_ne_zero (Nat.ne_of_gt enough)
      have ended : ¬idx < info.num .usLength := by
        rw [length]
        exact Nat.lt_irrefl idx
      rw [avpLoop, if_neg ended]
      rfl
  | cons avp rest ih =>
      intro fuel idx info stands length enough
      obtain ⟨fuel, rfl⟩ := Nat.exists_eq_succ_of_ne_zero (Nat.ne_of_gt (Nat.zero_lt_of_lt enough))
      rw [avp_bytes_cons] at stands length
      obtain ⟨here, behind⟩ := stands_append stands
      obtain ⟨size, kind, -⟩ := avp_numbers here
      rw [avp_length] at behind
      rw [List.length_append, avp_length] at length
      have next : idx + (6 + avp.value.length) = idx + 6 + avp.value.length := by omega
      rw [avpLoop, if_pos (by omega)]
      dsimp only
      rw [size, if_neg (by omega), kind, Nat.add_sub_cancel_left, avp_case_eq, Option.bind_eq_bind,
        Option.bind_some, next]
      rw [next] at behind
      rw [ih behind (by rw [length_kept, length]; omega) (Nat.lt_of_succ_lt_succ enough)]
      rfl

end Attributes

section Run

variable {message : Message} {pBuf : Nat → UInt8}

theorem attributes_long (avps : List Avp) : 6 * avps.length ≤ (avpBytes avps).length := by
  induction avps with
  | nil => exact Nat.le_refl 0
  | cons avp rest ih =>
      rw [avp_bytes_cons, List.length_append, avp_length, List.length_cons]
      omega

/-- The decoder takes the attributes one after the other, behind a header that it has read. -/
theorem analyze_steps (stands : Stands pBuf 0 message.bytes) (info : L2tpInfo) : ∃ start,
    analyzeL2TP pBuf info =
      some (1, (placed message.headerSize message.avps).foldl (avpStep pBuf) start) ∧
    ∀ target : Target, owner target = none →
      start.read target = (analyzeHeader pBuf info).1.read target := by
  obtain ⟨size, length, -⟩ := header_read stands info
  obtain ⟨-, -, -, -, -, -, behind⟩ := header_numbers stands
  have whole : message.usLength = message.headerSize + (avpBytes message.avps).length := rfl
  have front : 8 ≤ message.headerSize := by
    rw [Message.headerSize, header_length]
    omega
  have many := attributes_long message.avps
  by_cases acknowledge : message.usLength = 12
  · refine ⟨(analyzeHeader pBuf info).1.setNum .usMessageType 0, ?_, ?_⟩
    · have none_sent : message.avps = [] := by
        apply List.eq_nil_of_length_eq_zero
        omega
      rw [none_sent, analyzeL2TP]
      dsimp only
      rw [length, if_pos (Or.inl acknowledge)]
      rfl
    · intro target unowned
      apply set_num_frame
      rintro rfl
      exact nomatch unowned
  · refine ⟨(analyzeHeader pBuf info).1, ?_, fun _ _ => rfl⟩
    rw [analyzeL2TP]
    dsimp only
    rw [length, if_neg (by omega), size]
    exact loop_steps message.avps behind (by rw [length, whole]) (by omega)

theorem holds_congr {store : Store} {value : List UInt8} {info info' : L2tpInfo}
    (same : info'.read store.target = info.read store.target) (holds : store.Holds value info) :
    store.Holds value info' := by
  cases store with
  | text field =>
      have text : info'.text field = info.text field := congrArg Prod.snd same
      simpa [Store.Holds, text] using holds
  | half field skip =>
      have num : info'.num field = info.num field := congrArg Prod.fst same
      simpa [Store.Holds, num] using holds
  | word field =>
      have num : info'.num field = info.num field := congrArg Prod.fst same
      simpa [Store.Holds, num] using holds
  | octet field skip =>
      have num : info'.num field = info.num field := congrArg Prod.fst same
      simpa [Store.Holds, num] using holds
  | flag field =>
      have num : info'.num field = info.num field := congrArg Prod.fst same
      simpa [Store.Holds, num] using holds

theorem apply_holds {store : Store} {value : List UInt8} {place : Nat}
    (stands : Stands pBuf place value) (fits : store.Fits value ∨ ∃ field skip, store = .half field skip)
    (info : L2tpInfo) : store.Holds value (store.apply pBuf place value.length info) := by
  cases store with
  | half field skip =>
      intro inside
      simp only [Store.apply, num_set_num, if_true, ntohs]
      exact congrArg fromBe (stands_part stands inside)
  | word field =>
      have four : value.length = 4 := by
        rcases fits with fits | ⟨_, _, half⟩
        · exact fits
        · cases half
      rw [Stands, four] at stands
      simp only [Store.Holds, Store.apply, num_set_num, if_true, ntohl, stands]
  | octet field skip =>
      have inside : skip + 1 ≤ value.length := by
        rcases fits with fits | ⟨_, _, half⟩
        · exact Nat.le_of_eq (Eq.symm fits)
        · cases half
      simp only [Store.Holds, Store.apply, num_set_num, if_true]
      rw [← stands_part stands inside]
      simp [readBytes, fromBe]
  | text field =>
      have read : readBytes pBuf place value.length = value := stands
      simp only [Store.Holds, Store.apply, L2tpInfo.putText, text_set_text, if_true, read]
      rw [List.append_cons]
      exact List.take_left' (by simp)
  | flag field => simp [Store.Holds, Store.apply]

theorem means_fit {avp : Avp} {kind : AvpType}
    (found : AvpType.ofCode avp.usAVPType.toNat = some kind) {store : Store}
    (member : store ∈ kind.means) :
    store.Fits avp.value ∨ ∃ field skip, store = .half field skip := by
  have fits := avp.fits
  unfold ValueFits at fits
  rw [found] at fits
  by_cases result : kind = .RESULT_ERROR_CODE
  · subst result
    have halves : store = .half .usResultCode 0 ∨ store = .half .usErrorCode 2 := by
      simpa [AvpType.means, AvpType.stores] using member
    rcases halves with rfl | rfl
    · exact Or.inr ⟨_, _, rfl⟩
    · exact Or.inr ⟨_, _, rfl⟩
  · cases kind
    case RESULT_ERROR_CODE => exact absurd rfl result
    all_goals exact Or.inl (fits store member)

/-- What an attribute says is in its fields behind it. -/
theorem step_holds {avp : Avp} {place : Nat} (stands : Stands pBuf place avp.value) {kind : AvpType}
    (found : AvpType.ofCode avp.usAVPType.toNat = some kind) {store : Store}
    (member : store ∈ kind.means) (info : L2tpInfo) :
    store.Holds avp.value (avpStep pBuf info (place, avp)) := by
  have other : kind ≠ .SUB_ADDRESS := by
    rintro rfl
    exact nomatch member
  have stores : avpStores avp.usAVPType.toNat = kind.means := by
    rw [avpStores, found, stores_means other]
  obtain ⟨front, back, split⟩ := List.append_of_mem member
  have distinct := means_distinct kind (mem_avp_types kind)
  rw [← stores_means other, split, List.map_append, List.map_cons, List.nodup_append] at distinct
  rw [avpStep, stores, split, List.foldl_append, List.foldl_cons]
  dsimp only
  generalize front.foldl (Store.apply pBuf place avp.value.length) info = before
  refine holds_congr ?_ (apply_holds stands (means_fit found member) before)
  apply @foldl_frame _ _ _ _ (fun info : L2tpInfo => info.read store.target)
  intro info later inside
  apply apply_frame
  intro same
  have apart := (List.nodup_cons.mp distinct.2.1).1
  rw [← same] at apart
  exact apart (List.mem_map_of_mem inside)

theorem steps_split (front : List Avp) (avp : Avp) (back : List Avp) (idx : Nat) (info : L2tpInfo) :
    (placed idx (front ++ avp :: back)).foldl (avpStep pBuf) info =
      (placed (idx + (avpBytes (front ++ [avp])).length) back).foldl (avpStep pBuf)
        (avpStep pBuf ((placed idx front).foldl (avpStep pBuf) info)
          (idx + (avpBytes front).length + 6, avp)) := by
  rw [placed_append, List.foldl_append, placed, List.foldl_cons]
  have behind : idx + (avpBytes (front ++ [avp])).length =
      idx + (avpBytes front).length + 6 + avp.value.length := by
    simp only [avpBytes, List.flatMap_append, List.flatMap_cons, List.flatMap_nil, List.append_nil,
      List.length_append, avp_length]
    omega
  rw [behind]

/-- Attributes that do not store to a field leave it alone. -/
theorem steps_frame {target : Target} {avps : List Avp}
    (other : ∀ avp ∈ avps, ∀ store ∈ avpStores avp.usAVPType.toNat, store.target ≠ target) (idx : Nat)
    (info : L2tpInfo) : ((placed idx avps).foldl (avpStep pBuf) info).read target = info.read target := by
  induction avps generalizing idx info with
  | nil => rfl
  | cons avp rest ih =>
      rw [placed, List.foldl_cons, ih (fun later member => other later (List.mem_cons_of_mem _ member))]
      exact step_frame (other avp List.mem_cons_self) info

/-- An attribute of another type stores elsewhere, but for the sub-address. -/
theorem later_apart {avp later : Avp} {kind : AvpType}
    (found : AvpType.ofCode avp.usAVPType.toNat = some kind) {store : Store}
    (member : store ∈ kind.means) (other : later.usAVPType ≠ avp.usAVPType)
    (address : later.usAVPType = 23 → store.target ≠ .num .uiTxConnectSpeed) :
    ∀ stored ∈ avpStores later.usAVPType.toNat, stored.target ≠ store.target := by
  intro stored inside same
  have owner := means_owner kind (mem_avp_types kind) store member
  obtain ⟨kind', found', ⟨owned, -⟩ | ⟨rfl, rfl⟩⟩ := store_owner inside
  · rw [same, owner] at owned
    obtain rfl := Option.some.inj owned
    apply other
    apply UInt16.toNat_inj.mp
    rw [← of_code_eq found, ← of_code_eq found']
  · apply address
    · apply UInt16.toNat_inj.mp
      rw [← of_code_eq found']
      rfl
    · exact same.symm

theorem speed_code : AvpType.ofCode (24 : UInt16).toNat = some .TX_CONNECT_SPEED := by
  decide

/-- The transmit speed that is left is the four octets of the last sub-address behind it. -/
theorem speed_taken {front back : List Avp} {sub : Avp} (address : sub.usAVPType = 23)
    (later : ∀ avp ∈ back, avp.usAVPType ≠ 24 ∧ avp.usAVPType ≠ 23) (idx : Nat) (info : L2tpInfo) :
    ((placed idx (front ++ sub :: back)).foldl (avpStep pBuf) info).num .uiTxConnectSpeed =
      ntohl pBuf (idx + (avpBytes front).length + 6) := by
  have apart : ∀ avp ∈ back, ∀ store ∈ avpStores avp.usAVPType.toNat,
      store.target ≠ .num .uiTxConnectSpeed := by
    intro avp member store inside same
    obtain ⟨neither_speed, neither_address⟩ := later avp member
    obtain ⟨kind, found, ⟨owned, -⟩ | ⟨rfl, -⟩⟩ := store_owner inside
    · rw [same] at owned
      obtain rfl : AvpType.TX_CONNECT_SPEED = kind := Option.some.inj owned
      exact neither_speed (UInt16.toNat_inj.mp (of_code_eq found).symm)
    · exact neither_address (UInt16.toNat_inj.mp (of_code_eq found).symm)
  rw [steps_split]
  have kept := @steps_frame pBuf _ back apart (idx + (avpBytes (front ++ [sub])).length)
    (avpStep pBuf ((placed idx front).foldl (avpStep pBuf) info)
      (idx + (avpBytes front).length + 6, sub))
  have num := congrArg Prod.fst kept
  dsimp only [Record.read] at num
  rw [num, avpStep, address]
  have stores : avpStores (23 : UInt16).toNat = [.word .uiTxConnectSpeed] := by decide
  rw [stores]
  exact num_set_num _ _ _ _ |>.trans (if_pos rfl)

theorem value_stands {front back : List Avp} {avp : Avp} {idx : Nat}
    (stands : Stands pBuf idx (avpBytes (front ++ avp :: back))) :
    Stands pBuf (idx + (avpBytes front).length + 6) avp.value := by
  have split : avpBytes (front ++ avp :: back) = avpBytes front ++ (avp.bytes ++ avpBytes back) := by
    simp [avpBytes]
  rw [split] at stands
  obtain ⟨-, stands⟩ := stands_append stands
  obtain ⟨here, -⟩ := stands_append stands
  exact (avp_numbers here).2.2

/-- An attribute whose fields no later one stores to. -/
theorem kept_holds {front back : List Avp} {avp : Avp} {idx : Nat}
    (stands : Stands pBuf idx (avpBytes (front ++ avp :: back))) {kind : AvpType}
    (found : AvpType.ofCode avp.usAVPType.toNat = some kind) {store : Store}
    (member : store ∈ kind.means)
    (apart : ∀ later ∈ back, ∀ stored ∈ avpStores later.usAVPType.toNat, stored.target ≠ store.target)
    (start : L2tpInfo) :
    store.Holds avp.value ((placed idx (front ++ avp :: back)).foldl (avpStep pBuf) start) := by
  rw [steps_split]
  exact holds_congr (steps_frame apart _ _) (step_holds (value_stands stands) found member _)

theorem avps_recovered (speed : SpeedKept message pBuf)
    (stands : Stands pBuf message.headerSize (avpBytes message.avps)) {front back : List Avp}
    {avp : Avp} (split : message.avps = front ++ avp :: back)
    (last : ∀ later ∈ back, later.usAVPType ≠ avp.usAVPType) (start : L2tpInfo) :
    avp.Recovered ((placed message.headerSize message.avps).foldl (avpStep pBuf) start) := by
  intro kind found store member
  rcases last_split (fun later => later.usAVPType = 23) back with
    without | ⟨between, sub, rest, rfl, address, later⟩
  · rw [split] at stands ⊢
    apply kept_holds stands found member
    intro other inside
    exact later_apart found member (last other inside) (fun sub => absurd sub (without other inside))
  · by_cases to_speed : store.target = .num .uiTxConnectSpeed
    · have owner := means_owner kind (mem_avp_types kind) store member
      rw [to_speed] at owner
      obtain rfl : AvpType.TX_CONNECT_SPEED = kind := Option.some.inj owner
      obtain rfl : store = .word .uiTxConnectSpeed := by
        simpa [AvpType.means, AvpType.stores] using member
      have of_speed : avp.usAVPType = 24 := UInt16.toNat_inj.mp (of_code_eq found).symm
      rw [of_speed] at last
      have whole : message.avps = front ++ avp :: between ++ sub :: rest := by simp [split]
      have behind : ∀ avp ∈ rest, avp.usAVPType ≠ 24 ∧ avp.usAVPType ≠ 23 := fun other inside =>
        ⟨last other (by simp [inside]), later other inside⟩
      rw [Store.Holds, ← speed front avp between sub rest whole of_speed address
        (fun other inside => last other (by simp [inside])) behind, whole]
      exact speed_taken address behind message.headerSize start
    · rw [split] at stands ⊢
      apply kept_holds stands found member
      intro other inside
      exact later_apart found member (last other inside) (fun _ => to_speed)

/-- A message is recovered just when its two sequence numbers are equal or absent, and no later
sub-address changes the transmit speed. -/
theorem message_recovered_iff (message : Message) (memory : Nat → UInt8) (info : L2tpInfo) :
    (∃ info', analyzeL2TP (writeBytes memory 0 message.bytes) info = some (1, info') ∧
      Recovered message info') ↔
    SameSequence message ∧ SpeedKept message (writeBytes memory 0 message.bytes) := by
  have stands := stands_written memory 0 message.bytes
  generalize writeBytes memory 0 message.bytes = pBuf at stands ⊢
  obtain ⟨start, ran, unowned⟩ := analyze_steps stands info
  obtain ⟨-, -, tunnel, session, ns, nr, size⟩ := header_read stands info
  obtain ⟨-, -, -, -, -, -, behind⟩ := header_numbers stands
  have header_kept : ∀ field, owner (.num field) = none →
      ((placed message.headerSize message.avps).foldl (avpStep pBuf) start).num field =
        (analyzeHeader pBuf info).1.num field := by
    intro field free
    have frame := @foldl_frame _ _ _ (avpStep pBuf) (fun info : L2tpInfo => info.read (.num field))
      (placed message.headerSize message.avps)
      (fun info avp _ => unowned_kept free pBuf avp info) start
    exact congrArg Prod.fst (frame.trans (unowned (.num field) free))
  obtain ⟨-, of_tunnel, of_session, of_ns, of_nr, of_size⟩ := header_unowned
  have taken := fun front speed between sub back
      (split : message.avps = front ++ speed :: between ++ sub :: back)
      (address : sub.usAVPType = 23) later =>
    (congrArg (fun avps => ((placed message.headerSize avps).foldl (avpStep pBuf) start).num
      .uiTxConnectSpeed) split).trans
      (@speed_taken pBuf (front ++ speed :: between) back sub address later message.headerSize start)
  rw [ran]
  constructor
  · rintro ⟨info', same, recovered⟩
    obtain rfl : _ = info' := congrArg Prod.snd (Option.some.inj same)
    constructor
    · intro bit
      have sent := recovered.ns
      rw [header_kept _ of_ns, ns, if_pos bit, if_pos bit] at sent
      exact (UInt16.toNat_inj.mp sent).symm
    · intro front speed between sub back split of_speed address apart later
      rw [Message.valueAt, ← taken front speed between sub back split address later]
      have whole : message.avps = front ++ speed :: (between ++ sub :: back) := by simp [split]
      have said := recovered.avps front speed (between ++ sub :: back) whole (by
        intro avp member
        rw [of_speed]
        rcases List.mem_append.mp member with inside | inside
        · exact apart avp inside
        · rcases List.mem_cons.mp inside with rfl | inside
          · rw [address]
            decide
          · exact (later avp inside).1)
      exact said .TX_CONNECT_SPEED (by rw [of_speed]; exact speed_code) (.word .uiTxConnectSpeed)
        List.mem_cons_self
  · rintro ⟨sequence, speed⟩
    refine ⟨_, rfl, ⟨?_, ?_, ?_, ?_, ?_, ?_⟩⟩
    · rw [header_kept _ of_tunnel, tunnel]
    · rw [header_kept _ of_session, session]
    · rw [header_kept _ of_ns, ns]
      split_ifs with bit
      · rw [sequence bit]
      · rfl
    · rw [header_kept _ of_nr, nr]
      split_ifs with bit
      · rw [sequence bit]
      · rfl
    · rw [header_kept _ of_size, size]
    · intro front avp back split last
      exact avps_recovered speed behind split last start

/-- An acknowledgement with Ns 3 and Nr 4. -/
def acknowledgement : Message where
  flags := 0xC802
  usTunnelID := 1
  usSessionID := 0
  usNs := 3
  usNr := 4
  offsetPad := []
  avps := []
  control := by decide
  hasLength := by decide
  bounded := by decide

theorem speed_fits : ValueFits (24 : UInt16).toNat [0, 0, 0xFA, 0] := by
  show ∀ store ∈ AvpType.TX_CONNECT_SPEED.means, store.Fits [0, 0, 0xFA, 0]
  intro store member
  obtain rfl := List.mem_singleton.mp member
  rfl

theorem address_fits : ValueFits (23 : UInt16).toNat [0x37, 0x37, 0x37, 0x37] := by
  show ∀ store ∈ AvpType.SUB_ADDRESS.means, store.Fits [0x37, 0x37, 0x37, 0x37]
  exact fun store member => nomatch member

/-- A transmit speed of 64000 and the sub-address 7777 behind it, without sequence numbers. -/
def connected : Message where
  flags := 0xC002
  usTunnelID := 1
  usSessionID := 5
  usNs := 0
  usNr := 0
  offsetPad := []
  avps := [⟨0x80, 0, 24, [0, 0, 0xFA, 0], by decide, by decide, speed_fits⟩,
    ⟨0x80, 0, 23, [0x37, 0x37, 0x37, 0x37], by decide, by decide, address_fits⟩]
  control := by decide
  hasLength := by decide
  bounded := by decide

def clearedInfo : L2tpInfo := ⟨fun _ => 0, fun field => List.replicate field.size 0⟩

theorem not_recovered :
    (¬∃ info, analyzeL2TP (writeBytes (fun _ => 0) 0 acknowledgement.bytes) clearedInfo = some (1, info) ∧
      Recovered acknowledgement info) ∧
    ¬∃ info, analyzeL2TP (writeBytes (fun _ => 0) 0 connected.bytes) clearedInfo = some (1, info) ∧
      Recovered connected info := by
  constructor
  · rintro ⟨info, ran, recovered⟩
    have exchanged : (analyzeL2TP (writeBytes (fun _ => 0) 0 acknowledgement.bytes) clearedInfo).map
        (fun result => result.2.num .usNs) = some 4 := by decide +kernel
    rw [ran] at exchanged
    have sent : info.num .usNs = 3 := recovered.ns
    have got : info.num .usNs = 4 := Option.some.inj exchanged
    rw [sent] at got
    exact absurd got (by decide)
  · rintro ⟨info, ran, recovered⟩
    have taken : (analyzeL2TP (writeBytes (fun _ => 0) 0 connected.bytes) clearedInfo).map
        (fun result => result.2.num .uiTxConnectSpeed) = some 0x37373737 := by decide +kernel
    rw [ran] at taken
    have sent : info.num .uiTxConnectSpeed = 64000 :=
      recovered.avps [] _ _ rfl (by decide) .TX_CONNECT_SPEED speed_code (.word .uiTxConnectSpeed)
        List.mem_cons_self
    have got : info.num .uiTxConnectSpeed = 0x37373737 := Option.some.inj taken
    rw [sent] at got
    exact absurd got (by decide)

end Run

end Upst.L2tp
