import Upst.Radius

/-!
What the decoder makes of a well-formed list of attributes. A vendor-specific attribute is decoded
by its first sub-attr.
-/

namespace Upst.Radius

open Bytes Network

set_option autoImplicit false

section Format

abbrev SubAttribute := UInt8 × List UInt8

def subBytes (sub : SubAttribute) : List UInt8 :=
  sub.1 :: UInt8.ofNat (sub.2.length + 2) :: sub.2

structure PlainAttribute where
  type : UInt8
  value : List UInt8
  plain : type.toNat ≠ 26
  bounded : value.length + 2 ≤ 255

structure VendorAttribute where
  vendorId : List UInt8
  first : SubAttribute
  rest : List SubAttribute
  idLength : vendorId.length = 4
  bounded : (vendorId ++ (first :: rest).flatMap subBytes).length + 2 ≤ 255

inductive Attribute where
  | plain (attr : PlainAttribute)
  | vendor (attr : VendorAttribute)

def Attribute.type : Attribute → UInt8
  | plain attr => attr.type
  | vendor _ => 26

def Attribute.value : Attribute → List UInt8
  | plain attr => attr.value
  | vendor attr => attr.vendorId ++ (attr.first :: attr.rest).flatMap subBytes

def Attribute.bytes (attr : Attribute) : List UInt8 :=
  attr.type :: UInt8.ofNat (attr.value.length + 2) :: attr.value

def attributeBytes (attributes : List Attribute) : List UInt8 := attributes.flatMap Attribute.bytes

theorem value_bounded (attr : Attribute) : attr.value.length + 2 ≤ 255 := by
  cases attr with
  | plain attr => exact attr.bounded
  | vendor attr => exact attr.bounded

end Format

section Reading

/-- What a case stores, with the octets that it copies. -/
abbrev Read := Rule × List UInt8

def storeRead (info : AccInfo) (read : Read) : AccInfo := info.store read.2 read.1

def Rule.read (rule : Rule) (value : List UInt8) : Option Read :=
  (rule.copied (value.length + 2)).map fun count => (rule, value.take count)

def Attribute.read : Attribute → Option Read
  | plain attr => (attribRule attr.type.toNat).bind (Rule.read · attr.value)
  | vendor attr =>
      (vendorRule attr.first.1.toNat).bind (Rule.read · attr.first.2)

def reads (attributes : List Attribute) : List Read := attributes.filterMap Attribute.read

/-- The field that is stored. -/
def Read.target : Read → Option Target
  | (.word field, _) | (.long field, _) => some (.num field)
  | (.text field _ _, _) | (.whole field _, _) => some (.text field)
  | (.subnet, _) => some (.text .szSubnet)
  | (.passwd, _) => some (.text .szUserPasswd)
  | (.bits, bytes) => (bitOf bytes).map fun bit => .num bit.1

/-- What a case leaves in its field: a number, or what it copies with the terminator behind it where
there is one. -/
def Read.written : Read → Nat × List UInt8
  | (.word _, bytes) | (.long _, bytes) => (fromBe bytes, [])
  | (.text _ _ _, bytes) | (.passwd, bytes) => (0, bytes ++ [0])
  | (.whole .szBSID _, bytes) | (.subnet, bytes) => (0, bytes)
  | (.whole _ _, bytes) => (0, bytes ++ [0])
  | (.bits, bytes) => (((bitOf bytes).map Prod.snd).getD 0, [])

/-- The field begins with what was read, and its flag is on. -/
def Read.Holds (read : Read) (info : AccInfo) (target : Target) : Prop :=
  (info.fields.read target).1 = read.written.1 ∧
    (info.fields.read target).2.take read.written.2.length = read.written.2 ∧
    info.flag target = true

/-- A field with its flag. -/
def AccInfo.get (info : AccInfo) (target : Target) : (Nat × List UInt8) × Bool :=
  (info.fields.read target, info.flag target)

theorem copied_le {rule : Rule} {length count : Nat} (taken : rule.copied (length + 2) = some count) :
    count ≤ length := by
  cases rule with
  | bits =>
      obtain rfl := Option.some.inj taken
      rw [if_neg (by omega)]
      omega
  | passwd =>
      obtain rfl := Option.some.inj taken
      omega
  | _ =>
      simp only [Rule.copied, Option.ite_none_right_eq_some, Option.some.injEq] at taken
      omega

theorem never_negative (rule : Rule) (length : Nat) : ¬rule.negative (length + 2) := by
  cases rule with
  | text field least most => exact fun negative => absurd negative.2 (by omega)
  | passwd => exact fun negative : length + 2 < 2 => absurd negative (by omega)
  | _ => exact id

theorem perform_read {pBuf : Nat → UInt8} {place : Nat} {type : UInt8} {value : List UInt8}
    (bounded : value.length + 2 ≤ 255)
    (stands : Stands pBuf place (subBytes (type, value))) (rule : Rule) (info : AccInfo) :
    rule.perform pBuf place info = some ((rule.read value).elim info (storeRead info)) := by
  have length : (pBuf (place + 1)).toNat = value.length + 2 := by
    rw [@stands_at _ _ _ stands 1 _ rfl]
    exact UInt8.toNat_ofNat_of_lt' (Nat.lt_of_le_of_lt bounded (by decide))
  rw [Rule.perform, length, if_neg (never_negative rule value.length), Rule.read]
  cases taken : rule.copied (value.length + 2) with
  | none => rfl
  | some count =>
      have copied : readBytes pBuf (place + 2) count = value.take count := by
        have inside := copied_le taken
        rw [@stands_part _ _ _ stands 2 count (by simp [subBytes]; omega)]
        rfl
      show some (info.store (readBytes pBuf (place + 2) count) rule) = _
      rw [copied]
      rfl

theorem attrib_case_read {pBuf : Nat → UInt8} {dOffset : Nat} {attr : Attribute}
    (stands : Stands pBuf dOffset attr.bytes) (info : AccInfo) :
    attribCase pBuf dOffset info = some (attr.read.elim info (storeRead info)) := by
  cases attr with
  | plain attr =>
      have kind : pBuf dOffset = attr.type := @stands_at _ _ _ stands 0 _ rfl
      rw [attribCase, kind, if_neg attr.plain, Attribute.read]
      cases attribRule attr.type.toNat with
      | none => rfl
      | some rule => exact perform_read attr.bounded stands rule info
  | vendor attr =>
      have kind : pBuf dOffset = 26 := @stands_at _ _ _ stands 0 _ rfl
      have whole : (Attribute.vendor attr).bytes =
          (26 :: UInt8.ofNat ((Attribute.vendor attr).value.length + 2) :: attr.vendorId) ++
            (subBytes attr.first ++ attr.rest.flatMap subBytes) := by
        simp [Attribute.bytes, Attribute.type, Attribute.value]
      rw [whole] at stands
      have place := (stands_append (stands_append stands).2).1
      rw [List.length_cons, List.length_cons, attr.idLength] at place
      have code : pBuf (dOffset + 6) = attr.first.1 := @stands_at _ _ _ place 0 _ rfl
      have bounded : attr.first.2.length + 2 ≤ 255 := by
        have bound := attr.bounded
        simp only [List.length_append, List.flatMap_cons, subBytes, List.length_cons] at bound
        omega
      rw [attribCase, kind, if_pos (by decide), code, Attribute.read]
      cases vendorRule attr.first.1.toNat with
      | none => rfl
      | some rule => exact perform_read bounded place rule info

theorem loop_reads {pBuf : Nat → UInt8} (attributes : List Attribute) :
    ∀ {fuel dOffset usDataLen : Nat} {info : AccInfo},
      Stands pBuf dOffset (attributeBytes attributes) →
      usDataLen = dOffset + (attributeBytes attributes).length → attributes.length < fuel →
      attribLoop pBuf usDataLen fuel dOffset info =
        some (1, (reads attributes).foldl storeRead info) := by
  induction attributes with
  | nil =>
      intro fuel dOffset usDataLen info _ length enough
      obtain ⟨fuel, rfl⟩ := Nat.exists_eq_succ_of_ne_zero (Nat.ne_of_gt enough)
      have ended : ¬dOffset < usDataLen := by
        rw [length]
        exact Nat.lt_irrefl dOffset
      rw [attribLoop, if_neg ended]
      rfl
  | cons attr rest ih =>
      intro fuel dOffset usDataLen info stands length enough
      obtain ⟨fuel, rfl⟩ := Nat.exists_eq_succ_of_ne_zero (Nat.ne_of_gt (Nat.zero_lt_of_lt enough))
      have whole : attributeBytes (attr :: rest) = attr.bytes ++ attributeBytes rest :=
        List.flatMap_cons
      have size : attr.bytes.length = attr.value.length + 2 := rfl
      rw [whole] at stands
      rw [whole, List.length_append, size] at length
      obtain ⟨here, behind⟩ := stands_append stands
      rw [size] at behind
      have advance : (pBuf (dOffset + 1)).toNat = attr.value.length + 2 := by
        rw [@stands_at _ _ _ here 1 _ rfl]
        exact UInt8.toNat_ofNat_of_lt' (Nat.lt_of_le_of_lt (value_bounded attr) (by decide))
      rw [attribLoop, if_pos (by omega), attrib_case_read here, Option.bind_eq_bind, Option.bind_some,
        advance, if_neg (by omega),
        ih behind (by omega) (Nat.lt_of_succ_lt_succ enough)]
      show some (1, (reads rest).foldl storeRead _) =
        some (1, (List.filterMap Attribute.read (attr :: rest)).foldl storeRead info)
      rw [List.filterMap_cons]
      cases attr.read <;> rfl

theorem attributes_long (attributes : List Attribute) :
    attributes.length ≤ (attributeBytes attributes).length := by
  induction attributes with
  | nil => exact Nat.le_refl 0
  | cons attr rest ih =>
      rw [attributeBytes, List.flatMap_cons, List.length_append, List.length_cons]
      have size : attr.bytes.length = attr.value.length + 2 := rfl
      rw [attributeBytes] at ih
      omega

theorem analyze_reads (attributes : List Attribute) (memory : Nat → UInt8) (info : AccInfo) :
    analyzeRadiusAttrib (writeBytes memory 0 (attributeBytes attributes))
        (attributeBytes attributes).length info =
      some (1, (reads attributes).foldl storeRead
        { info with uiRADIUSLen := (attributeBytes attributes).length }) := by
  have long := attributes_long attributes
  exact loop_reads attributes (stands_written memory 0 _) (Nat.zero_add _).symm (by omega)

end Reading

section Fields

theorem get_set_num (info : AccInfo) (field : NumField) (value : Nat) (target : Target) :
    (info.setNum field value).get target =
      if some (.num field) = some target then
        ((value, [] ++ (info.get target).1.2.drop ([] : List UInt8).length), true)
      else info.get target := by
  split_ifs with own
  · obtain rfl := Option.some.inj own
    simp [AccInfo.get, AccInfo.setNum, Fields.Record.read]
  · have apart : Fields.Target.num field ≠ target := fun same => own (congrArg some same)
    have flag : Function.update info.flag (.num field) true target = info.flag target :=
      Function.update_of_ne (Ne.symm apart) _ _
    exact Prod.ext (Fields.set_num_frame apart info.fields value) flag

theorem get_set_text (info : AccInfo) (field : TextField) (bytes tail : List UInt8)
    (target : Target) :
    (info.setText field bytes tail).get target =
      if some (.text field) = some target then
        ((0, bytes ++ tail ++ (info.get target).1.2.drop (bytes ++ tail).length), true)
      else info.get target := by
  split_ifs with own
  · obtain rfl := Option.some.inj own
    simp [AccInfo.get, AccInfo.setText, Fields.Record.read]
  · have apart : Fields.Target.text field ≠ target := fun same => own (congrArg some same)
    have flag : Function.update info.flag (.text field) true target = info.flag target :=
      Function.update_of_ne (Ne.symm apart) _ _
    exact Prod.ext (Fields.set_text_frame apart info.fields _) flag

theorem get_clear (info : AccInfo) {target : Target} (other : target ≠ .text .szNASPortID) :
    info.clearNASPortID.get target = info.get target :=
  Prod.ext (Fields.set_text_frame (Ne.symm other) info.fields _) rfl

/-- What a case stores, and what it leaves alone. -/
theorem get_store (info : AccInfo) (read : Read) (target : Target)
    (behind : target = .text .szNASPortID → read.target ≠ some (.text .szBSID)) :
    (storeRead info read).get target =
      if read.target = some target then
        ((read.written.1, read.written.2 ++ (info.get target).1.2.drop read.written.2.length), true)
      else info.get target := by
  rcases read with ⟨rule, bytes⟩
  cases rule with
  | word field => exact get_set_num info field (fromBe bytes) target
  | long field => exact get_set_num info field (fromBe bytes) target
  | text field least most => exact get_set_text info field bytes [0] target
  | whole field size =>
      cases field with
      | szBSID =>
          have apart : target ≠ .text .szNASPortID := fun port => behind port rfl
          have stored := get_set_text info .szBSID bytes [] target
          rw [List.append_nil] at stored
          exact (get_clear _ apart).trans stored
      | _ => exact get_set_text info _ bytes [0] target
  | subnet =>
      have stored := get_set_text info .szSubnet bytes [] target
      rw [List.append_nil] at stored
      exact stored
  | passwd => exact get_set_text info .szUserPasswd bytes [0] target
  | bits =>
      rw [storeRead, AccInfo.store, Read.target, Read.written]
      cases bitOf bytes with
      | none => rfl
      | some bit => exact get_set_num info bit.1 bit.2 target

end Fields

section Decoded

/-- The cases that store `target`. -/
def readsOf (target : Target) (attributes : List Attribute) : List Read :=
  (reads attributes).filter fun read => read.target = some target

/-- No attribute is decoded as `szBSID`. -/
def BsidFree (attributes : List Attribute) : Prop := readsOf (.text .szBSID) attributes = []

/-- The type of the attribute that carries a field, with whether it is one of the vendor. -/
def NumField.kind : NumField → Bool × Nat
  | uiNASIP => (false, 4)
  | dNASPort => (false, 5)
  | dSvcType => (false, 6)
  | uiFramedProto => (false, 7)
  | uiFramedIP => (false, 8)
  | uiFramedRout => (false, 10)
  | uiFramedMTU => (false, 12)
  | uiFramedComp => (false, 13)
  | uiSessTimeout => (false, 27)
  | uiIdleTimeout => (false, 28)
  | dAcctStatType => (false, 40)
  | uiAcctDelayTime => (false, 41)
  | dAcctInOct => (false, 42)
  | dAcctOutOct => (false, 43)
  | llAcctSessID => (false, 44)
  | dAcctAuth => (false, 45)
  | uiAcctSessTime => (false, 46)
  | dAcctInPkt => (false, 47)
  | dAcctOutPkt => (false, 48)
  | dAcctTermCause => (false, 49)
  | uiEventTime => (false, 55)
  | dNASPortType => (false, 61)
  | dAcctInterim => (false, 85)
  | uiHAIP => (true, 7)
  | uiPCFIP => (true, 9)
  | dUserID => (true, 11)
  | dFwdFCHMux => (true, 12)
  | dRevFCHMux => (true, 13)
  | dSvcOpt => (true, 16)
  | dFwdTrafType => (true, 17)
  | dRevTrafType => (true, 18)
  | dFCHSize => (true, 19)
  | dFwdFCHRC => (true, 20)
  | dRevFCHRC => (true, 21)
  | dIPTech => (true, 22)
  | dCompTunnelInd => (true, 23)
  | dReleaseInd => (true, 24)
  | dBadPPPFrameCnt => (true, 25)
  | dNumAct => (true, 30)
  | dTermSDBOctCnt => (true, 31)
  | dOrgSDBOctCnt => (true, 32)
  | dTermNumSDB => (true, 33)
  | dOrgNumSDB => (true, 34)
  | dIPQoS => (true, 36)
  | dAirQoS => (true, 39)
  | dRPConnectID => (true, 41)
  | dRcvHDLCOct => (true, 43)
  | llCorrelID => (true, 44)
  | dInMIPSigCnt => (true, 46)
  | dOutMIPSigCnt => (true, 47)
  | uiSessContinue => (true, 48)
  | uiActTime => (true, 49)
  | dDCCHSize => (true, 50)
  | uiBeginnigSess => (true, 51)
  | dAlwaysOn => (true, 78)
  | uiC23BIT | uiHBIT | dPBIT | dCBIT => (true, 1)

def TextField.kind : TextField → Bool × Nat
  | szUserName => (false, 1)
  | szUserPasswd => (false, 2)
  | szCHAPPassed => (false, 3)
  | szMIN => (false, 31)
  | szNASPortID => (false, 87)
  | szBSID => (true, 10)
  | szESN => (true, 52)
  | szSubnet => (true, 108)

def targetKind : Target → Bool × Nat
  | .num field => field.kind
  | .text field => field.kind

/-- The kinds that an attribute has something of. -/
def Attribute.kinds : Attribute → List (Bool × Nat)
  | plain attr => [(false, attr.type.toNat)]
  | vendor attr => (attr.first :: attr.rest).map fun sub => (true, sub.1.toNat)

theorem bit_kind {bytes : List UInt8} {bit : NumField × Nat} (found : bitOf bytes = some bit) :
    bit.1.kind = (true, 1) := by
  rw [bitOf, Option.map_eq_some_iff] at found
  obtain ⟨name, named, rfl⟩ := found
  have listed := List.mem_of_find?_eq_some named
  simp only [bitNames, List.mem_cons, List.not_mem_nil, or_false] at listed
  rcases listed with rfl | rfl | rfl | rfl <;> rfl

theorem attrib_rule_kind {code : Nat} {rule : Rule} {bytes : List UInt8} {target : Target}
    (found : attribRule code = some rule) (own : Read.target (rule, bytes) = some target) :
    targetKind target = (false, code) := by
  unfold attribRule at found
  split at found
  all_goals cases found
  all_goals
    cases own
    rfl

theorem vendor_rule_kind {code : Nat} {rule : Rule} {bytes : List UInt8} {target : Target}
    (found : vendorRule code = some rule) (own : Read.target (rule, bytes) = some target) :
    targetKind target = (true, code) := by
  unfold vendorRule at found
  split at found
  case h_35 =>
    obtain rfl := Option.some.inj found
    rw [Read.target, Option.map_eq_some_iff] at own
    obtain ⟨bit, given, rfl⟩ := own
    exact bit_kind given
  all_goals cases found
  all_goals
    cases own
    rfl

theorem read_rule {rule : Rule} {value : List UInt8} {read : Read}
    (found : rule.read value = some read) : read.1 = rule := by
  rw [Rule.read, Option.map_eq_some_iff] at found
  obtain ⟨count, -, rfl⟩ := found
  rfl

theorem read_kind {attr : Attribute} {read : Read} {target : Target} (found : attr.read = some read)
    (own : read.target = some target) : targetKind target ∈ attr.kinds := by
  cases attr with
  | plain attr =>
      obtain ⟨rule, ruled, found⟩ := Option.bind_eq_some_iff.mp found
      obtain rfl := read_rule found
      rw [attrib_rule_kind ruled own]
      exact List.mem_singleton_self _
  | vendor attr =>
      obtain ⟨rule, ruled, found⟩ := Option.bind_eq_some_iff.mp found
      obtain rfl := read_rule found
      rw [vendor_rule_kind ruled own]
      exact List.mem_cons_self

theorem reads_of_cons (target : Target) (attr : Attribute) (rest : List Attribute) :
    readsOf target (attr :: rest) =
      attr.read.toList.filter (fun read => read.target = some target) ++ readsOf target rest := by
  rw [readsOf, reads, List.filterMap_cons]
  cases attr.read with
  | none => rfl
  | some read => exact List.filter_append [read] _

theorem reads_of_kind (target : Target) (attributes : List Attribute) :
    readsOf target attributes = readsOf target (attributes.filter (targetKind target ∈ ·.kinds)) := by
  induction attributes with
  | nil => rfl
  | cons attr rest ih =>
      by_cases of_kind : targetKind target ∈ attr.kinds
      · rw [List.filter_cons_of_pos (by simpa using of_kind), reads_of_cons, reads_of_cons, ih]
      · have none : attr.read.toList.filter (fun read => read.target = some target) = [] := by
          apply List.filter_eq_nil_iff.mpr
          intro read member own
          exact of_kind (read_kind (Option.mem_toList.mp member) (by simpa using own))
        rw [List.filter_cons_of_neg (by simpa using of_kind), reads_of_cons, none, List.nil_append,
          ih]

/-- Attributes of different kinds have changed places. -/
structure Reordered (attributes attributes' : List Attribute) : Prop where
  perm : attributes'.Perm attributes
  kept : ∀ kind, attributes'.filter (kind ∈ ·.kinds) = attributes.filter (kind ∈ ·.kinds)

theorem reads_get {target : Target} {attributes : List Attribute}
    (behind : target = .text .szNASPortID → BsidFree attributes) {info info' : AccInfo}
    (same : info.get target = info'.get target) :
    ((reads attributes).foldl storeRead info).get target =
      ((readsOf target attributes).foldl storeRead info').get target := by
  have apart : ∀ read ∈ reads attributes, target = .text .szNASPortID →
      read.target ≠ some (.text .szBSID) := by
    intro read member port bsid
    exact List.filter_eq_nil_iff.mp (behind port) read member (by simpa using bsid)
  refine @foldl_own _ _ _ storeRead (AccInfo.get · target) (fun read => read.target = some target) _
    (reads attributes) ?_ ?_ _ _ same
  · intro state read member other
    exact (get_store state read target (apart read member)).trans (if_neg other)
  · intro state state' read member own same
    show (storeRead state read).get target = (storeRead state' read).get target
    have same : state.get target = state'.get target := same
    rw [get_store state read target (apart read member),
      get_store state' read target (apart read member), same]

def lastRead (target : Target) (attributes : List Attribute) : Option Read :=
  (readsOf target attributes).getLast?

theorem field_decoded {target : Target} {attributes : List Attribute}
    (behind : target = .text .szNASPortID → BsidFree attributes) (info : AccInfo) :
    match lastRead target attributes with
    | some read => read.Holds ((reads attributes).foldl storeRead info) target
    | none => ((reads attributes).foldl storeRead info).get target = info.get target := by
  have same := reads_get behind (Eq.refl (info.get target))
  cases last : lastRead target attributes with
  | none =>
      rw [lastRead, List.getLast?_eq_none_iff] at last
      rw [last] at same
      exact same
  | some read =>
      obtain ⟨front, split⟩ := List.getLast?_eq_some_iff.mp last
      have own : read.target = some target := by
        have member : read ∈ readsOf target attributes := split ▸ List.mem_concat_self
        simpa using (List.mem_filter.mp member).2
      rw [split, List.foldl_append, List.foldl_cons, List.foldl_nil,
        get_store _ read target (fun port bsid => by
          rw [own, port] at bsid
          exact absurd bsid (by decide)), if_pos own] at same
      obtain ⟨field, flag⟩ := Prod.mk.inj same
      refine ⟨?_, ?_, flag⟩
      · rw [field]
      · rw [field]
        exact List.take_left' rfl

theorem length_kept (reads : List Read) (info : AccInfo) :
    (reads.foldl storeRead info).uiRADIUSLen = info.uiRADIUSLen := by
  apply foldl_frame
  intro info read _
  rcases read with ⟨rule, bytes⟩
  cases rule with
  | bits =>
      rw [storeRead, AccInfo.store]
      cases bitOf bytes <;> rfl
  | whole field size => cases field <;> rfl
  | _ => rfl

theorem info_ext {info info' : AccInfo} (length : info.uiRADIUSLen = info'.uiRADIUSLen)
    (same : ∀ target, info.get target = info'.get target) : info = info' := by
  obtain ⟨len, ⟨num, text⟩, flag⟩ := info
  obtain ⟨len', ⟨num', text'⟩, flag'⟩ := info'
  obtain rfl : len = len' := length
  obtain rfl : num = num' := funext fun field =>
    congrArg (fun got : (Nat × List UInt8) × Bool => got.1.1) (same (.num field))
  obtain rfl : text = text' := funext fun field =>
    congrArg (fun got : (Nat × List UInt8) × Bool => got.1.2) (same (.text field))
  obtain rfl : flag = flag' := funext fun target => congrArg Prod.snd (same target)
  rfl

/-- Every field has what was last read for it, whatever the order of the attributes of different
kinds. -/
theorem attributes_decoded (attributes : List Attribute) (memory : Nat → UInt8) (info : AccInfo) :
    ∃ info', analyzeRadiusAttrib (writeBytes memory 0 (attributeBytes attributes))
        (attributeBytes attributes).length info = some (1, info') ∧
      (∀ target, (target = .text .szNASPortID → BsidFree attributes) →
        match lastRead target attributes with
        | some read => read.Holds info' target
        | none => info'.get target = info.get target) ∧
      (BsidFree attributes → ∀ attributes' memory', Reordered attributes attributes' →
        analyzeRadiusAttrib (writeBytes memory' 0 (attributeBytes attributes'))
          (attributeBytes attributes').length info = some (1, info')) := by
  refine ⟨_, analyze_reads attributes memory info, ?_, ?_⟩
  · intro target behind
    exact field_decoded behind { info with uiRADIUSLen := (attributeBytes attributes).length }
  · intro free attributes' memory' reordered
    have of_target : ∀ target, readsOf target attributes' = readsOf target attributes := by
      intro target
      rw [reads_of_kind target attributes', reordered.kept, ← reads_of_kind]
    have length : (attributeBytes attributes').length = (attributeBytes attributes).length :=
      (reordered.perm.flatMap_right _).length_eq
    rw [analyze_reads, length]
    congr 2
    apply info_ext
    · rw [length_kept, length_kept]
    · intro target
      have free' : BsidFree attributes' := (of_target _).trans free
      rw [reads_get (fun _ => free') rfl, reads_get (fun _ => free) rfl, of_target]

/-- An attribute with every sub-attribute of the vendor. -/
def Attribute.occurrences : Attribute → List Read
  | plain attr => (Attribute.plain attr).read.toList
  | vendor attr => (attr.first :: attr.rest).filterMap fun sub =>
      (vendorRule sub.1.toNat).bind (Rule.read · sub.2)

def lastOccurrence (target : Target) (attributes : List Attribute) : Option Read :=
  ((attributes.flatMap Attribute.occurrences).filter fun read => read.target = some target).getLast?

/-- The addresses of the home agent and of the PCF in one attribute. -/
def addresses : Attribute :=
  .vendor
    { vendorId := [0, 0, 0x15, 0x9F]
      first := (7, [10, 0, 0, 1])
      rest := [(9, [10, 0, 0, 2])]
      idLength := rfl
      bounded := by decide }

def clearedInfo : AccInfo where
  uiRADIUSLen := 0
  fields := ⟨fun _ => 0, fun field => List.replicate field.size 0⟩
  flag := fun _ => false

theorem second_skipped :
    ¬∀ (attributes : List Attribute) (memory : Nat → UInt8) (info info' : AccInfo),
      analyzeRadiusAttrib (writeBytes memory 0 (attributeBytes attributes))
        (attributeBytes attributes).length info = some (1, info') →
      ∀ target,
        match lastOccurrence target attributes with
        | some read => read.Holds info' target
        | none => info'.get target = info.get target := by
  intro decoded
  have ran := analyze_reads [addresses] (fun _ => 0) clearedInfo
  obtain ⟨-, -, flag⟩ := decoded _ _ _ _ ran (.num .uiPCFIP)
  exact absurd flag (by decide)

end Decoded

end Upst.Radius
