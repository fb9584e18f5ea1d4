import Upst.RadiusDecode
import Upst.Guarded
import Upst.Walking

/-!
What the decoder of RADIUS attributes reads and writes. The buffer is its bytes and no more: a read
behind the last of them, a negative length, and a text that does not fit its array with its terminator,
have no result.
-/

namespace Upst.Radius

open Bytes Network Guarded Walking Relation

set_option autoImplicit false

section Source

/-- The octets of a text and its terminator, where the case writes one. -/
def Rule.written (count : Nat) : Rule → Nat
  | word _ | long _ | subnet => count
  | text _ _ _ | whole _ _ | passwd | bits => count + 1

/-- The size of the field that the case writes to, that of `szC23BIT` for the bits. -/
def Rule.room : Rule → Nat
  | word _ => 4
  | long _ => 8
  | text field _ _ | whole field _ => field.size
  | subnet => TextField.szSubnet.size
  | passwd => TextField.szUserPasswd.size
  | bits => 64

def Rule.performIn (message : List UInt8) (place : Nat) (info : AccInfo) (rule : Rule) :
    Option AccInfo :=
  (numberAt message (place + 1) 1).bind fun usLength =>
    if rule.negative usLength then none
    else
      match rule.copied usLength with
      | some count => (bytesAt message (place + 2) count).bind fun bytes =>
          if rule.written count ≤ rule.room then some (info.store bytes rule) else none
      | none => some info

def attribCaseIn (message : List UInt8) (dOffset : Nat) (info : AccInfo) : Option AccInfo :=
  (numberAt message dOffset 1).bind fun type =>
    if type = 26 then
      (numberAt message (dOffset + 6) 1).bind fun vendorType =>
        match vendorRule vendorType with
        | some rule => rule.performIn message (dOffset + 6) info
        | none => some info
    else
      match attribRule type with
      | some rule => rule.performIn message dOffset info
      | none => some info

def attribLoopIn (message : List UInt8) (dOffset : Nat) (info : AccInfo) : Option (Int × AccInfo) :=
  if dOffset < message.length then
    (attribCaseIn message dOffset info).bind fun info =>
      (numberAt message (dOffset + 1) 1).bind fun size =>
        if size = 0 then some (-1, info) else attribLoopIn message (dOffset + size) info
  else some (1, info)
termination_by message.length - dOffset

def analyzeRadiusAttribIn (message : List UInt8) (info : AccInfo) : Option (Int × AccInfo) :=
  attribLoopIn message 0 { info with uiRADIUSLen := message.length }

end Source

section Claim

def typeAt (message : List UInt8) (place : Nat) : Nat := (memory message place).toNat

def lengthAt (message : List UInt8) (place : Nat) : Nat := (memory message (place + 1)).toNat

/-- What the case reads at a place lies inside, and what it copies has room in its field. -/
def Rule.Inside (message : List UInt8) (place : Nat) (rule : Rule) : Prop :=
  place + 2 ≤ message.length ∧ ¬rule.negative (lengthAt message place) ∧
    ∀ count ∈ rule.copied (lengthAt message place),
      place + 2 + count ≤ message.length ∧ rule.written count ≤ rule.room

/-- The type, that of a vendor attribute, what its case reads, and the length. -/
def CaseInside (message : List UInt8) (dOffset : Nat) : Prop :=
  if typeAt message dOffset = 26 then
    dOffset + 7 ≤ message.length ∧
      ∀ rule ∈ vendorRule (typeAt message (dOffset + 6)), rule.Inside message (dOffset + 6)
  else ∀ rule ∈ attribRule (typeAt message dOffset), rule.Inside message dOffset

def AttributeInside (message : List UInt8) (dOffset : Nat) : Prop :=
  dOffset < message.length → CaseInside message dOffset ∧ dOffset + 2 ≤ message.length

def NextAttribute (message : List UInt8) (dOffset next : Nat) : Prop :=
  dOffset < message.length ∧ 0 < lengthAt message dOffset ∧ next = dOffset + lengthAt message dOffset

/-- The places that the loop comes to. -/
def Visited (message : List UInt8) (dOffset : Nat) : Prop :=
  ReflTransGen (NextAttribute message) 0 dOffset

/-- A type, a length of at least two, and a value, one attribute behind the other up to the end. -/
def Framed (message : List UInt8) : Prop :=
  ∃ attributes : List SubAttribute,
    (∀ attr ∈ attributes, attr.2.length + 2 ≤ 255) ∧ message = attributes.flatMap subBytes

/-- The buffer is read without leaving it or a field, and accepted only as a list of attributes. -/
def Safe (message : List UInt8) (info : AccInfo) : Prop :=
  ∃ code after, analyzeRadiusAttribIn message info = some (code, after) ∧
    (0 ≤ code → Framed message)

end Claim

section Loop

variable {message : List UInt8}

theorem perform_in_isSome (place : Nat) (info : AccInfo) (rule : Rule) :
    (rule.performIn message place info).isSome = true ↔ rule.Inside message place := by
  rw [Rule.performIn, number_bind_isSome, one_byte, Rule.Inside, lengthAt]
  apply and_congr_right
  intro _
  split
  · next negative => exact iff_of_false Bool.false_ne_true fun both => both.1 negative
  · next positive =>
      rw [and_iff_right positive]
      cases Rule.copied (memory message (place + 1)).toNat rule with
      | none => exact iff_of_true rfl fun count member => nomatch member
      | some count =>
          dsimp only
          rw [bytes_bind_isSome]
          constructor
          · intro inside other member
            obtain rfl := Option.some.inj member
            refine ⟨inside.1, ?_⟩
            by_contra exceeds
            rw [if_neg exceeds] at inside
            cases inside.2
          · intro inside
            have fits := inside count rfl
            rw [if_pos fits.2]
            exact ⟨fits.1, rfl⟩

theorem rule_isSome {rule : Option Rule} (place : Nat) (info : AccInfo) :
    (match rule with
      | some rule => rule.performIn message place info
      | none => some info).isSome = true ↔ ∀ found ∈ rule, found.Inside message place := by
  cases rule with
  | none => exact iff_of_true rfl fun found member => nomatch member
  | some rule =>
      dsimp only
      rw [perform_in_isSome]
      constructor
      · intro inside found member
        obtain rfl := Option.some.inj member
        exact inside
      · exact fun inside => inside rule rfl

theorem attrib_case_isSome {dOffset : Nat} (more : dOffset < message.length) (info : AccInfo) :
    (attribCaseIn message dOffset info).isSome = true ↔ CaseInside message dOffset := by
  rw [attribCaseIn, number_bind_isSome, one_byte, CaseInside, typeAt,
    and_iff_right (show dOffset + 1 ≤ message.length from more)]
  split
  · rw [number_bind_isSome, one_byte]
    exact and_congr_right fun _ => rule_isSome (dOffset + 6) info
  · exact rule_isSome dOffset info

theorem loop_more {dOffset : Nat} (more : dOffset < message.length) (info : AccInfo) :
    attribLoopIn message dOffset info =
      (attribCaseIn message dOffset info).bind fun info =>
        if dOffset + 2 ≤ message.length then
          if lengthAt message dOffset = 0 then some (-1, info)
          else attribLoopIn message (dOffset + lengthAt message dOffset) info
        else none := by
  rw [attribLoopIn, if_pos more]
  apply congrArg
  funext info
  rw [number_bind, one_byte]
  rfl

/-- The state of the loop is the place and what is stored so far. -/
theorem attribute_turn (state : Nat × AccInfo) :
    Turn (fun state => attribLoopIn message state.1 state.2) Prod.fst (AttributeInside message)
      (NextAttribute message) (fun state => message.length - state.1) state := by
  obtain ⟨dOffset, info⟩ := state
  by_cases more : dOffset < message.length
  · have turn := loop_more more info
    cases stored : attribCaseIn message dOffset info with
    | none =>
        rw [stored] at turn
        refine .fails (fun inside => ?_) turn
        have member := (attrib_case_isSome more info).mpr (inside more).1
        rw [stored] at member
        cases member
    | some after =>
        rw [stored, Option.bind_some] at turn
        have inside : CaseInside message dOffset := by
          apply (attrib_case_isSome more info).mp
          rw [stored]
          rfl
        by_cases header : dOffset + 2 ≤ message.length
        · rw [if_pos header] at turn
          by_cases zero : lengthAt message dOffset = 0
          · rw [if_pos zero] at turn
            refine .ends (fun _ => ⟨inside, header⟩) (fun other next => ?_) ?_
            · exact Nat.ne_of_gt next.2.1 zero
            · exact congrArg Option.isSome turn
          · rw [if_neg zero] at turn
            refine .goes (dOffset + lengthAt message dOffset, after) (fun _ => ⟨inside, header⟩)
              (fun other => ?_) ?_ turn
            · exact ⟨fun next => next.2.2, fun same => ⟨more, Nat.pos_of_ne_zero zero, same⟩⟩
            · show message.length - (dOffset + lengthAt message dOffset) < message.length - dOffset
              omega
        · rw [if_neg header] at turn
          exact .fails (fun inside => header (inside more).2) turn
  · have turn : attribLoopIn message dOffset info = some (1, info) := by
      rw [attribLoopIn, if_neg more]
    refine .ends (fun inside => absurd inside more) (fun other next => more next.1) ?_
    exact congrArg Option.isSome turn

/-- From a place the loop comes to a length of zero. -/
def MeetsZero (message : List UInt8) (dOffset : Nat) : Prop :=
  ∃ place, ReflTransGen (NextAttribute message) dOffset place ∧ place < message.length ∧
    lengthAt message place = 0

theorem meets_zero_next {dOffset next : Nat} (step : NextAttribute message dOffset next) :
    MeetsZero message dOffset ↔ MeetsZero message next := by
  constructor
  · intro met
    obtain ⟨place, path, more, zero⟩ := met
    cases ReflTransGen.cases_head path with
    | inl here =>
        subst here
        exact absurd zero (Nat.ne_of_gt step.2.1)
    | inr onward =>
        obtain ⟨middle, first, path⟩ := onward
        have same : middle = next := first.2.2.trans step.2.2.symm
        subst same
        exact ⟨place, path, more, zero⟩
  · intro met
    obtain ⟨place, path, more, zero⟩ := met
    exact ⟨place, path.head step, more, zero⟩

theorem past_end {dOffset : Nat} (past : ¬dOffset < message.length) : ¬MeetsZero message dOffset := by
  intro met
  obtain ⟨place, path, inside, -⟩ := met
  cases ReflTransGen.cases_head path with
  | inl here => exact past (here ▸ inside)
  | inr onward =>
      obtain ⟨middle, first, -⟩ := onward
      exact past first.1

/-- The list is refused just when the loop comes to a length of zero. -/
theorem loop_refuses (turns : Nat) {dOffset : Nat} (enough : message.length < dOffset + turns)
    {info after : AccInfo} {code : Int}
    (result : attribLoopIn message dOffset info = some (code, after)) :
    0 ≤ code ↔ ¬MeetsZero message dOffset := by
  induction turns generalizing dOffset info with
  | zero =>
      have past : ¬dOffset < message.length := by omega
      rw [attribLoopIn, if_neg past] at result
      cases result
      exact iff_of_true (by decide) (past_end past)
  | succ turns ih =>
      by_cases more : dOffset < message.length
      · rw [loop_more more] at result
        obtain ⟨stored, -, result⟩ := Option.bind_eq_some_iff.mp result
        split at result
        · split at result
          · next zero =>
              cases result
              exact iff_of_false (by decide) (not_not_intro ⟨dOffset, .refl, more, zero⟩)
          · next some_length =>
              have step : NextAttribute message dOffset (dOffset + lengthAt message dOffset) :=
                ⟨more, Nat.pos_of_ne_zero some_length, rfl⟩
              rw [meets_zero_next step]
              exact ih (by omega) result
        · cases result
      · rw [attribLoopIn, if_neg more] at result
        cases result
        exact iff_of_true (by decide) (past_end more)

/-- What a case stores inside of the buffer is what it stores from the memory behind `pBuf`. -/
theorem perform_in_some {place : Nat} {info after : AccInfo} {rule : Rule}
    (stored : rule.performIn message place info = some after) :
    rule.perform (memory message) place info = some after := by
  rw [Rule.performIn, number_bind, one_byte] at stored
  rw [Rule.perform]
  split at stored
  · split at stored
    · cases stored
    · next positive =>
        rw [if_neg positive]
        cases taken : rule.copied (memory message (place + 1)).toNat with
        | none =>
            rw [taken] at stored
            exact stored
        | some count =>
            rw [taken] at stored
            dsimp only at stored
            rw [bytesAt] at stored
            split at stored
            · rw [Option.bind_some] at stored
              split at stored
              · exact stored
              · cases stored
            · cases stored
  · cases stored

theorem rule_in_some (rule : Option Rule) {place : Nat} {info after : AccInfo} :
    (match rule with
      | some rule => rule.performIn message place info
      | none => some info) = some after →
    (match rule with
      | some rule => rule.perform (memory message) place info
      | none => some info) = some after := by
  cases rule with
  | none => exact id
  | some rule => exact perform_in_some

theorem attrib_case_in_some {dOffset : Nat} {info after : AccInfo}
    (stored : attribCaseIn message dOffset info = some after) :
    attribCase (memory message) dOffset info = some after := by
  rw [attribCaseIn, number_bind, one_byte] at stored
  rw [attribCase]
  split at stored
  · split at stored
    · next vendor =>
        rw [if_pos vendor]
        rw [number_bind, one_byte] at stored
        split at stored
        · exact rule_in_some _ stored
        · cases stored
    · next plain =>
        rw [if_neg plain]
        exact rule_in_some _ stored
  · cases stored

theorem attrib_loop_in_some (fuel : Nat) {dOffset : Nat} (enough : message.length ≤ dOffset + fuel)
    {info : AccInfo} {result : Int × AccInfo} (ran : attribLoopIn message dOffset info = some result) :
    attribLoop (memory message) message.length (fuel + 1) dOffset info = some result := by
  induction fuel generalizing dOffset info with
  | zero =>
      have past : ¬dOffset < message.length := by omega
      rw [attribLoopIn, if_neg past] at ran
      rw [attribLoop, if_neg past]
      exact ran
  | succ fuel ih =>
      by_cases more : dOffset < message.length
      · rw [loop_more more] at ran
        obtain ⟨stored, case, ran⟩ := Option.bind_eq_some_iff.mp ran
        rw [attribLoop, if_pos more, attrib_case_in_some case, Option.bind_eq_bind, Option.bind_some]
        split at ran
        · rw [lengthAt] at ran
          split at ran
          · next zero =>
              rw [if_pos zero]
              exact ran
          · next some_length =>
              rw [if_neg some_length]
              exact ih (by omega) ran
        · cases ran
      · rw [attribLoopIn, if_neg more] at ran
        rw [attribLoop, if_neg more]
        exact ran

/-- A run that stays inside is the run over the memory that the buffer lies in. -/
theorem analyze_in_some {info : AccInfo} {result : Int × AccInfo}
    (ran : analyzeRadiusAttribIn message info = some result) :
    analyzeRadiusAttrib (memory message) message.length info = some result :=
  attrib_loop_in_some message.length (Nat.le_add_left _ _) ran

end Loop

/-- The attributes are decoded inside of the buffer and of the fields, and only a list that fills the
buffer is accepted, just when every attribute that the loop comes to lies inside with what is copied
of it, and the list fills the buffer or has a length of zero. -/
theorem radius_attributes_inside_iff (message : List UInt8) (info : AccInfo) :
    Safe message info ↔
      (∀ dOffset, Visited message dOffset → AttributeInside message dOffset) ∧
        (MeetsZero message 0 ∨ Framed message) := by
  have inside := run_isSome_iff (@attribute_turn message)
    (0, { info with uiRADIUSLen := message.length })
  constructor
  · intro safe
    obtain ⟨code, after, ran, accepted⟩ := safe
    have refuses := loop_refuses (message.length + 1) (by omega) ran
    refine ⟨fun dOffset path => inside.mp (congrArg Option.isSome ran) dOffset path, ?_⟩
    by_cases zero : MeetsZero message 0
    · exact .inl zero
    · exact .inr (accepted (refuses.mpr zero))
  · intro both
    obtain ⟨⟨code, after⟩, ran⟩ := Option.isSome_iff_exists.mp (inside.mpr both.1)
    have refuses := loop_refuses (message.length + 1) (by omega) ran
    refine ⟨code, after, ran, fun accepted => ?_⟩
    exact both.2.resolve_left (refuses.mp accepted)

/-- A calling station of length one: the length minus two goes to `memcpy`. -/
theorem negative_length_copied : analyzeRadiusAttribIn [31, 1] clearedInfo = none ∧
    ¬Safe [31, 1] clearedInfo := by
  have failed : analyzeRadiusAttribIn [31, 1] clearedInfo = none := by
    rw [analyzeRadiusAttribIn, loop_more (by decide)]
    rfl
  refine ⟨failed, fun safe => ?_⟩
  obtain ⟨code, after, ran, -⟩ := safe
  rw [failed] at ran
  cases ran

end Upst.Radius
