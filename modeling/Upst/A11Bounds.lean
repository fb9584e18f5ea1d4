import Upst.A11
import Upst.Walking

/-!
Which messages the walk over the A11 extensions stays inside of. Whether a flow identifier or a key is
read depends on how many of them are there already, so the counts are part of the places.
-/

namespace Upst.A11

open Bytes Network Guarded Walking Relation

set_option autoImplicit false

section Claim

/-- The number at a place, whether it lies inside or not. -/
def valueAt (message : List UInt8) (place size : Nat) : Nat :=
  fromBe (readBytes (memory message) place size)

structure Counts where
  forward : Nat
  reverse : Nat
  keys : Nat

def A11Info.counts (info : A11Info) : Counts := ⟨info.FFlowIDCnt, info.RFlowIDCnt, info.ucKeyEntryCnt⟩

/-- The fixed part lies inside, and so do the octets of an identity whose length passes. There are at
most ten of them: the digits are stored with a zero behind them. -/
def SessionInside (message : List UInt8) (place wSize : Nat) : Prop :=
  place + 16 ≤ message.length ∧
    (1 ≤ valueAt message (place + 14) 1 → valueAt message (place + 14) 1 ≤ wSize →
      place + 15 + valueAt message (place + 14) 1 ≤ message.length ∧
        valueAt message (place + 14) 1 ≤ 10)

/-- How much of its value the case of a vendor type reads. -/
def vendorSize (vendorType : Nat) : Nat :=
  if vendorType = 12 ∨ vendorType = 13 ∨ vendorType = 16 ∨ vendorType = 40 then 4
  else if vendorType = 52 then 8
  else if vendorType = 108 then 37
  else 0

/-- The two lengths of the attribute agree, where it has two. -/
def Agrees (message : List UInt8) (place : Nat) : Prop :=
  valueAt message place 1 = 26 → valueAt message (place + 1) 1 = valueAt message (place + 7) 1 + 6

/-- The type and the length of the attribute lie inside, and those of its value, and what is read of
the value. -/
def AttributeInside (message : List UInt8) (pData dwDataLen i : Nat) : Prop :=
  i < dwDataLen → pData + i + 2 ≤ message.length ∧
    (valueAt message (pData + i) 1 = 26 → pData + i + 8 ≤ message.length ∧
      (Agrees message (pData + i) →
        pData + i + 8 + vendorSize (valueAt message (pData + i + 6) 1) ≤ message.length))

def NextAttribute (message : List UInt8) (pData dwDataLen i j : Nat) : Prop :=
  i < dwDataLen ∧ Agrees message (pData + i) ∧ 0 < valueAt message (pData + i + 1) 1 ∧
    j = i + valueAt message (pData + i + 1) 1

def CriticalInside (message : List UInt8) (place wSize : Nat) : Prop :=
  place + 9 ≤ message.length ∧
    (valueAt message (place + 8) 1 ∈ [1, 242, 2] → place + 10 ≤ message.length ∧
      (valueAt message (place + 9) 1 ∈ [1, 2] →
        ∀ i, ReflTransGen (NextAttribute message (place + 10) (u32Sub wSize 6)) 0 i →
          AttributeInside message (place + 10) (u32Sub wSize 6) i))

/-- The keys there are after the first entries. -/
def keysAfter (message : List UInt8) (pData keys : Nat) : Nat → Nat
  | 0 => keys
  | entries + 1 =>
      let before := keysAfter message pData keys entries
      if valueAt message (pData + GENTRY_SIZE * entries + 1 + 4) 2 = 0x8881 ∧ before < MAX_GRE_ENTRY
      then before + 1 else before

def EntryInside (message : List UInt8) (pData keys entry : Nat) : Prop :=
  pData + GENTRY_SIZE * entry + 1 + 6 ≤ message.length ∧
    (valueAt message (pData + GENTRY_SIZE * entry + 1 + 4) 2 = 0x8881 →
      keysAfter message pData keys entry < MAX_GRE_ENTRY →
        pData + GENTRY_SIZE * entry + 1 + 10 ≤ message.length)

/-- What the case of the type and the subtype reads lies inside. -/
def ApplicationInside (message : List UInt8) (pData type subType : Nat) (counts : Counts) : Prop :=
  (type = 0x07 → subType = 0x01 → pData + 1 ≤ message.length) ∧
  (type = 0x09 → subType = 0x01 → pData + 2 ≤ message.length) ∧
  (type = 0x0C → subType = 0x01 → pData + 1 ≤ message.length ∧
    ∀ entry, entry < valueAt message pData 1 / GENTRY_SIZE →
      EntryInside message pData counts.keys entry) ∧
  (type = 0x0D → subType = 0x01 → counts.forward < MAX_FLOW_ID → pData + 7 ≤ message.length) ∧
  (type = 0x0D → subType = 0x02 → counts.reverse < MAX_FLOW_ID → pData + 6 ≤ message.length)

def NormalInside (message : List UInt8) (place : Nat) (counts : Counts) : Prop :=
  place + 9 ≤ message.length ∧
    (valueAt message (place + 8) 1 ∈ applicationTypes → place + 10 ≤ message.length ∧
      ApplicationInside message (place + 10) (valueAt message (place + 8) 1)
        (valueAt message (place + 9) 1) counts)

def counted (count : Nat) : Nat := if count < MAX_FLOW_ID then count + 1 else count

/-- The counts after the case of the type and the subtype. -/
def applicationCounts (message : List UInt8) (pData type subType : Nat) (counts : Counts) : Counts :=
  if type = 0x0C ∧ subType = 0x01 then
    let entries := valueAt message pData 1 / GENTRY_SIZE
    { counts with keys := keysAfter message pData counts.keys entries }
  else if type = 0x0D ∧ subType = 0x01 then { counts with forward := counted counts.forward }
  else if type = 0x0D ∧ subType = 0x02 then { counts with reverse := counted counts.reverse }
  else counts

def normalCounts (message : List UInt8) (place : Nat) (counts : Counts) : Counts :=
  applicationCounts message (place + 10) (valueAt message (place + 8) 1) (valueAt message (place + 9) 1)
    counts

def Kind.lengthOf (message : List UInt8) (i : Nat) : Kind → Nat
  | CVSE => valueAt message (i + 2) 2
  | MHAE | SSE | RUAE | NVSE => valueAt message (i + 1) 1

/-- The length passes. -/
def Kind.Passes (message : List UInt8) (i : Nat) (kind : Kind) : Prop :=
  0 < kind.lengthOf message i ∧ kind.lengthOf message i ≤ message.length

def Kind.Inside (message : List UInt8) (i : Nat) (counts : Counts) : Kind → Prop
  | MHAE | RUAE => True
  | CVSE => CriticalInside message i (valueAt message (i + 2) 2)
  | SSE => SessionInside message i (valueAt message (i + 1) 1)
  | NVSE => NormalInside message i counts

def Kind.after (message : List UInt8) (i : Nat) (counts : Counts) : Kind → Counts
  | MHAE | CVSE | SSE | RUAE => counts
  | NVSE => normalCounts message i counts

/-- Where an extension stands, and the counts in front of it. -/
abbrev Place : Type := Nat × Counts

/-- An extension with a case has its header inside, and where its length passes, what its handler
reads. -/
def ExtensionInside (message : List UInt8) (place : Place) : Prop :=
  place.1 < message.length → ∀ kind, Kind.ofIdentifier (valueAt message place.1 1) = some kind →
    place.1 + kind.headerSize ≤ message.length ∧
      (kind.Passes message place.1 → kind.Inside message place.1 place.2)

def NextExtension (message : List UInt8) (place other : Place) : Prop :=
  place.1 < message.length ∧ ∃ kind, Kind.ofIdentifier (valueAt message place.1 1) = some kind ∧
    kind.Passes message place.1 ∧
      other = (place.1 + (kind.lengthOf message place.1 + kind.headerSize),
        kind.after message place.1 place.2)

def ExtensionsInside (message : List UInt8) (counts : Counts) : Prop :=
  ∀ place, ReflTransGen (NextExtension message) (0, counts) place → ExtensionInside message place

end Claim

section Numbers

variable {α : Type} {message : List UInt8} {place size : Nat}

theorem value_bind (next : Nat → Option α) : (numberAt message place size).bind next =
    if place + size ≤ message.length then next (valueAt message place size) else none :=
  number_bind next

theorem value_bind_isSome (next : Nat → Option α) :
    ((numberAt message place size).bind next).isSome = true ↔
      place + size ≤ message.length ∧ (next (valueAt message place size)).isSome = true :=
  number_bind_isSome next

theorem map_isSome {β : Type} (result : Option α) (f : α → β) :
    (result.map f).isSome = true ↔ result.isSome = true := by
  cases result with
  | none => exact Iff.rfl
  | some value => exact Iff.rfl

end Numbers

variable {message : List UInt8}

section Session

theorem identity_loop_isSome (identity count : Nat) : ∀ i szMsg,
    (identityLoop message identity count i szMsg).isSome = true ↔
      (0 < count → identity + i + count ≤ message.length) := by
  induction count with
  | zero => exact fun i szMsg => iff_of_true rfl fun some => absurd some (Nat.lt_irrefl 0)
  | succ count ih =>
      intro i szMsg
      rw [identityLoop, value_bind_isSome, ih]
      omega

theorem identity_loop_length (identity count : Nat) : ∀ i szMsg,
    ∀ result ∈ identityLoop message identity count i szMsg,
      result.length = szMsg.length + 2 * count := by
  induction count with
  | zero =>
      intro i szMsg result member
      cases member
      rfl
  | succ count ih =>
      intro i szMsg
      rw [identityLoop]
      apply bind_results
      intro octet result member
      rw [ih _ _ result member, List.length_append, hexPair, List.length_cons, List.length_singleton]
      omega

theorem filler_length (szMsg : List UInt8) : szMsg.length ≤ (withoutFiller szMsg).length + 1 ∧
    (withoutFiller szMsg).length ≤ szMsg.length := by
  rw [withoutFiller]
  split
  · rw [List.length_dropLast]
    omega
  · omega

theorem stored_isSome (szMDN : Block UInt8 20) (szMsg : List UInt8) (mnidLength : Nat)
    (length : szMsg.length + 1 = 2 * mnidLength) (result : Block UInt8 20 → Int × A11Info) :
    ((szMDN.copy 0 (withoutFiller szMsg ++ [0])).bind fun szMDN => some (result szMDN)).isSome = true ↔
      mnidLength ≤ 10 := by
  have filler := filler_length szMsg
  rw [copy_some_isSome, List.length_append, List.length_singleton]
  omega

theorem identity_isSome (identity mnidLength : Nat) (first : UInt8) (positive : 0 < mnidLength)
    (szMDN : Block UInt8 20) (result : Block UInt8 20 → Int × A11Info) :
    ((identityLoop message identity (mnidLength - 1) 1 [first]).bind fun szMsg =>
      (szMDN.copy 0 (withoutFiller szMsg ++ [0])).bind fun szMDN => some (result szMDN)).isSome = true ↔
      (0 < mnidLength - 1 → identity + 1 + (mnidLength - 1) ≤ message.length) ∧ mnidLength ≤ 10 := by
  rw [← identity_loop_isSome identity (mnidLength - 1) 1 [first]]
  cases decoded : identityLoop message identity (mnidLength - 1) 1 [first] with
  | none => exact iff_of_false Bool.false_ne_true fun both => Bool.false_ne_true both.1
  | some szMsg =>
      have length := identity_loop_length identity (mnidLength - 1) 1 [first] szMsg decoded
      rw [List.length_singleton] at length
      rw [Option.bind_some, stored_isSome szMDN szMsg mnidLength (by omega)]
      exact (and_iff_right rfl).symm

theorem session_isSome (place wSize : Nat) (info : A11Info) :
    (Analyze_A11_SSE message place wSize info).isSome = true ↔ SessionInside message place wSize := by
  rw [Analyze_A11_SSE, SessionInside, Option.bind_eq_bind, value_bind_isSome, Option.bind_eq_bind,
    value_bind_isSome, Option.bind_eq_bind, value_bind_isSome]
  generalize valueAt message (place + 14) 1 = mnidLength
  split
  · next refused =>
      rw [Option.isSome_some, iff_true_intro rfl, and_true]
      omega
  · next passed =>
      rw [identity_isSome _ _ _ (by omega)]
      omega

theorem session_counts (place wSize : Nat) (info : A11Info) :
    ∀ result ∈ Analyze_A11_SSE message place wSize info, result.2.counts = info.counts := by
  rw [Analyze_A11_SSE]
  apply bind_results
  intro key
  apply bind_results
  intro first
  apply bind_results
  intro mnidLength
  split
  · intro result member
    cases member
    rfl
  · apply bind_results
    intro szMsg
    apply bind_results
    intro szMDN result member
    cases member
    rfl

end Session

section Critical

theorem number_field_isSome (value size : Nat) (store : Nat → A11Info) :
    ((numberAt message value size).bind fun number => some (store number)).isSome = true ↔
      value + size ≤ message.length := by
  rw [value_bind_isSome]
  exact and_iff_left rfl

theorem bytes_field_isSome {size : Nat} (value : Nat) (block : Block UInt8 size)
    (store : Block UInt8 size → A11Info) :
    ((bytesAt message value size).bind fun bytes =>
      (block.copy 0 bytes).bind fun block => some (store block)).isSome = true ↔
      value + size ≤ message.length := by
  rw [bytes_bind_isSome, copy_some_isSome, readBytes, List.length_map, List.length_range]
  omega

theorem vendor_isSome {value : Nat} (inside : value ≤ message.length) (vendorType : Nat)
    (info : A11Info) : (vendorCase message vendorType value info).isSome = true ↔
      value + vendorSize vendorType ≤ message.length := by
  rw [vendorCase, vendorSize]
  by_cases forward : vendorType = 12
  · rw [if_pos forward, if_pos (Or.inl forward)]
    apply number_field_isSome
  by_cases reverse : vendorType = 13
  · rw [if_neg forward, if_pos reverse, if_pos (Or.inr (Or.inl reverse))]
    apply number_field_isSome
  by_cases service : vendorType = 16
  · rw [if_neg forward, if_neg reverse, if_pos service, if_pos (Or.inr (Or.inr (Or.inl service)))]
    apply number_field_isSome
  by_cases record : vendorType = 40
  · rw [if_neg forward, if_neg reverse, if_neg service, if_pos record,
      if_pos (Or.inr (Or.inr (Or.inr record)))]
    apply number_field_isSome
  have other : ¬(vendorType = 12 ∨ vendorType = 13 ∨ vendorType = 16 ∨ vendorType = 40) := by omega
  rw [if_neg forward, if_neg reverse, if_neg service, if_neg record, if_neg other]
  split
  · apply bytes_field_isSome
  · split
    · apply bytes_field_isSome
    · exact iff_of_true rfl inside

theorem vendor_counts (vendorType value : Nat) (info : A11Info) :
    ∀ result ∈ vendorCase message vendorType value info, result.counts = info.counts := by
  have number (size : Nat) (store : Nat → A11Info) (same : ∀ number, (store number).counts = info.counts) :
      ∀ result ∈ (numberAt message value size).bind fun number => some (store number),
        result.counts = info.counts := by
    apply bind_results
    intro number result member
    cases member
    exact same number
  have bytes {size : Nat} (block : Block UInt8 size) (store : Block UInt8 size → A11Info)
      (same : ∀ block, (store block).counts = info.counts) :
      ∀ result ∈ (bytesAt message value size).bind fun bytes =>
        (block.copy 0 bytes).bind fun block => some (store block), result.counts = info.counts := by
    apply bind_results
    intro bytes
    apply bind_results
    intro block result member
    cases member
    exact same block
  rw [vendorCase]
  split
  · exact number 4 _ fun _ => rfl
  split
  · exact number 4 _ fun _ => rfl
  split
  · exact number 4 _ fun _ => rfl
  split
  · exact number 4 _ fun _ => rfl
  split
  · exact bytes info.ucESN _ fun _ => rfl
  split
  · exact bytes info.szSublink _ fun _ => rfl
  · intro result member
    cases member
    rfl

theorem attribute_isSome {place : Nat} (info : A11Info) :
    (vendorAttribute message place info).isSome = true ↔ place + 1 ≤ message.length ∧
      (valueAt message place 1 = 26 → place + 8 ≤ message.length ∧
        (Agrees message place →
          place + 8 + vendorSize (valueAt message (place + 6) 1) ≤ message.length)) := by
  rw [vendorAttribute, value_bind_isSome]
  apply and_congr_right
  intro _
  split
  · next vendor =>
      rw [value_bind_isSome, value_bind_isSome, forall_prop_of_true vendor, Agrees,
        forall_prop_of_true vendor]
      by_cases inside : place + 8 ≤ message.length
      · rw [and_iff_right (by omega), and_iff_right (by omega), and_iff_right inside]
        split
        · next differ => exact iff_of_true rfl fun agree => absurd agree differ
        · next same =>
            have agree := not_not.mp same
            rw [value_bind_isSome, and_iff_right (by omega), forall_prop_of_true agree,
              ← vendor_isSome inside _ info]
            cases vendorCase message (valueAt message (place + 6) 1) (place + 8) info with
            | none => exact Iff.rfl
            | some _ => exact Iff.rfl
      · exact iff_of_false (fun both => inside both.2.1) (fun both => inside both.1)
  · next other => exact iff_of_true rfl fun vendor => absurd vendor other

theorem attribute_counts (place : Nat) (info : A11Info) :
    ∀ taken ∈ vendorAttribute message place info, ∀ result ∈ taken, result.counts = info.counts := by
  rw [vendorAttribute]
  apply bind_results
  intro type
  split
  · apply bind_results
    intro length
    apply bind_results
    intro vendorLength
    split
    · intro taken member result inner
      cases member
      cases inner
    · apply bind_results
      intro vendorType taken member
      cases stored : vendorCase message vendorType (place + 8) info with
      | none =>
          rw [stored] at member
          cases member
      | some info' =>
          rw [stored] at member
          cases member
          intro result inner
          cases inner
          exact vendor_counts vendorType (place + 8) info info' stored
  · intro taken member result inner
    cases member
    cases inner
    rfl

/-- An attribute that is inside is taken just when its lengths agree. -/
theorem attribute_taken {place : Nat} {info : A11Info} {taken : Option A11Info}
    (result : vendorAttribute message place info = some taken) :
    taken.isSome = true ↔ Agrees message place := by
  rw [vendorAttribute, value_bind] at result
  split at result
  · split at result
    · next vendor =>
        rw [value_bind, value_bind] at result
        rw [Agrees, forall_prop_of_true vendor]
        split at result
        · split at result
          · split at result
            · next differ =>
                cases result
                exact iff_of_false Bool.false_ne_true differ
            · next same =>
                rw [value_bind] at result
                split at result
                · cases stored : vendorCase message (valueAt message (place + 6) 1) (place + 8) info with
                  | none =>
                      rw [stored] at result
                      cases result
                  | some info' =>
                      rw [stored] at result
                      cases result
                      exact iff_of_true rfl (not_not.mp same)
                · cases result
          · cases result
        · cases result
    · next other =>
        cases result
        exact iff_of_true rfl fun vendor => absurd vendor other
  · cases result

/-- The loop from a place and information on. -/
def attributesFrom (message : List UInt8) (pData dwDataLen : Nat) (state : Nat × A11Info) :
    Option (Int × A11Info) :=
  attributeLoop message pData dwDataLen state.1 state.2

theorem attribute_loop_eq {pData dwDataLen i : Nat} (more : i < dwDataLen) (info : A11Info) :
    attributeLoop message pData dwDataLen i info =
      (vendorAttribute message (pData + i) info).bind fun taken =>
        match taken with
        | none => some (ERR_Invalid_Length, info)
        | some info =>
            if pData + i + 1 + 1 ≤ message.length then
              if valueAt message (pData + i + 1) 1 = 0 then some (ERR_Invalid_Length, info)
              else attributeLoop message pData dwDataLen (i + valueAt message (pData + i + 1) 1) info
            else none := by
  rw [attributeLoop, if_pos more]
  split
  · apply congrArg
    funext taken
    cases taken with
    | none => rfl
    | some info =>
        dsimp only
        rw [value_bind]
        simp only [Nat.le_zero]
  · next outside =>
      rw [vendorAttribute, value_bind, if_neg (by omega)]
      rfl

theorem attribute_turn (pData dwDataLen : Nat) (state : Nat × A11Info) :
    Turn (attributesFrom message pData dwDataLen) Prod.fst (AttributeInside message pData dwDataLen)
      (NextAttribute message pData dwDataLen) (fun state => message.length - state.1) state := by
  obtain ⟨i, info⟩ := state
  by_cases more : i < dwDataLen
  · have loop := @attribute_loop_eq message pData dwDataLen i more info
    by_cases inside : AttributeInside message pData dwDataLen i
    · obtain ⟨header, value⟩ := inside more
      obtain ⟨taken, result⟩ := Option.isSome_iff_exists.mp
        ((attribute_isSome info).mpr ⟨by omega, value⟩)
      have agrees := attribute_taken result
      rw [result, Option.bind_some] at loop
      cases taken with
      | none =>
          apply Turn.ends inside
          · exact fun other next => absurd (agrees.mpr next.2.1) Bool.false_ne_true
          · rw [attributesFrom, loop]
            rfl
      | some info' =>
          dsimp only at loop
          rw [if_pos (by omega)] at loop
          by_cases empty : valueAt message (pData + i + 1) 1 = 0
          · rw [if_pos empty] at loop
            apply Turn.ends inside
            · exact fun other next => absurd next.2.2.1 (Nat.not_lt.mpr (Nat.le_of_eq empty))
            · rw [attributesFrom, loop]
              rfl
          · rw [if_neg empty] at loop
            apply Turn.goes (i + valueAt message (pData + i + 1) 1, info') inside
            · intro other
              exact ⟨fun next => next.2.2.2, fun same => ⟨more, agrees.mp rfl, Nat.pos_of_ne_zero empty, same⟩⟩
            · dsimp only
              omega
            · exact loop
    · apply Turn.fails inside
      rw [attributesFrom, loop]
      cases result : vendorAttribute message (pData + i) info with
      | none => rfl
      | some taken =>
          have read := (attribute_isSome info).mp (Option.isSome_of_eq_some result)
          cases taken with
          | none =>
              have agrees := (not_congr (attribute_taken result)).mp Bool.false_ne_true
              refine absurd (fun _ => ⟨?_, read.2⟩) inside
              rw [Agrees, Classical.not_imp] at agrees
              have lengths := (read.2 agrees.1).1
              omega
          | some info' =>
              rw [Option.bind_some]
              dsimp only
              rw [if_neg]
              exact fun header => inside fun _ => ⟨header, read.2⟩
  · apply Turn.ends
    · exact fun less => absurd less more
    · exact fun other next => more next.1
    · rw [attributesFrom, attributeLoop, if_neg more]
      rfl

theorem attributes_isSome (pData dwDataLen : Nat) (info : A11Info) :
    (attributeLoop message pData dwDataLen 0 info).isSome = true ↔
      ∀ i, ReflTransGen (NextAttribute message pData dwDataLen) 0 i →
        AttributeInside message pData dwDataLen i :=
  run_isSome_iff (attribute_turn pData dwDataLen) (0, info)

theorem attributes_counts (pData dwDataLen i : Nat) (info : A11Info) :
    ∀ result ∈ attributeLoop message pData dwDataLen i info, result.2.counts = info.counts := by
  induction i, info using attributeLoop.induct message pData dwDataLen with
  | case1 i info more inside ih =>
      rw [attributeLoop, if_pos more, dif_pos inside]
      intro result member
      cases stored : vendorAttribute message (pData + i) info with
      | none =>
          rw [stored] at member
          cases member
      | some taken =>
          rw [stored, Option.bind_some] at member
          cases taken with
          | none =>
              cases member
              rfl
          | some info' =>
              have same := attribute_counts (pData + i) info (some info') stored info' rfl
              rw [← same]
              revert result member
              apply bind_results
              intro length
              split
              · intro result member
                cases member
                rfl
              · next positive => exact ih info' length positive
  | case2 i info more outside =>
      rw [attributeLoop, if_pos more, dif_neg outside]
      exact fun result member => nomatch member
  | case3 i info stop =>
      rw [attributeLoop, if_neg stop]
      intro result member
      cases member
      rfl

theorem critical_isSome (place wSize : Nat) (info : A11Info) :
    (Analyze_A11_CVSE message place wSize info).isSome = true ↔
      CriticalInside message place wSize := by
  rw [Analyze_A11_CVSE, CriticalInside, Option.bind_eq_bind, value_bind_isSome]
  apply and_congr_right
  intro _
  split
  · next known =>
      have member : valueAt message (place + 8) 1 ∈ [1, 242, 2] := by
        simpa only [List.mem_cons, List.not_mem_nil, or_false] using known
      rw [forall_prop_of_true member, value_bind_isSome]
      apply and_congr_right
      intro _
      split
      · next sub =>
          have member' : valueAt message (place + 9) 1 ∈ [1, 2] := by
            simpa only [List.mem_cons, List.not_mem_nil, or_false] using sub
          rw [forall_prop_of_true member']
          apply attributes_isSome
      · next other =>
          refine iff_of_true rfl fun member' => absurd ?_ other
          simpa only [List.mem_cons, List.not_mem_nil, or_false] using member'
  · next other =>
      refine iff_of_true rfl fun member => absurd ?_ other
      simpa only [List.mem_cons, List.not_mem_nil, or_false] using member

theorem critical_counts (place wSize : Nat) (info : A11Info) :
    ∀ result ∈ Analyze_A11_CVSE message place wSize info, result.2.counts = info.counts := by
  have same : ∀ result ∈ some ((1 : Int), info), result.2.counts = info.counts := by
    intro result member
    cases member
    rfl
  rw [Analyze_A11_CVSE]
  apply bind_results
  intro applicationType
  split
  · apply bind_results
    intro subType
    split
    · apply attributes_counts
    · exact same
  · exact same

end Critical

section Normal

theorem gentry_isSome (place : Nat) (info : A11Info) :
    (gentry message place info).isSome = true ↔ place + 6 ≤ message.length ∧
      (valueAt message (place + 4) 2 = 0x8881 → info.ucKeyEntryCnt < MAX_GRE_ENTRY →
        place + 10 ≤ message.length) := by
  rw [gentry, value_bind_isSome]
  apply and_congr_right
  intro _
  split
  · next key =>
      rw [forall_prop_of_true key.1, forall_prop_of_true key.2, value_bind_isSome, copy_some_isSome,
        List.length_singleton]
      exact and_iff_left key.2
  · next other => exact iff_of_true rfl fun type room => absurd ⟨type, room⟩ other

/-- The counts with an entry more, where it has a key and there is room. -/
def gentryCounts (message : List UInt8) (place : Nat) (counts : Counts) : Counts :=
  if valueAt message (place + 4) 2 = 0x8881 ∧ counts.keys < MAX_GRE_ENTRY
  then { counts with keys := counts.keys + 1 } else counts

theorem counts_keys (info : A11Info) : info.counts.keys = info.ucKeyEntryCnt := rfl

theorem gentry_counts {place : Nat} (info : A11Info) : ∀ result ∈ gentry message place info,
    result.counts = gentryCounts message place info.counts := by
  rw [gentry, value_bind, gentryCounts, counts_keys]
  split
  · split
    · apply bind_results
      intro greKey
      apply bind_results
      intro dwKeyEntry result member
      cases member
      rfl
    · intro result member
      cases member
      rfl
  · exact fun result member => nomatch member

theorem gentry_counts_keys (pData entries : Nat) (counts : Counts) :
    gentryCounts message (pData + GENTRY_SIZE * entries + 1)
        { counts with keys := keysAfter message pData counts.keys entries } =
      { counts with keys := keysAfter message pData counts.keys (entries + 1) } := by
  rw [gentryCounts, keysAfter]
  dsimp only
  split
  · rfl
  · rfl

/-- The entries from `entry` on, with the keys of those in front of them. -/
theorem gentry_loop_spec (pData dwAppLen : Nat) (counts : Counts) (left : Nat) :
    ∀ entry info, entry + left = dwAppLen / GENTRY_SIZE →
      info.counts = { counts with keys := keysAfter message pData counts.keys entry } →
        ((gentryLoop message pData dwAppLen (GENTRY_SIZE * entry) info).isSome = true ↔
          ∀ later, entry ≤ later → later < dwAppLen / GENTRY_SIZE →
            EntryInside message pData counts.keys later) ∧
        ∀ result ∈ gentryLoop message pData dwAppLen (GENTRY_SIZE * entry) info,
          result.counts = { counts with
            keys := keysAfter message pData counts.keys (dwAppLen / GENTRY_SIZE) } := by
  induction left with
  | zero =>
      intro entry info count same
      have stop : ¬GENTRY_SIZE * entry + GENTRY_SIZE ≤ dwAppLen := by
        rw [GENTRY_SIZE] at *
        omega
      rw [gentryLoop, if_neg stop]
      refine ⟨iff_of_true rfl fun later above below => by omega, ?_⟩
      intro result member
      cases member
      rw [same, ← count, Nat.add_zero]
  | succ left ih =>
      intro entry info count same
      have more : GENTRY_SIZE * entry + GENTRY_SIZE ≤ dwAppLen := by
        rw [GENTRY_SIZE] at *
        omega
      have keys : info.ucKeyEntryCnt = keysAfter message pData counts.keys entry :=
        congrArg Counts.keys same
      have here : (gentry message (pData + GENTRY_SIZE * entry + 1) info).isSome = true ↔
          EntryInside message pData counts.keys entry := by
        rw [gentry_isSome, keys, EntryInside]
      rw [gentryLoop, if_pos more]
      cases stored : gentry message (pData + GENTRY_SIZE * entry + 1) info with
      | none =>
          rw [stored] at here
          refine ⟨iff_of_false Bool.false_ne_true fun inside => ?_, fun result member => nomatch member⟩
          exact Bool.false_ne_true (here.mpr (inside entry (Nat.le_refl _) (by omega)))
      | some info' =>
          rw [stored] at here
          have counts' := gentry_counts info info' stored
          rw [same, gentry_counts_keys] at counts'
          obtain ⟨rest, last⟩ := ih (entry + 1) info' (by omega) counts'
          rw [Option.bind_some, ← Nat.mul_succ]
          refine ⟨rest.trans ⟨?_, ?_⟩, last⟩
          · intro inside later above below
            by_cases first : later = entry
            · rw [first]
              exact here.mp rfl
            · exact inside later (by omega) below
          · exact fun inside later above below => inside later (by omega) below

theorem gentry_loop_start (pData dwAppLen : Nat) (info : A11Info) :
    ((gentryLoop message pData dwAppLen 0 info).isSome = true ↔
      ∀ entry, entry < dwAppLen / GENTRY_SIZE → EntryInside message pData info.counts.keys entry) ∧
    ∀ result ∈ gentryLoop message pData dwAppLen 0 info, result.counts = { info.counts with
      keys := keysAfter message pData info.counts.keys (dwAppLen / GENTRY_SIZE) } := by
  obtain ⟨reads, counts⟩ := @gentry_loop_spec message pData dwAppLen info.counts
    (dwAppLen / GENTRY_SIZE) 0 info (Nat.zero_add _) rfl
  refine ⟨reads.trans ?_, counts⟩
  exact ⟨fun inside entry => inside entry (Nat.zero_le _), fun inside entry _ => inside entry⟩

theorem flow_isSome {count : Nat} (block : Block UInt8 MAX_FLOW_ID) (place : Nat) (info : A11Info)
    (store : Block UInt8 MAX_FLOW_ID → A11Info) :
    (if count < MAX_FLOW_ID then
      (bytesAt message place 1).bind fun id => (block.copy count id).bind fun block => some (store block)
    else some info).isSome = true ↔ (count < MAX_FLOW_ID → place + 1 ≤ message.length) := by
  split
  · next room =>
      rw [forall_prop_of_true room, bytes_bind_isSome, copy_some_isSome, readBytes, List.length_map,
        List.length_range]
      exact and_iff_left room
  · next full => exact iff_of_true rfl fun room => absurd room full

theorem flow_counts {count : Nat} (block : Block UInt8 MAX_FLOW_ID) (place : Nat) (info : A11Info)
    (store : Block UInt8 MAX_FLOW_ID → A11Info) (counts : Counts)
    (stored : ∀ block, (store block).counts = counts) :
    ∀ result ∈ if count < MAX_FLOW_ID then
      (bytesAt message place 1).bind fun id => (block.copy count id).bind fun block => some (store block)
    else some info, result.counts = if count < MAX_FLOW_ID then counts else info.counts := by
  split
  · apply bind_results
    intro id
    apply bind_results
    intro block result member
    cases member
    exact stored block
  · intro result member
    cases member
    rfl

theorem application_isSome (pData type subType : Nat) (info : A11Info) :
    (applicationCase message type subType pData info).isSome = true ↔
      ApplicationInside message pData type subType info.counts := by
  rw [applicationCase]
  split
  · next update =>
      obtain ⟨rfl, rfl⟩ := update
      rw [number_field_isSome]
      simp [ApplicationInside]
  split
  · next always =>
      obtain ⟨rfl, rfl⟩ := always
      simp [ApplicationInside]
  split
  · next service =>
      obtain ⟨rfl, rfl⟩ := service
      rw [number_field_isSome]
      simp [ApplicationInside]
  split
  · next session =>
      obtain ⟨rfl, rfl⟩ := session
      rw [value_bind_isSome, (gentry_loop_start _ _ info).1]
      simp [ApplicationInside]
  split
  · next forward =>
      obtain ⟨rfl, rfl⟩ := forward
      rw [flow_isSome, Nat.add_assoc]
      simp [ApplicationInside, A11Info.counts]
  split
  · next reverse =>
      obtain ⟨rfl, rfl⟩ := reverse
      rw [flow_isSome, Nat.add_assoc]
      simp [ApplicationInside, A11Info.counts]
  · next update _ service session forward reverse =>
      exact iff_of_true rfl ⟨fun type sub => absurd ⟨type, sub⟩ update,
        fun type sub => absurd ⟨type, sub⟩ service, fun type sub => absurd ⟨type, sub⟩ session,
        fun type sub => absurd ⟨type, sub⟩ forward, fun type sub => absurd ⟨type, sub⟩ reverse⟩

theorem counted_forward (counts : Counts) :
    (if counts.forward < MAX_FLOW_ID then { counts with forward := counts.forward + 1 } else counts) =
      { counts with forward := counted counts.forward } := by
  rw [counted]
  split
  · rfl
  · rfl

theorem counted_reverse (counts : Counts) :
    (if counts.reverse < MAX_FLOW_ID then { counts with reverse := counts.reverse + 1 } else counts) =
      { counts with reverse := counted counts.reverse } := by
  rw [counted]
  split
  · rfl
  · rfl

theorem application_counts (pData type subType : Nat) (info : A11Info) :
    ∀ result ∈ applicationCase message type subType pData info,
      result.counts = applicationCounts message pData type subType info.counts := by
  rw [applicationCase]
  split
  · next update =>
      obtain ⟨rfl, rfl⟩ := update
      apply bind_results
      intro reason result member
      cases member
      rfl
  split
  · next always =>
      obtain ⟨rfl, rfl⟩ := always
      intro result member
      cases member
      rfl
  split
  · next service =>
      obtain ⟨rfl, rfl⟩ := service
      apply bind_results
      intro option result member
      cases member
      rfl
  split
  · next session =>
      obtain ⟨rfl, rfl⟩ := session
      rw [value_bind]
      split
      · exact (gentry_loop_start _ _ info).2
      · exact fun result member => nomatch member
  split
  · next forward =>
      obtain ⟨rfl, rfl⟩ := forward
      intro result member
      refine Eq.trans ?_ (counted_forward info.counts)
      exact flow_counts info.FFlowID (pData + 6) info _
        { info.counts with forward := info.counts.forward + 1 } (fun _ => rfl) result member
  split
  · next reverse =>
      obtain ⟨rfl, rfl⟩ := reverse
      intro result member
      refine Eq.trans ?_ (counted_reverse info.counts)
      exact flow_counts info.RFlowID (pData + 5) info _
        { info.counts with reverse := info.counts.reverse + 1 } (fun _ => rfl) result member
  · next session forward reverse =>
      intro result member
      cases member
      rw [applicationCounts, if_neg session, if_neg forward, if_neg reverse]

theorem normal_isSome (place : Nat) (info : A11Info) :
    (Analyze_A11_NVSE message place info).isSome = true ↔ NormalInside message place info.counts := by
  rw [Analyze_A11_NVSE, NormalInside, value_bind_isSome]
  apply and_congr_right
  intro _
  split
  · next known =>
      rw [forall_prop_of_true known, value_bind_isSome, ← application_isSome]
      apply and_congr_right
      intro _
      cases applicationCase message (valueAt message (place + 8) 1) (valueAt message (place + 9) 1)
        (place + 10) info with
      | none => exact Iff.rfl
      | some _ => exact Iff.rfl
  · next unknown => exact iff_of_true rfl fun known => absurd known unknown

theorem application_types {type : Nat} (unknown : type ∉ applicationTypes) (message : List UInt8)
    (pData subType : Nat) (counts : Counts) :
    applicationCounts message pData type subType counts = counts := by
  have session : type ≠ 0x0C := by
    rintro rfl
    exact unknown (by decide)
  have flow : type ≠ 0x0D := by
    rintro rfl
    exact unknown (by decide)
  rw [applicationCounts, if_neg fun both => session both.1, if_neg fun both => flow both.1,
    if_neg fun both => flow both.1]

theorem normal_counts (place : Nat) (info : A11Info) : ∀ result ∈ Analyze_A11_NVSE message place info,
    result.2.counts = normalCounts message place info.counts := by
  rw [Analyze_A11_NVSE, value_bind, normalCounts]
  split
  · split
    · rw [value_bind]
      split
      · intro result member
        cases stored : applicationCase message (valueAt message (place + 8) 1)
          (valueAt message (place + 9) 1) (place + 10) info with
        | none =>
            rw [stored] at member
            cases member
        | some info' =>
            rw [stored] at member
            cases member
            exact application_counts _ _ _ info info' stored
      · exact fun result member => nomatch member
    · next unknown =>
        intro result member
        cases member
        exact (application_types unknown _ _ _ _).symm
  · exact fun result member => nomatch member

end Normal

section Walk

theorem length_bind {α : Type} (i : Nat) (kind : Kind) (next : Nat → Option α) :
    (kind.lengthAt message i).bind next =
      if i + kind.headerSize ≤ message.length then next (kind.lengthOf message i) else none := by
  cases kind with
  | CVSE => exact value_bind next
  | _ => exact value_bind next

theorem handle_isSome (i : Nat) (info : A11Info) (kind : Kind) :
    (kind.handle message i (kind.lengthOf message i) info).isSome = true ↔
      kind.Inside message i info.counts := by
  cases kind with
  | MHAE => exact iff_of_true rfl trivial
  | RUAE => exact iff_of_true rfl trivial
  | CVSE => exact (map_isSome _ _).trans (critical_isSome _ _ _)
  | SSE => exact (map_isSome _ _).trans (session_isSome _ _ _)
  | NVSE => exact (map_isSome _ _).trans (normal_isSome _ _)

theorem handle_counts (i wLength : Nat) (info : A11Info) (kind : Kind) :
    ∀ result ∈ kind.handle message i wLength info,
      result.counts = kind.after message i info.counts := by
  have mapped {handled : Option (Int × A11Info)} {counts : Counts}
      (same : ∀ result ∈ handled, result.2.counts = counts) :
      ∀ result ∈ handled.map Prod.snd, result.counts = counts := by
    intro result member
    obtain ⟨pair, found, rfl⟩ := Option.mem_map.mp member
    exact same pair found
  cases kind with
  | CVSE => exact mapped (critical_counts i wLength info)
  | SSE => exact mapped (session_counts i wLength info)
  | NVSE => exact mapped (normal_counts i info)
  | _ =>
      intro result member
      cases member
      rfl

/-- The walk from a place and information on. -/
def extensionsFrom (message : List UInt8) (state : Nat × A11Info) : Option (Int × A11Info) :=
  extensionLoop message state.1 state.2

def placeOf (state : Nat × A11Info) : Place := (state.1, state.2.counts)

theorem extension_loop_eq {i : Nat} (more : i < message.length) (info : A11Info) :
    extensionLoop message i info = match Kind.ofIdentifier (valueAt message i 1) with
      | none => some (0, info)
      | some kind =>
          if i + kind.headerSize ≤ message.length then
            if kind.lengthOf message i > message.length ∨ kind.lengthOf message i ≤ 0 then
              some (ERR_Invalid_Length, info)
            else
              (kind.handle message i (kind.lengthOf message i) info).bind fun info =>
                extensionLoop message (i + (kind.lengthOf message i + kind.headerSize)) info
          else none := by
  rw [extensionLoop, if_pos more, value_bind, if_pos (Nat.succ_le_of_lt more)]
  cases Kind.ofIdentifier (valueAt message i 1) with
  | none => rfl
  | some kind => exact length_bind i kind _

theorem passes_iff (i : Nat) (kind : Kind) : kind.Passes message i ↔
    ¬(kind.lengthOf message i > message.length ∨ kind.lengthOf message i ≤ 0) := by
  rw [Kind.Passes]
  omega

theorem known_turn {i : Nat} {info : A11Info} {kind : Kind} (more : i < message.length)
    (known : Kind.ofIdentifier (valueAt message i 1) = some kind) :
    Turn (extensionsFrom message) placeOf (ExtensionInside message) (NextExtension message)
      (fun state => message.length - state.1) (i, info) := by
  have loop := extension_loop_eq more info
  rw [known] at loop
  dsimp only at loop
  have inside_iff : ExtensionInside message (placeOf (i, info)) ↔ i + kind.headerSize ≤ message.length ∧
      (kind.Passes message i → kind.Inside message i info.counts) := by
    refine ⟨fun inside => inside more kind known, fun inside _ kind' known' => ?_⟩
    cases Option.some.inj (known.symm.trans known')
    exact inside
  have next_iff (other : Place) : NextExtension message (placeOf (i, info)) other ↔
      kind.Passes message i ∧ other = (i + (kind.lengthOf message i + kind.headerSize),
        kind.after message i info.counts) := by
    constructor
    · rintro ⟨_, kind', known', next⟩
      cases Option.some.inj (known.symm.trans known')
      exact next
    · exact fun next => ⟨more, kind, known, next⟩
  by_cases header : i + kind.headerSize ≤ message.length
  · rw [if_pos header] at loop
    by_cases passes : kind.Passes message i
    · rw [if_neg ((passes_iff i kind).mp passes)] at loop
      cases handled : kind.handle message i (kind.lengthOf message i) info with
      | none =>
          rw [handled] at loop
          apply Turn.fails
          · intro inside
            have result := (handle_isSome i info kind).mpr ((inside_iff.mp inside).2 passes)
            rw [handled] at result
            cases result
          · exact loop
      | some info' =>
          rw [handled] at loop
          have counts := handle_counts i _ info kind info' handled
          apply Turn.goes (i + (kind.lengthOf message i + kind.headerSize), info')
          · apply inside_iff.mpr
            exact ⟨header, fun _ => (handle_isSome i info kind).mp (Option.isSome_of_eq_some handled)⟩
          · intro other
            rw [next_iff, and_iff_right passes, ← counts]
            exact Iff.rfl
          · have positive := header_size_pos kind
            dsimp only
            omega
          · exact loop
    · rw [if_pos (not_not.mp ((not_congr (passes_iff i kind)).mp passes))] at loop
      apply Turn.ends
      · exact inside_iff.mpr ⟨header, fun passed => absurd passed passes⟩
      · exact fun other next => passes ((next_iff other).mp next).1
      · rw [extensionsFrom, loop]
        rfl
  · rw [if_neg header] at loop
    exact Turn.fails (fun inside => header (inside_iff.mp inside).1) loop

theorem extension_turn (state : Nat × A11Info) :
    Turn (extensionsFrom message) placeOf (ExtensionInside message) (NextExtension message)
      (fun state => message.length - state.1) state := by
  obtain ⟨i, info⟩ := state
  by_cases more : i < message.length
  · cases known : Kind.ofIdentifier (valueAt message i 1) with
    | some kind => exact known_turn more known
    | none =>
        apply Turn.ends
        · intro _ kind known'
          cases known.symm.trans known'
        · rintro other ⟨_, kind, known', _⟩
          cases known.symm.trans known'
        · rw [extensionsFrom, extension_loop_eq more, known]
          rfl
  · apply Turn.ends
    · exact fun less => absurd less more
    · exact fun other next => more next.1
    · rw [extensionsFrom, extensionLoop, if_neg more]
      rfl

/-- The walk over the extensions and its handlers read and write inside just when the extensions that
it comes to are inside. -/
theorem a11_walk_inside_iff (message : List UInt8) (info : A11Info) :
    (Analyze_A11_Extension message info).isSome = true ↔ ExtensionsInside message info.counts :=
  run_isSome_iff extension_turn (0, info)

end Walk

section Overruns

def clearedInfo : A11Info where
  dwKey := 0
  dwServiceOption := 0
  szMDN := ⟨List.replicate 20 0, rfl⟩
  ucESN := ⟨List.replicate 8 0, rfl⟩
  dwForwardMux := 0
  dwReverseMux := 0
  dwUpdateReason := 0
  ucAirlinkType := 0
  ucApplicationType := 0
  szSublink := ⟨List.replicate 37 0, rfl⟩
  FFlowID := ⟨List.replicate 15 0, rfl⟩
  FFlowIDCnt := 0
  RFlowID := ⟨List.replicate 15 0, rfl⟩
  RFlowIDCnt := 0
  AlwaysOn := 0
  ucKeyEntryCnt := 0
  dwKeyEntry := ⟨List.replicate 6 0, rfl⟩

/-- A session specific extension with an identity of eleven octets, which all lie inside. -/
def longIdentity : List UInt8 :=
  [0x27, 24, 0x88, 0x0B, 0, 0, 0, 1, 0, 0, 0, 0, 0, 6, 11] ++ List.replicate 11 0x21

/-- A critical extension whose length is less than what stands in front of the data. -/
def shortCritical : List UInt8 := [0x26, 0, 0, 5, 0, 0, 0x15, 0x9F, 1, 1]

theorem start_inside {message : List UInt8} {info : A11Info}
    (result : Analyze_A11_Extension message info ≠ none) : ExtensionInside message (0, info.counts) :=
  fits_of_isSome extension_turn .refl (0, info) rfl (Option.isSome_iff_ne_none.mpr result)

/-- The digits of the identity do not fit `szMDN`; the number of bytes of the attributes is negative and
taken for a large one; an identifier stands alone at the end. -/
theorem extensions_overrun : Analyze_A11_Extension longIdentity clearedInfo = none ∧
    Analyze_A11_Extension shortCritical clearedInfo = none ∧
    Analyze_A11_Extension [0x27] clearedInfo = none := by
  refine ⟨?_, ?_, ?_⟩
  · by_contra result
    have inside := start_inside result (by decide) .SSE (by decide +kernel)
    have identity := ((inside.2 ⟨by decide +kernel, by decide +kernel⟩).2 (by decide +kernel)
      (by decide +kernel)).2
    exact absurd identity (by decide +kernel)
  · by_contra result
    have inside := start_inside result (by decide) .CVSE (by decide +kernel)
    have attributes := ((inside.2 ⟨by decide +kernel, by decide +kernel⟩).2 (by decide +kernel)).2
      (by decide +kernel) 0 .refl
    exact absurd (attributes (by decide +kernel)).1 (by decide)
  · by_contra result
    have inside := start_inside result (by decide) .SSE (by decide +kernel)
    exact absurd inside.1 (by decide)

end Overruns

end Upst.A11
