import Upst.Ppp

/-!
A frame as it is sent is found complete, decoded and accepted. The sender escapes the flag, the
escape and any control characters it chooses, in the content and in the frame check sequence
alike. The table of the check sequence is that of CRC-16/X.25, so that one changed byte of the
content is always noticed.
-/

namespace Upst.Ppp

open Crc

set_option autoImplicit false

section Check

/-- The polynomial of CRC-16/X.25, its bits reversed. -/
def x25 : BitVec 16 := 0x8408

/-- CRC-16/X.25 bit by bit. -/
def fcs16 (bytes : List UInt8) : BitVec 16 := divide x25 0xffff bytes ^^^ 0xffff

theorem fcstab_entries : ∀ index < 256,
    fcstab.getD index 0 = run x25 0#16 (byteBits (UInt8.ofNat index)) ∧
      fcstab.getD index 0 = shifts x25 8 ((UInt8.ofNat index).toBitVec.setWidth 16) := by
  decide +kernel

theorem fcstab_is_table : IsTable x25 fun index => fcstab.getD index 0 := by
  intro byte
  have entry := fcstab_entries byte.toNat byte.toNat_lt
  rwa [UInt8.ofNat_toNat] at entry

theorem fcs_loop_eq (bytes : List UInt8) : fcsLoop 0xffff bytes ^^^ 0xffff = fcs16 bytes := by
  rw [fcsLoop, table_divide (by decide) fcstab_is_table, fcs16]

theorem fcs_changed {byte byte' : UInt8} (front back : List UInt8) (changed : byte ≠ byte') :
    fcs16 (front ++ byte :: back) ≠ fcs16 (front ++ byte' :: back) := by
  intro same
  exact divide_changed (by decide) (by decide) fcstab_is_table 0xffff front back changed
    ((BitVec.xor_left_inj _).mp same)

theorem word_bytes_length (word : BitVec 16) : (wordBytes word).length = 2 := rfl

theorem word_bytes_injective {word word' : BitVec 16} (same : wordBytes word = wordBytes word') :
    word = word' := by
  simp only [wordBytes, List.cons.injEq, UInt8.ofBitVec.injEq, and_true] at same
  apply BitVec.eq_of_getLsbD_eq
  intro place bound
  by_cases low : place < 8
  · have bit := congrArg (fun byte => byte.getLsbD place) same.1
    simpa [low] using bit
  · have bit := congrArg (fun byte => byte.getLsbD (place - 8)) same.2
    have back : 8 + (place - 8) = place := by omega
    simpa [BitVec.getLsbD_ushiftRight, back, show place - 8 < 8 by omega] using bit

/-- The check compares the sequence of what lies before it with the one that is there. -/
theorem check_fcs_eq {content : List UInt8} (nonempty : content ≠ []) (sequence : BitVec 16) :
    checkFCS (0x7E :: content ++ wordBytes sequence ++ [0x7E]) (content.length + 4) =
      if fcs16 content = sequence then 1 else 0 := by
  have positive := List.length_pos_iff.mpr nonempty
  have middle : ((0x7E :: content ++ wordBytes sequence ++ [0x7E]).drop 1).take
      (content.length + 4 - 4) = content := by
    simp
  have last : ((0x7E :: content ++ wordBytes sequence ++ [0x7E]).drop
      (content.length + 4 - 3)).take 2 = wordBytes sequence := by
    have place : content.length + 4 - 3 = (0x7E :: content).length := by
      rw [List.length_cons]
      omega
    rw [place, List.append_assoc, List.drop_left, ← word_bytes_length sequence, List.take_left]
  rw [checkFCS, if_neg (by omega)]
  dsimp only
  rw [middle, last, fcs_loop_eq]
  by_cases same : fcs16 content = sequence
  · rw [if_pos same, if_pos (congrArg wordBytes same)]
  · rw [if_neg same, if_neg (fun bytes => same (word_bytes_injective bytes))]

end Check

section Stuffing

/-- The flag, the escape, and the control characters that the map of the link asks for. -/
def Escaped (accm : BitVec 32) (byte : UInt8) : Prop :=
  byte = 0x7E ∨ byte = 0x7D ∨ byte.toNat < 32 ∧ accm.getLsbD byte.toNat = true

instance (accm : BitVec 32) (byte : UInt8) : Decidable (Escaped accm byte) :=
  inferInstanceAs (Decidable (_ ∨ _ ∨ _))

def stuffByte (accm : BitVec 32) (byte : UInt8) : List UInt8 :=
  if Escaped accm byte then [0x7D, byte ^^^ 0x20] else [byte]

def stuff (accm : BitVec 32) (bytes : List UInt8) : List UInt8 := bytes.flatMap (stuffByte accm)

/-- The content with its check sequence, between flags. -/
def pppFrame (accm : BitVec 32) (content : List UInt8) : List UInt8 :=
  0x7E :: stuff accm (content ++ wordBytes (fcs16 content)) ++ [0x7E]

theorem escape_twice (byte : UInt8) : byte ^^^ 0x20 ^^^ 0x20 = byte := by
  rw [UInt8.xor_assoc, UInt8.xor_self, UInt8.xor_zero]

theorem escape_no_flag {accm : BitVec 32} {byte : UInt8} (escaped : Escaped accm byte) :
    byte ^^^ 0x20 ≠ 0x7E := by
  intro flag
  have byteEq : byte = 0x7E ^^^ 0x20 := by rw [← flag, escape_twice]
  subst byteEq
  exact absurd escaped (by
    rintro (flag | escape | control)
    · exact absurd flag (by decide)
    · exact absurd escape (by decide)
    · exact absurd control.1 (by decide))

theorem stuff_no_flag (accm : BitVec 32) (bytes : List UInt8) : (0x7E : UInt8) ∉ stuff accm bytes := by
  intro member
  obtain ⟨byte, -, inside⟩ := List.mem_flatMap.mp member
  by_cases escaped : Escaped accm byte
  · rw [stuffByte, if_pos escaped] at inside
    simp only [List.mem_cons, List.not_mem_nil, or_false] at inside
    rcases inside with escape | flag
    · exact absurd escape (by decide)
    · exact escape_no_flag escaped flag.symm
  · rw [stuffByte, if_neg escaped, List.mem_singleton] at inside
    exact escaped (Or.inl inside.symm)

theorem length_le_stuff (accm : BitVec 32) (bytes : List UInt8) :
    bytes.length ≤ (stuff accm bytes).length := by
  induction bytes with
  | nil => rfl
  | cons byte rest ih =>
      have split : stuff accm (byte :: rest) = stuffByte accm byte ++ stuff accm rest := rfl
      rw [split, List.length_append, List.length_cons, stuffByte]
      split_ifs
      · simp only [List.length_cons, List.length_nil]
        omega
      · simp only [List.length_singleton]
        omega

theorem unstuff_plain {byte : UInt8} (plain : byte ≠ 0x7D) (rest : List UInt8) :
    (unstuff (byte :: rest)).1 = byte :: (unstuff rest).1 := by
  cases rest with
  | nil => rfl
  | cons next rest => rw [unstuff, if_neg plain]

theorem unstuff_escape (next : UInt8) (rest : List UInt8) :
    (unstuff (0x7D :: next :: rest)).1 = (next ^^^ 0x20) :: (unstuff rest).1 := by
  rw [unstuff, if_pos rfl]

theorem unstuff_stuff (accm : BitVec 32) (bytes rest : List UInt8) :
    (unstuff (stuff accm bytes ++ rest)).1 = bytes ++ (unstuff rest).1 := by
  induction bytes with
  | nil => rfl
  | cons byte bytes ih =>
      have split : stuff accm (byte :: bytes) = stuffByte accm byte ++ stuff accm bytes := rfl
      rw [split, List.append_assoc, stuffByte]
      by_cases escaped : Escaped accm byte
      · rw [if_pos escaped, List.cons_append, List.cons_append, List.nil_append, unstuff_escape,
          escape_twice, ih, List.cons_append]
      · have plain : byte ≠ 0x7D := fun escape => escaped (Or.inr (Or.inl escape))
        rw [if_neg escaped, List.cons_append, List.nil_append, unstuff_plain plain, ih,
          List.cons_append]

theorem unstuff_frame (accm : BitVec 32) (content : List UInt8) :
    (unstuff (pppFrame accm content)).1 =
      0x7E :: content ++ wordBytes (fcs16 content) ++ [0x7E] := by
  rw [pppFrame, List.cons_append, unstuff_plain (by decide), unstuff_stuff]
  simp [unstuff]

end Stuffing

section State

theorem scan_data (bytes : List UInt8) (plain : (0x7E : UInt8) ∉ bytes) (rest : List UInt8)
    (i nFirst : Int) :
    scan7E (bytes ++ rest) i .fData nFirst = scan7E rest (i + bytes.length) .fData nFirst := by
  induction bytes generalizing i with
  | nil => simp
  | cons byte bytes ih =>
      simp only [List.mem_cons, not_or] at plain
      rw [List.cons_append, scan7E, if_neg (fun flag => plain.1 flag.symm)]
      have stays : PppState.fData.onData = .fData := rfl
      have place : i + 1 + bytes.length = i + (byte :: bytes).length := by
        simp only [List.length_cons, Nat.cast_add, Nat.cast_one]
        omega
      rw [stays, ih plain.2, place]

/-- One flag, data without a flag, one flag. -/
theorem scan_frame (bytes : List UInt8) (nonempty : bytes ≠ []) (plain : (0x7E : UInt8) ∉ bytes) :
    scan7E (0x7E :: bytes ++ [0x7E]) 0 .x (-1) = (.fDataF, 0) := by
  cases bytes with
  | nil => exact absurd rfl nonempty
  | cons byte rest =>
      simp only [List.mem_cons, not_or] at plain
      rw [List.cons_append, scan7E, if_pos rfl, List.cons_append, scan7E,
        if_neg (fun flag => plain.1 flag.symm)]
      simp only [PppState.onFlag, PppState.onData]
      rw [scan_data rest plain.2]
      simp [scan7E, PppState.onFlag]

end State

section Frames

/-- What the receiver finds in the buffer when it is given the length of the frame as a `WORD`. -/
def Deframes (accm : BitVec 32) (content : List UInt8) : Prop :=
  let frame := pppFrame accm content
  let wSize := frame.length % 2 ^ 16
  let (pTemp, wPPPSize, _) := decodePPP frame wSize
  (getPPP7EState frame wSize).1 = .fDataF ∧
    pTemp = 0x7E :: content ++ wordBytes (fcs16 content) ++ [0x7E] ∧
    wPPPSize = content.length + 4 ∧
    checkFCS pTemp wPPPSize = 1

/-- The check sequence is CRC-16/X.25, and none but the content it was computed for has it among
those with one byte changed. -/
def ChecksFrames : Prop :=
  (∀ bytes, fcsLoop 0xffff bytes ^^^ 0xffff = fcs16 bytes) ∧
    ∀ (front back : List UInt8) (byte byte' : UInt8), byte ≠ byte' →
      checkFCS (0x7E :: (front ++ byte' :: back) ++ wordBytes (fcs16 (front ++ byte :: back)) ++ [0x7E])
        ((front ++ byte' :: back).length + 4) = 0

theorem frame_length (accm : BitVec 32) (content : List UInt8) :
    content.length + 4 ≤ (pppFrame accm content).length := by
  have stuffed := length_le_stuff accm (content ++ wordBytes (fcs16 content))
  rw [List.length_append, word_bytes_length] at stuffed
  simp only [pppFrame, List.length_append, List.length_cons, List.length_nil]
  omega

theorem frames_deframed (accm : BitVec 32) (content : List UInt8) (nonempty : content ≠ [])
    (word : (pppFrame accm content).length < 2 ^ 16) : Deframes accm content ∧ ChecksFrames := by
  have whole : (pppFrame accm content).take ((pppFrame accm content).length % 2 ^ 16) =
      pppFrame accm content := by
    rw [Nat.mod_eq_of_lt word, List.take_length]
  have size : (0x7E :: content ++ wordBytes (fcs16 content) ++ [0x7E]).length = content.length + 4 := by
    simp [word_bytes_length]
  have short := frame_length accm content
  refine ⟨⟨?_, ?_, ?_, ?_⟩, fcs_loop_eq, ?_⟩
  · have stuffed : stuff accm (content ++ wordBytes (fcs16 content)) ≠ [] := by
      intro empty
      have length := length_le_stuff accm (content ++ wordBytes (fcs16 content))
      rw [empty, List.length_append, word_bytes_length, List.length_nil] at length
      omega
    rw [getPPP7EState, whole, pppFrame, scan_frame _ stuffed (stuff_no_flag _ _)]
  · simp only [whole, unstuff_frame]
  · simp only [whole, unstuff_frame, size]
    omega
  · simp only [whole, unstuff_frame, size]
    rw [Nat.mod_eq_of_lt (by omega), check_fcs_eq nonempty, if_pos rfl]
  · intro front back byte byte' changed
    rw [check_fcs_eq (by simp), if_neg]
    exact fun same => fcs_changed front back changed same.symm

theorem frames_deframed_escapes : Deframes 0 [0x7D, 0x7E, 0x03] ∧ ChecksFrames :=
  frames_deframed 0 [0x7D, 0x7E, 0x03] (by decide) (by decide +kernel)

theorem plain_frame_length {accm : BitVec 32} {content : List UInt8}
    (plain : ∀ byte ∈ content, ¬Escaped accm byte) :
    (pppFrame accm content).length ≤ content.length + 6 := by
  have same : stuff accm content = content := by
    have each : ∀ byte ∈ content, stuffByte accm byte = [byte] :=
      fun byte member => if_neg (plain byte member)
    rw [stuff, List.flatMap_congr each]
    simp
  have tail : (stuff accm (wordBytes (fcs16 content))).length ≤ 4 := by
    simp only [stuff, wordBytes, List.flatMap_cons, List.flatMap_nil, List.length_append, stuffByte]
    split_ifs <;> simp
  have split : stuff accm (content ++ wordBytes (fcs16 content)) =
      content ++ stuff accm (wordBytes (fcs16 content)) := by
    rw [stuff, List.flatMap_append]
    exact congrArg (fun front => front ++ stuff accm (wordBytes (fcs16 content))) same
  rw [pppFrame, split]
  simp only [List.length_append, List.length_cons, List.length_nil]
  omega

/-- Two bytes hold no frame. -/
theorem short_not_frame (accm : BitVec 32) (content : List UInt8) {wSize : Nat} (short : wSize < 3) :
    (getPPP7EState (pppFrame accm content) wSize).1 ≠ .fDataF := by
  obtain ⟨byte, rest, shape⟩ : ∃ byte rest, pppFrame accm content = 0x7E :: byte :: rest := by
    have length := frame_length accm content
    rw [pppFrame, List.cons_append] at length ⊢
    generalize stuff accm (content ++ wordBytes (fcs16 content)) ++ [0x7E] = tail at length ⊢
    cases tail with
    | nil =>
        simp only [List.length_singleton] at length
        omega
    | cons byte rest => exact ⟨byte, rest, rfl⟩
  rw [shape]
  rcases wSize with _ | _ | _ | wSize
  · simp [getPPP7EState, scan7E]
  · simp [getPPP7EState, scan7E, PppState.onFlag]
  · by_cases flag : byte = 0x7E
    · simp [getPPP7EState, scan7E, flag, PppState.onFlag]
    · simp [getPPP7EState, scan7E, flag, PppState.onFlag, PppState.onData]
  · omega

/-- A frame of `2 ^ 16` bytes or a few more is looked at as one of a few bytes. -/
theorem long_not_deframed {accm : BitVec 32} {content : List UInt8}
    (plain : ∀ byte ∈ content, ¬Escaped accm byte) (long : content.length = 65532) :
    ¬Deframes accm content := by
  intro deframes
  have lower := frame_length accm content
  have upper := plain_frame_length plain
  exact short_not_frame accm content (by omega) deframes.1

theorem long_frame_cut : ¬Deframes 0 (List.replicate 65532 0x61) := by
  apply long_not_deframed
  · intro byte member
    rw [List.eq_of_mem_replicate member]
    decide
  · exact List.length_replicate

end Frames

end Upst.Ppp
