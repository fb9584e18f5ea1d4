import Upst.A11Bounds

/-!
The subscriber number of a session specific extension: a number is packed with its first digit in the
first octet and two swapped digits in each octet behind it, and the decoding gives it back.
-/

namespace Upst.A11

open Bytes Network Guarded

set_option autoImplicit false

section Packing

/-- A number that the extension can hold. -/
structure Mdn where
  digits : List (Fin 10)
  positive : 0 < digits.length
  fits : digits.length ≤ 19

def ascii (digit : Fin 10) : UInt8 := UInt8.ofNat (48 + digit.val)

/-- Two digits in an octet, the first one below; a last digit alone has the filler above it. -/
def packPairs : List (Fin 10) → List UInt8
  | [] => []
  | [digit] => [UInt8.ofNat (0xF0 + digit.val)]
  | low :: high :: rest => UInt8.ofNat (16 * high.val + low.val) :: packPairs rest

/-- What stands below the first digit: whether the number of digits is odd, and the type of the
identity. -/
def indicator (type : Fin 8) (digits : List (Fin 10)) : Nat :=
  if digits.length % 2 = 1 then 8 + type.val else type.val

def packDigits (type : Fin 8) (digits : List (Fin 10)) : List UInt8 :=
  match digits with
  | [] => []
  | first :: rest => UInt8.ofNat (16 * first.val + indicator type digits) :: packPairs rest

example : packDigits 1 [0, 1, 2, 3] = [0x01, 0x21, 0xF3] := by decide

/-- The extension around an identity; `fixed` is what stands between the lengths. -/
def sessionExtension (fixed : Block UInt8 12) (identity : List UInt8) : List UInt8 :=
  [0x27, UInt8.ofNat (13 + identity.length)] ++ fixed.val ++ [UInt8.ofNat identity.length] ++ identity

end Packing

section Digits

theorem pair_printed : ∀ low high : Fin 10,
    hexPair (BCD2 (UInt8.ofNat (16 * high.val + low.val)).toNat) = [ascii low, ascii high] := by
  decide +kernel

theorem filler_printed : ∀ digit : Fin 10,
    hexPair (BCD2 (UInt8.ofNat (0xF0 + digit.val)).toNat) = [ascii digit, 102] := by
  decide +kernel

theorem first_printed : ∀ (first : Fin 10) (below : Fin 16),
    hexDigit ((UInt8.ofNat (16 * first.val + below.val)).toNat >>> 4 &&& 0x0f) = ascii first := by
  decide +kernel

theorem ascii_no_filler : ∀ digit : Fin 10, ascii digit ≠ 102 := by
  decide

theorem indicator_lt (type : Fin 8) (digits : List (Fin 10)) : indicator type digits < 16 := by
  have bound := type.isLt
  rw [indicator]
  split
  · omega
  · omega

/-- What is printed for an octet. -/
def printed (octet : UInt8) : List UInt8 := hexPair (BCD2 octet.toNat)

/-- The filler that a number of digits behind the first one leaves. -/
def filler (digits : List (Fin 10)) : List UInt8 := if digits.length % 2 = 1 then [102] else []

theorem pairs_printed (digits : List (Fin 10)) :
    (packPairs digits).flatMap printed = digits.map ascii ++ filler digits := by
  induction digits using packPairs.induct with
  | case1 => rfl
  | case2 digit =>
      rw [packPairs, List.flatMap_singleton, printed, filler_printed]
      rfl
  | case3 low high rest ih =>
      have same : filler (low :: high :: rest) = filler rest := by
        rw [filler, filler, List.length_cons, List.length_cons, Nat.add_assoc, Nat.add_mod_right]
      rw [packPairs, List.flatMap_cons, printed, pair_printed, ih, same]
      rfl

theorem pairs_length (digits : List (Fin 10)) : (packPairs digits).length = (digits.length + 1) / 2 := by
  induction digits using packPairs.induct with
  | case1 => rfl
  | case2 digit => rw [packPairs, List.length_singleton, List.length_singleton]
  | case3 low high rest ih =>
      rw [packPairs, List.length_cons, ih, List.length_cons, List.length_cons]
      omega

theorem filler_taken (first : Fin 10) (rest : List (Fin 10)) :
    withoutFiller (ascii first :: (rest.map ascii ++ filler rest)) = (first :: rest).map ascii := by
  rw [filler]
  split
  · rw [← List.cons_append, withoutFiller, List.getLast?_concat, if_pos rfl, List.dropLast_concat]
    rfl
  · rw [List.append_nil, ← List.map_cons, withoutFiller, if_neg]
    intro last
    obtain ⟨digit, _, same⟩ := List.mem_map.mp (List.mem_of_getLast? last)
    exact ascii_no_filler digit same

end Digits

section Decoding

variable {message : List UInt8}

theorem octet_value {place : Nat} {octet : UInt8} {octets : List UInt8}
    (stands : Stands (memory message) place (octet :: octets)) :
    valueAt message place 1 = octet.toNat := by
  have here : Stands (memory message) place [octet] := (@stands_append _ _ [octet] octets stands).1
  rw [Stands, List.length_singleton] at here
  rw [valueAt, here, fromBe, List.foldl_cons, List.foldl_nil, Nat.zero_mul, Nat.zero_add]

theorem octet_read {place : Nat} {octet : UInt8} {octets : List UInt8}
    (stands : Stands (memory message) place (octet :: octets)) (inside : place + 1 ≤ message.length) :
    numberAt message place 1 = some octet.toNat :=
  (number_inside inside).trans (congrArg some (octet_value stands))

theorem identity_loop_eq (identity : Nat) (octets : List UInt8) : ∀ i szMsg,
    Stands (memory message) (identity + i) octets → identity + i + octets.length ≤ message.length →
      identityLoop message identity octets.length i szMsg = some (szMsg ++ octets.flatMap printed) := by
  induction octets with
  | nil =>
      intro i szMsg _ _
      rw [List.flatMap_nil, List.append_nil]
      rfl
  | cons octet octets ih =>
      intro i szMsg stands inside
      have rest : Stands (memory message) (identity + i + 1) octets :=
        (@stands_append _ _ [octet] octets stands).2
      rw [List.length_cons] at inside
      rw [List.length_cons, identityLoop, octet_read stands (by omega), Option.bind_some,
        ih (i + 1) _ rest (by omega), List.flatMap_cons, List.append_assoc]
      rfl

/-- The handler at an extension with an identity of digits. -/
theorem session_decoded {place wSize : Nat} {first : Fin 10} {rest : List (Fin 10)} {below : Fin 16}
    (few : rest.length < 19) (passes : (packPairs rest).length < wSize)
    (inside : place + 16 + (packPairs rest).length ≤ message.length)
    (length : Stands (memory message) (place + 14) [UInt8.ofNat ((packPairs rest).length + 1)])
    (identity : Stands (memory message) (place + 15)
      (UInt8.ofNat (16 * first.val + below.val) :: packPairs rest)) (info : A11Info) :
    ∃ info', Analyze_A11_SSE message place wSize info = some (1, info') ∧
      info'.szMDN.val =
        (first :: rest).map ascii ++ 0 :: info.szMDN.val.drop ((first :: rest).length + 1) := by
  have octets : Stands (memory message) (place + 15 + 1) (packPairs rest) :=
    (@stands_append _ _ [_] _ identity).2
  have short : (packPairs rest).length < 16 := by
    rw [pairs_length]
    omega
  have count : (UInt8.ofNat ((packPairs rest).length + 1)).toNat = (packPairs rest).length + 1 := by
    rw [UInt8.toNat_ofNat']
    omega
  obtain ⟨szMDN, stored, written⟩ := @copy_fits _ _ info.szMDN 0 ((first :: rest).map ascii ++ [0]) (by
    rw [List.length_append, List.length_map, List.length_cons, List.length_singleton]
    omega)
  refine ⟨{ info with dwKey := fromBe (readBytes (memory message) (place + 4) 4), szMDN := szMDN }, ?_, ?_⟩
  · rw [Analyze_A11_SSE, number_inside (by omega), octet_read identity (by omega),
      octet_read length (by omega), count]
    simp only [Option.bind_eq_bind, Option.bind_some]
    rw [if_neg (by omega), Nat.add_sub_cancel, identity_loop_eq _ _ _ _ octets (by omega),
      Option.bind_some, first_printed, pairs_printed, List.singleton_append, filler_taken, stored]
    rfl
  · dsimp only
    rw [written, List.take_zero, List.nil_append, List.append_assoc, Nat.zero_add, List.length_append,
      List.length_map, List.length_singleton]
    rfl

/-- The walk at a session specific extension goes on behind it. -/
theorem session_walked {place wLength : Nat} {info info' : A11Info}
    (start : Stands (memory message) place [0x27, UInt8.ofNat wLength]) (positive : 0 < wLength)
    (inside : place + 2 + wLength ≤ message.length) (byte : wLength < 256)
    (handled : Analyze_A11_SSE message place wLength info = some (1, info')) :
    extensionLoop message place info = extensionLoop message (place + (2 + wLength)) info' := by
  have identifier : valueAt message place 1 = 0x27 := octet_value start
  have length : Kind.SSE.lengthOf message place = wLength := by
    have octet := octet_value (@stands_append _ _ [0x27] [UInt8.ofNat wLength] start).2
    rw [UInt8.toNat_ofNat', Nat.mod_eq_of_lt byte] at octet
    exact octet
  have known : Kind.ofIdentifier 0x27 = some .SSE := rfl
  have header : Kind.SSE.headerSize = 2 := rfl
  rw [extension_loop_eq (by omega), identifier, known]
  dsimp only
  rw [length, header, if_pos (by omega), if_neg (by omega), Kind.handle, handled, Option.map_some,
    Option.bind_some, Nat.add_comm wLength]

/-- Whatever stands around the extension, the handler gives the digits of the packed number back, with a
zero behind them, and so does the walk when it comes to the extension. -/
theorem mdn_round_trip (mdn : Mdn) (type : Fin 8) (fixed : Block UInt8 12) (front back : List UInt8)
    (info : A11Info) :
    let identity := packDigits type mdn.digits
    let extension := sessionExtension fixed identity
    let message := front ++ (extension ++ back)
    ∃ info', Analyze_A11_SSE message front.length (13 + identity.length) info = some (1, info') ∧
      info'.szMDN.val =
        mdn.digits.map ascii ++ 0 :: info.szMDN.val.drop (mdn.digits.length + 1) ∧
      extensionLoop message front.length info =
        extensionLoop message (front.length + extension.length) info' := by
  obtain ⟨digits, positive, fits⟩ := mdn
  cases digits with
  | nil => exact absurd positive (Nat.lt_irrefl 0)
  | cons first rest =>
      intro identity extension message
      have few : rest.length < 19 := fits
      have pairs := pairs_length rest
      have octets : identity.length = (packPairs rest).length + 1 := rfl
      have size : extension.length = 15 + identity.length := by
        simp only [extension, sessionExtension, List.length_append, fixed.property, List.length_cons,
          List.length_nil]
      have inside : front.length + extension.length ≤ message.length := by
        simp only [message, List.length_append]
        omega
      have stands : Stands (memory message) front.length extension := stands_between front extension back
      obtain ⟨before, packed⟩ := stands_append stands
      obtain ⟨before, length⟩ := stands_append before
      have start := (stands_append before).1
      rw [List.length_append, fixed.property] at length
      rw [List.length_append, List.length_append, fixed.property] at packed
      obtain ⟨info', handled, written⟩ := @session_decoded message front.length (13 + identity.length) first rest
        ⟨indicator type (first :: rest), indicator_lt type _⟩ few (by omega) (by omega) length packed info
      refine ⟨info', handled, written, ?_⟩
      rw [session_walked start (by omega) (by omega) (by omega) handled, size]
      congr 1
      omega

end Decoding

end Upst.A11
