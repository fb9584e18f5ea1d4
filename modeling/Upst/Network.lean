import Upst.Bytes
import Mathlib.Tactic.Ring

/-!
Numbers in network byte order, where a run of bytes stands in memory, and what the last of several
writes leaves.
-/

namespace Upst.Network

open Bytes

set_option autoImplicit false

section Numbers

def toBe : Nat → Nat → List UInt8
  | 0, _ => []
  | width + 1, value => toBe width (value / 256) ++ [UInt8.ofNat value]

def fromBe (bytes : List UInt8) : Nat := bytes.foldl (fun high byte => high * 256 + byte.toNat) 0

@[simp] theorem to_be_length (width value : Nat) : (toBe width value).length = width := by
  induction width generalizing value with
  | zero => rfl
  | succ width ih => rw [toBe, List.length_append, ih, List.length_singleton]

theorem from_be_concat (bytes : List UInt8) (byte : UInt8) :
    fromBe (bytes ++ [byte]) = fromBe bytes * 256 + byte.toNat := by
  rw [fromBe, List.foldl_append]
  rfl

theorem from_to_be (width value : Nat) : fromBe (toBe width value) = value % 256 ^ width := by
  induction width generalizing value with
  | zero => rw [Nat.pow_zero, Nat.mod_one]; rfl
  | succ width ih =>
      have low : (UInt8.ofNat value).toNat = value % 256 := UInt8.toNat_ofNat'
      have split : value % 256 ^ (width + 1) = value % 256 + 256 * (value / 256 % 256 ^ width) := by
        rw [Nat.pow_succ', Nat.mod_mul]
      rw [toBe, from_be_concat, ih, low, split]
      ring

theorem from_be_lt (bytes : List UInt8) : fromBe bytes < 256 ^ bytes.length := by
  induction bytes using List.reverseRecOn with
  | nil => decide
  | append_singleton bytes byte ih =>
      rw [from_be_concat, List.length_append, List.length_singleton, Nat.pow_succ]
      have low := byte.toNat_lt
      omega

/-- What a number of some width leaves in a narrower one. -/
theorem from_be_mod (front back : List UInt8) :
    fromBe (front ++ back) % 256 ^ back.length = fromBe back := by
  induction back using List.reverseRecOn with
  | nil => simp [fromBe, Nat.mod_one]
  | append_singleton back byte ih =>
      have low := byte.toNat_lt
      have part : (fromBe (front ++ back) * 256 + byte.toNat) % 256 = byte.toNat := by omega
      have quotient : (fromBe (front ++ back) * 256 + byte.toNat) / 256 = fromBe (front ++ back) := by
        omega
      rw [← List.append_assoc, from_be_concat, from_be_concat, List.length_append,
        List.length_singleton, Nat.pow_succ', Nat.mod_mul, part, quotient, ih]
      ring

end Numbers

section Memory

def ntohs (pBuf : Nat → UInt8) (place : Nat) : Nat := fromBe (readBytes pBuf place 2)

def ntohl (pBuf : Nat → UInt8) (place : Nat) : Nat := fromBe (readBytes pBuf place 4)

def Stands (pBuf : Nat → UInt8) (place : Nat) (bytes : List UInt8) : Prop :=
  readBytes pBuf place bytes.length = bytes

theorem stands_append {pBuf : Nat → UInt8} {place : Nat} {front back : List UInt8}
    (stands : Stands pBuf place (front ++ back)) :
    Stands pBuf place front ∧ Stands pBuf (place + front.length) back := by
  rw [Stands, List.length_append, read_bytes_append] at stands
  exact List.append_inj stands (read_bytes_length _ _ _)

theorem stands_written (pBuf : Nat → UInt8) (place : Nat) (bytes : List UInt8) :
    Stands (writeBytes pBuf place bytes) place bytes := read_write_same pBuf place bytes

theorem stands_at {pBuf : Nat → UInt8} {place : Nat} {bytes : List UInt8}
    (stands : Stands pBuf place bytes) {index : Nat} {byte : UInt8} (found : bytes[index]? = some byte) :
    pBuf (place + index) = byte := by
  have inside := (List.getElem?_eq_some_iff.mp found).1
  rw [← stands, read_bytes_getElem? _ _ _ inside] at found
  exact Option.some.inj found

/-- A part of what stands somewhere. -/
theorem stands_part {pBuf : Nat → UInt8} {place : Nat} {bytes : List UInt8}
    (stands : Stands pBuf place bytes) {skip count : Nat} (inside : skip + count ≤ bytes.length) :
    readBytes pBuf (place + skip) count = (bytes.drop skip).take count := by
  rw [← read_bytes_slice _ _ _ _ _ inside]
  exact congrArg (fun bytes => (List.drop skip bytes).take count) stands

theorem ntohs_number {pBuf : Nat → UInt8} {place value : Nat} (bound : value < 256 ^ 2)
    (stands : Stands pBuf place (toBe 2 value)) : ntohs pBuf place = value := by
  rw [Stands, to_be_length] at stands
  rw [ntohs, stands, from_to_be]
  exact Nat.mod_eq_of_lt bound

theorem ntohl_number {pBuf : Nat → UInt8} {place value : Nat} (bound : value < 256 ^ 4)
    (stands : Stands pBuf place (toBe 4 value)) : ntohl pBuf place = value := by
  rw [Stands, to_be_length] at stands
  rw [ntohl, stands, from_to_be]
  exact Nat.mod_eq_of_lt bound

theorem stands_apart {pBuf : Nat → UInt8} {place target : Nat} {bytes src : List UInt8}
    (stands : Stands pBuf place bytes)
    (apart : place + bytes.length ≤ target ∨ target + src.length ≤ place) :
    Stands (writeBytes pBuf target src) place bytes :=
  (read_write_apart pBuf target src place bytes.length apart).trans stands

theorem ntohs_stands {pBuf : Nat → UInt8} {place : Nat} {value : UInt16}
    (stands : Stands pBuf place (toBe 2 value.toNat)) : ntohs pBuf place = value.toNat :=
  ntohs_number value.toNat_lt stands

end Memory

section LastWrite

variable {State Item Value : Type}

/-- Steps that leave a part of the state alone. -/
theorem foldl_frame {step : State → Item → State} {get : State → Value} {items : List Item}
    (frame : ∀ state, ∀ item ∈ items, get (step state item) = get state) (state : State) :
    get (items.foldl step state) = get state := by
  induction items generalizing state with
  | nil => rfl
  | cons item items ih =>
      rw [List.foldl_cons, ih (fun state other member => frame state other (List.mem_cons_of_mem _ member)),
        frame state item List.mem_cons_self]

/-- Steps of which some leave a part of the state alone, and what the others make of that part
depends on nothing else. -/
theorem foldl_own {step : State → Item → State} {get : State → Value} (own : Item → Prop)
    [DecidablePred own] {items : List Item}
    (frame : ∀ state, ∀ item ∈ items, ¬own item → get (step state item) = get state)
    (congr : ∀ state state', ∀ item ∈ items, own item → get state = get state' →
      get (step state item) = get (step state' item))
    {state state' : State} (same : get state = get state') :
    get (items.foldl step state) = get ((items.filter own).foldl step state') := by
  induction items generalizing state state' with
  | nil => exact same
  | cons item items ih =>
      have rest := @ih (fun state other member => frame state other (List.mem_cons_of_mem _ member))
        (fun state state' other member => congr state state' other (List.mem_cons_of_mem _ member))
      by_cases at_item : own item
      · rw [List.filter_cons_of_pos (by simpa using at_item), List.foldl_cons, List.foldl_cons]
        exact rest (congr state state' item List.mem_cons_self at_item same)
      · rw [List.filter_cons_of_neg (by simpa using at_item), List.foldl_cons]
        exact rest ((frame state item List.mem_cons_self at_item).trans same)

/-- The last item of a kind, if there is one. -/
theorem last_split (kind : Item → Prop) [DecidablePred kind] (items : List Item) :
    (∀ item ∈ items, ¬kind item) ∨
      ∃ front item back, items = front ++ item :: back ∧ kind item ∧ ∀ later ∈ back, ¬kind later := by
  induction items with
  | nil => exact Or.inl (by simp)
  | cons head items ih =>
      rcases ih with without | ⟨front, item, back, rfl, at_item, later⟩
      · by_cases at_head : kind head
        · exact Or.inr ⟨[], head, items, rfl, at_head, without⟩
        · exact Or.inl (by simpa [at_head] using without)
      · exact Or.inr ⟨head :: front, item, back, rfl, at_item, later⟩

/-- One of the things that items carry, with the items around it. -/
theorem flatMap_split {carried : Item → List Value} {items : List Item} {front back : List Value}
    {value : Value} (split : items.flatMap carried = front ++ value :: back) :
    ∃ before item after inside behind, items = before ++ item :: after ∧
      carried item = inside ++ value :: behind ∧ back = behind ++ after.flatMap carried := by
  induction items generalizing front with
  | nil => simp at split
  | cons item items ih =>
      rw [List.flatMap_cons] at split
      rcases List.append_eq_append_iff.mp split with ⟨more, rfl, rest⟩ | ⟨more, here, rest⟩
      · obtain ⟨before, found, after, inside, behind, rfl, carries, rfl⟩ := ih rest
        exact ⟨item :: before, found, after, inside, behind, rfl, carries, rfl⟩
      · cases more with
        | nil =>
            rw [List.append_nil] at here
            obtain ⟨before, found, after, inside, behind, rfl, carries, rfl⟩ :=
              @ih [] rest.symm
            exact ⟨item :: before, found, after, inside, behind, rfl, carries, rfl⟩
        | cons first more =>
            obtain ⟨rfl, rfl⟩ := List.cons.inj rest
            exact ⟨[], item, items, front, more, rfl, here, rfl⟩

end LastWrite

end Upst.Network
