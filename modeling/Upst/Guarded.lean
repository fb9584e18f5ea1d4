import Upst.Network

/-!
Arrays and messages of a known size. A store behind the end of an array, and a read that does not lie
inside of a message, have no result.
-/

namespace Upst.Guarded

open Bytes Network

set_option autoImplicit false

section Stores

variable {α : Type}

def store (array : List α) (place : Nat) (value : α) : Option (List α) :=
  if place < array.length then some (array.set place value) else none

theorem store_next (written : List α) (old value : α) (room : List α) :
    store (written ++ old :: room) written.length value = some (written ++ [value] ++ room) := by
  have fits : written.length < (written ++ old :: room).length := by
    rw [List.length_append, List.length_cons]
    omega
  rw [store, if_pos fits, List.set_append_right _ _ (Nat.le_refl _), Nat.sub_self, List.set_cons_zero,
    List.append_assoc, List.singleton_append]

theorem store_full (written : List α) (value : α) :
    store (written ++ []) written.length value = none := by
  rw [List.append_nil, store, if_neg (Nat.lt_irrefl _)]

end Stores

def memory (message : List UInt8) (place : Nat) : UInt8 := message.getD place 0

theorem stands_between (front bytes back : List UInt8) :
    Stands (memory (front ++ (bytes ++ back))) front.length bytes := by
  apply List.ext_getElem?
  intro index
  by_cases inside : index < bytes.length
  · rw [read_bytes_getElem? _ _ _ inside, memory, List.getD_eq_getElem?_getD,
      List.getElem?_append_right (Nat.le_add_right _ _), Nat.add_sub_cancel_left,
      List.getElem?_append_left inside, List.getElem?_eq_getElem inside]
    rfl
  · have above : bytes.length ≤ index := Nat.le_of_not_lt inside
    rw [List.getElem?_eq_none above, List.getElem?_eq_none ((read_bytes_length _ _ _).symm ▸ above)]

def bytesAt (message : List UInt8) (place size : Nat) : Option (List UInt8) :=
  if place + size ≤ message.length then some (readBytes (memory message) place size) else none

/-- A number in network byte order. -/
def numberAt (message : List UInt8) (place size : Nat) : Option Nat :=
  if place + size ≤ message.length then some (fromBe (readBytes (memory message) place size)) else none

theorem one_byte (message : List UInt8) (place : Nat) :
    fromBe (readBytes (memory message) place 1) = (memory message place).toNat := by
  rw [readBytes, List.range_one, List.map_singleton, fromBe, List.foldl_cons, List.foldl_nil,
    Nat.zero_mul, Nat.zero_add, Nat.add_zero]

section Reads

variable {α : Type} {message : List UInt8} {place size : Nat}

theorem number_inside (inside : place + size ≤ message.length) :
    numberAt message place size = some (fromBe (readBytes (memory message) place size)) :=
  if_pos inside

theorem number_isSome : (numberAt message place size).isSome = true ↔ place + size ≤ message.length := by
  rw [numberAt]
  split
  · next inside => exact iff_of_true rfl inside
  · next outside => exact iff_of_false Bool.false_ne_true outside

theorem bytes_isSome : (bytesAt message place size).isSome = true ↔ place + size ≤ message.length := by
  rw [bytesAt]
  split
  · next inside => exact iff_of_true rfl inside
  · next outside => exact iff_of_false Bool.false_ne_true outside

theorem number_bind (next : Nat → Option α) :
    ((numberAt message place size).bind next) =
      if place + size ≤ message.length then next (fromBe (readBytes (memory message) place size))
      else none := by
  rw [numberAt]
  split
  · rfl
  · rfl

theorem number_bind_isSome (next : Nat → Option α) :
    ((numberAt message place size).bind next).isSome = true ↔
      place + size ≤ message.length ∧
        (next (fromBe (readBytes (memory message) place size))).isSome = true := by
  rw [number_bind]
  split
  · next inside => exact (and_iff_right inside).symm
  · next outside => exact iff_of_false Bool.false_ne_true (fun both => outside both.1)

theorem bytes_bind_isSome (next : List UInt8 → Option α) :
    ((bytesAt message place size).bind next).isSome = true ↔
      place + size ≤ message.length ∧ (next (readBytes (memory message) place size)).isSome = true := by
  rw [bytesAt]
  split
  · next inside => exact (and_iff_right inside).symm
  · next outside => exact iff_of_false Bool.false_ne_true (fun both => outside both.1)

end Reads

section Blocks

/-- An array of a fixed number of items. -/
def Block (α : Type) (size : Nat) := { items : List α // items.length = size }

variable {α β : Type} {size : Nat}

def Block.copy (block : Block α size) (place : Nat) (items : List α) : Option (Block α size) :=
  if fits : place + items.length ≤ size then
    some ⟨block.val.take place ++ (items ++ block.val.drop (place + items.length)), by
      rw [List.length_append, List.length_append, List.length_take, List.length_drop, block.property]
      omega⟩
  else none

theorem copy_fits {block : Block α size} {place : Nat} {items : List α}
    (fits : place + items.length ≤ size) : ∃ copied, block.copy place items = some copied ∧
      copied.val = block.val.take place ++ (items ++ block.val.drop (place + items.length)) :=
  ⟨_, dif_pos fits, rfl⟩

theorem copy_bind_isSome {fits : Prop} (block : Block α size) (place : Nat) (items : List α)
    {next : Block α size → Option β} (each : ∀ copied, (next copied).isSome = true ↔ fits) :
    ((block.copy place items).bind next).isSome = true ↔ place + items.length ≤ size ∧ fits := by
  by_cases inside : place + items.length ≤ size
  · obtain ⟨copied, found, -⟩ := @copy_fits α size block place items inside
    rw [found, Option.bind_some, each, and_iff_right inside]
  · rw [Block.copy, dif_neg inside]
    exact iff_of_false Bool.false_ne_true fun both => inside both.1

theorem copy_some_isSome (block : Block α size) (place : Nat) (items : List α)
    (result : Block α size → β) :
    ((block.copy place items).bind fun copied => some (result copied)).isSome = true ↔
      place + items.length ≤ size :=
  (copy_bind_isSome block place items fun _ => iff_true_intro rfl).trans (and_iff_left trivial)

end Blocks

section Steps

variable {State Item : Type}

/-- What holds of the results of what comes next holds of the results of both. -/
theorem bind_results {α β : Type} {holds : β → Prop} {first : Option α} {next : α → Option β}
    (each : ∀ value, ∀ result ∈ next value, holds result) : ∀ result ∈ first.bind next, holds result := by
  intro result member
  cases first with
  | none => cases member
  | some value => exact each value result member

/-- Steps of which each has a result for its own reasons only. -/
theorem foldlM_isSome {step : State → Item → Option State} {fits : Item → Prop}
    (each : ∀ state item, (step state item).isSome = true ↔ fits item) (items : List Item)
    (state : State) : (items.foldlM step state).isSome = true ↔ ∀ item ∈ items, fits item := by
  induction items generalizing state with
  | nil => exact iff_of_true rfl (fun _ member => absurd member List.not_mem_nil)
  | cons item items ih =>
      rw [List.foldlM_cons, List.forall_mem_cons, ← each state item]
      cases step state item with
      | none => exact iff_of_false Bool.false_ne_true (fun both => Bool.false_ne_true both.1)
      | some state => exact (ih state).trans (and_iff_right rfl).symm

end Steps

end Upst.Guarded
