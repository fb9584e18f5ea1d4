import Mathlib.Logic.Function.Basic

/-!
A record by its fields, numbers and texts, and what a write to one of them leaves of the others.
-/

namespace Upst.Fields

set_option autoImplicit false

variable {Num Text : Type}

structure Record (Num Text : Type) where
  num : Num → Nat
  text : Text → List UInt8

/-- A field of either sort. -/
inductive Target (Num Text : Type) where
  | num (field : Num)
  | text (field : Text)
  deriving DecidableEq

def Record.read (record : Record Num Text) : Target Num Text → Nat × List UInt8
  | .num field => (record.num field, [])
  | .text field => (0, record.text field)

section Numbers

variable [DecidableEq Num]

def Record.setNum (record : Record Num Text) (field : Num) (value : Nat) : Record Num Text :=
  { record with num := Function.update record.num field value }

@[simp] theorem num_set_num (record : Record Num Text) (field : Num) (value : Nat) (other : Num) :
    (record.setNum field value).num other = if other = field then value else record.num other :=
  Function.update_apply record.num field value other

theorem set_num_frame {field : Num} {target : Target Num Text} (other : Target.num field ≠ target)
    (record : Record Num Text) (value : Nat) :
    (record.setNum field value).read target = record.read target := by
  cases target with
  | num kept =>
      have apart : kept ≠ field := fun same => other (congrArg Target.num same.symm)
      simp [Record.read, apart]
  | text kept => rfl

end Numbers

section Texts

variable [DecidableEq Text]

def Record.setText (record : Record Num Text) (field : Text) (bytes : List UInt8) : Record Num Text :=
  { record with text := Function.update record.text field bytes }

@[simp] theorem text_set_text (record : Record Num Text) (field : Text) (bytes : List UInt8)
    (other : Text) :
    (record.setText field bytes).text other = if other = field then bytes else record.text other :=
  Function.update_apply record.text field bytes other

theorem set_text_frame {field : Text} {target : Target Num Text} (other : Target.text field ≠ target)
    (record : Record Num Text) (bytes : List UInt8) :
    (record.setText field bytes).read target = record.read target := by
  cases target with
  | num kept => rfl
  | text kept =>
      have apart : kept ≠ field := fun same => other (congrArg Target.text same.symm)
      simp [Record.read, apart]

end Texts

end Upst.Fields
