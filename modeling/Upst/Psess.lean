import Mathlib.Data.Int.Init
import Mathlib.Algebra.Order.Ring.Int

/-!
The times of a session record, which `A_RP` and `A_GRE` keep in seconds and microseconds, and the
duration between two of them.
-/

namespace Upst.Psess

set_option autoImplicit false

/-- A `time_t` with its microseconds; not set while the seconds are zero. -/
structure Stamp where
  Time : Nat
  MTime : Nat
  deriving DecidableEq, Repr

def Stamp.zero : Stamp where
  Time := 0
  MTime := 0

/-- The seconds and microseconds as an `unsigned int`. -/
def u32 (value : Int) : Nat := (value % 2 ^ 32).toNat

def GetUpTime (start stop : Stamp) : Nat :=
  if start.Time = 0 ∨ stop.Time = 0 ∨ stop.Time < start.Time ∨
      (start.Time = stop.Time ∧ stop.MTime < start.MTime) then 0
  else if stop.MTime < start.MTime then
    u32 (((stop.Time : Int) - start.Time - 1) * 1000000 + (stop.MTime + 1000000 - start.MTime))
  else u32 (((stop.Time : Int) - start.Time) * 1000000 + (stop.MTime - start.MTime))

end Upst.Psess
