import Mathlib.Algebra.Group.Int.Defs
import Mathlib.Algebra.Group.Nat.Defs
import Mathlib.Order.Lattice

/-!
Instants in nanoseconds since 1970, and the 64-bit counts in which they are stored.
-/

namespace Aeontra.Library

abbrev Time := Int

abbrev Duration := Int

def second : Duration := 1000000000

def minute : Duration := 60 * second

def hour : Duration := 60 * minute

/-- The zero value of a time: the first instant of year 1. -/
def zeroTime : Time := -62135596800 * second

/-- A count of nanoseconds since 1970 that fits a signed 64-bit integer. -/
@[ext] structure UnixNano where
  nanos : Int
  lower : -2 ^ 63 ≤ nanos
  upper : nanos < 2 ^ 63
  deriving DecidableEq

namespace UnixNano

theorem nanos_injective : Function.Injective nanos := fun _ _ same => UnixNano.ext same

instance : LinearOrder UnixNano := LinearOrder.lift' nanos nanos_injective

theorem le_def {a b : UnixNano} : a ≤ b ↔ a.nanos ≤ b.nanos := Iff.rfl

/-- The count of an instant; outside the range of the type it wraps. -/
def ofTime (t : Time) : UnixNano where
  nanos := Int.bmod t (2 ^ 64)
  lower := by
    have := Int.le_bmod (x := t) (m := 2 ^ 64) (by decide)
    omega
  upper := by
    have := Int.bmod_lt (x := t) (m := 2 ^ 64) (by decide)
    omega

theorem ofTime_nanos {t : Int} (lower : -2 ^ 63 ≤ t) (upper : t < 2 ^ 63) : (ofTime t).nanos = t := by
  change Int.bmod t (2 ^ 64) = t
  apply Int.bmod_eq_of_le <;> omega

def time (n : UnixNano) : Time := n.nanos

end UnixNano

end Aeontra.Library
