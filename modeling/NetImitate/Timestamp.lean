import NetImitate.Library.Narrow
import Mathlib.Tactic

/-!
# `TimeStamp`: time points in nanoseconds

`addTime` and `DiffTimePoint` of `timestamp.cc`, with the conversions of `std::chrono`: a count of milliseconds is a
`long`, it becomes nanoseconds by a 64-bit product, and a difference becomes milliseconds by a truncating division.

* `addTime`, `diffTimePoint`;
* `Fits` : the sum of `addTime` is a time point of 64 bits; `addTime_eq`.
-/

namespace NetImitate

/-- A time point of the system clock, in nanoseconds. -/
abbrev TimeStamp := Int

namespace TimeStamp

def kMilliSecondsPerSecond : Nat := 1000

def nanosPerMilli : Int := 1000000

/-- `addTime`, whose constructor has read `now`. -/
def addTime (now : TimeStamp) (timeToAdd : UInt64) : TimeStamp :=
  int64 (now + int64 (int64 timeToAdd.toNat * nanosPerMilli))

/-- The time `timeToAdd` milliseconds from `now`, in nanoseconds, can be represented. -/
def Fits (now : Int) (timeToAdd : UInt64) : Prop := -2 ^ 63 ≤ now ∧ now + timeToAdd.toNat * nanosPerMilli < 2 ^ 63

instance (now : Int) (timeToAdd : UInt64) : Decidable (Fits now timeToAdd) := by
  unfold Fits
  infer_instance

theorem addTime_eq {now : Int} {timeToAdd : UInt64} (h : Fits now timeToAdd) :
    addTime now timeToAdd = (now + timeToAdd.toNat * nanosPerMilli : Int) := by
  obtain ⟨hlow, hhigh⟩ := h
  unfold nanosPerMilli at hhigh
  unfold addTime nanosPerMilli
  rw [int64_add_int64, int64_add_int64_mul, int64_eq_self (by omega) hhigh]

def diffTimePoint (now next : TimeStamp) : Nat := uint32 ((int64 (next - now)).tdiv nanosPerMilli)

end TimeStamp

end NetImitate
