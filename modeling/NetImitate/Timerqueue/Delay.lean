import NetImitate.Timerqueue

/-!
# The delay `resetTimerfd` asks for

* `delayNanos` : the delay handed to `timerfd_settime`;
* `Bounded` : the timer is armed, not before the head is due and at most one second after it;
* `millis`, `itValue_eq` : the conversions, in terms of whole milliseconds from now to the head;
* `delay_bounded_iff` : when the delay is right, for every time and every head.
-/

namespace NetImitate

namespace Timerqueue

/-- The delay handed to `timerfd_settime`, in nanoseconds. -/
def delayNanos (now next : Int) : Int := itValue now next * 1000000000

/-- The delay arms the timer, for a moment when the head is due and at most one second later. -/
def Bounded (now next : Int) : Prop :=
  delayNanos now next ≠ 0 ∧ max now next ≤ now + delayNanos now next ∧
    now + delayNanos now next ≤ max now next + 1000000000

/-- Whole milliseconds from `now` to `next`, truncated toward zero. -/
def millis (now next : Int) : Int := (int64 (next - now)).tdiv TimeStamp.nanosPerMilli

/-- Either the head is not yet due and nearer than `2 ^ 32 - 1000` ms, or it is overdue by less than a millisecond,
by multiples of `2 ^ 32` ms and by less than a second under them. -/
def Timely (now next : Int) : Prop :=
  now ≤ next ∧ next - now < (2 ^ 32 - 1000) * TimeStamp.nanosPerMilli ∨
    next < now ∧ millis now next % 2 ^ 32 < 1000

instance (now next : Int) : Decidable (Timely now next) := by
  unfold Timely
  infer_instance

/-! ## The conversions -/

theorem itValue_eq (now next : Int) :
    (itValue now next : Int) = (millis now next % 2 ^ 32 + 1000) % 2 ^ 32 / 1000 := by
  have hdiff : (TimeStamp.diffTimePoint now next : Int) = millis now next % 2 ^ 32 := uint32_eq_emod _
  have hsum := uint32_eq_emod (TimeStamp.diffTimePoint now next + 1000)
  unfold itValue TimeStamp.kMilliSecondsPerSecond
  rw [← hdiff, ← hsum]
  omega

/-- No delay is longer than an `unsigned int` of milliseconds. -/
theorem itValue_le (now next : Int) : itValue now next ≤ 4294967 := by
  have h := itValue_eq now next
  omega

theorem millis_of_due {now next : Int} (hle : now ≤ next) (hfar : (next - now) / 1000000 < 2 ^ 32) :
    millis now next = (next - now) / 1000000 := by
  unfold millis TimeStamp.nanosPerMilli
  rw [int64_eq_self (by omega) (by omega), Int.tdiv_eq_ediv_of_nonneg (by omega)]

/-! ## A head that is not yet due, and one that is -/

/-- A head in range is reached after at most one second more. -/
theorem bounded_of_due {now next : Int} (hle : now ≤ next)
    (hfar : next - now < (2 ^ 32 - 1000) * TimeStamp.nanosPerMilli) : Bounded now next := by
  have hvalue := itValue_eq now next
  unfold TimeStamp.nanosPerMilli at hfar
  have hmillis := millis_of_due hle (by omega)
  unfold Bounded delayNanos
  rw [max_eq_right hle]
  have hnowrap : (millis now next % 2 ^ 32 + 1000) % 2 ^ 32 = (next - now) / 1000000 + 1000 := by omega
  rw [hnowrap] at hvalue
  omega

/-- No delay reaches a head that is farther away. -/
theorem not_bounded_of_far {now next : Int} (hle : now ≤ next)
    (hfar : (2 ^ 32 - 1000) * TimeStamp.nanosPerMilli ≤ next - now) : ¬ Bounded now next := by
  have hvalue := itValue_eq now next
  have hcap := itValue_le now next
  unfold TimeStamp.nanosPerMilli at hfar
  rintro ⟨hne, hreach, -⟩
  rw [max_eq_right hle] at hreach
  unfold delayNanos at hne hreach
  -- in the last second before `2 ^ 32` ms the delay is zero, and beyond that the longest delay is too short
  by_cases hlast : (next - now) / 1000000 < 2 ^ 32
  · rw [millis_of_due hle hlast] at hvalue
    omega
  · omega

/-- An overdue head is served by a delay of one second and no other. -/
theorem bounded_overdue_iff {now next : Int} (hlt : next < now) :
    Bounded now next ↔ itValue now next = 1 := by
  unfold Bounded delayNanos
  rw [max_eq_left (le_of_lt hlt)]
  omega

theorem itValue_eq_one (now next : Int) : itValue now next = 1 ↔ millis now next % 2 ^ 32 < 1000 := by
  have hvalue := itValue_eq now next
  omega

/-- **Arming arithmetic**: the delay is nonzero, not too short and at most a second too long, exactly when the head
is `Timely`. -/
theorem delay_bounded_iff (now next : Int) : Bounded now next ↔ Timely now next := by
  rcases le_or_gt now next with hle | hlt
  · by_cases hfar : next - now < (2 ^ 32 - 1000) * TimeStamp.nanosPerMilli
    · exact iff_of_true (bounded_of_due hle hfar) (Or.inl ⟨hle, hfar⟩)
    · refine iff_of_false (not_bounded_of_far hle (not_lt.mp hfar)) ?_
      rintro (⟨-, hnear⟩ | ⟨hlt, -⟩)
      · exact hfar hnear
      · exact absurd hle (not_le.mpr hlt)
  · rw [bounded_overdue_iff hlt, itValue_eq_one]
    constructor
    · intro h
      exact Or.inr ⟨hlt, h⟩
    · rintro (⟨hle, -⟩ | ⟨-, h⟩)
      · exact absurd hle (not_le.mpr hlt)
      · exact h

/-- A head 500 ms overdue disarms the timer. -/
theorem delay_overdue : ¬ Bounded 500000000 0 := by
  rw [bounded_overdue_iff (by decide), itValue_eq_one]
  decide +kernel

end Timerqueue

end NetImitate
