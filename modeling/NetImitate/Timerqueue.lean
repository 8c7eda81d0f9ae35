import NetImitate.Library.OrdSet
import NetImitate.Timestamp

/-!
# `Timerqueue`: the ordered set of timers and its kernel timer

The functions of `timerqueue.cc` with the clock readings they make as arguments. A `Timer` lives at an address of
`heap`, where it keeps the number of its allocation.

* `insert`, `resetTimerfd`, `addTimer`, `expired`, `resetOne`, `rearm`;
* `Timerfd` : the deadline of the one-shot kernel timer;
* `insert_timerList`, `insert_heap` : what an insertion does to the set, and that it leaves the heap alone;
* `Stalls`, `itValue_eq_zero` : when `resetTimerfd` asks for a delay of zero seconds.
-/

namespace NetImitate

/-- An address. -/
abbrev Ptr := Nat

def uintptrMax : Ptr := 2 ^ 64 - 1

structure Timer where
  expiration : TimeStamp
  interval : UInt64
  isRepeat : Bool

namespace Timer

def new (expire : TimeStamp) (interval : UInt64) : Timer := ⟨expire, interval, decide (interval > 0)⟩

/-- `restart`, whose `addTime` reads `now`. -/
def restart (t : Timer) (now : TimeStamp) : Timer := { t with expiration := TimeStamp.addTime now t.interval }

end Timer

/-- `std::pair<TimeStamp, Timer*>`, ordered by time and then by address. -/
structure Entry where
  first : TimeStamp
  second : Ptr
deriving DecidableEq

namespace Entry

def key (e : Entry) : Int ×ₗ Nat := toLex (e.first, e.second)

theorem key_injective : Function.Injective key := by
  intro a b h
  have heq := Prod.ext_iff.mp (toLex.injective h)
  cases a
  cases b
  simp only [mk.injEq]
  exact heq

instance : LinearOrder Entry := LinearOrder.lift' key key_injective

theorem lt_iff {a b : Entry} : a < b ↔ a.first < b.first ∨ a.first = b.first ∧ a.second < b.second :=
  Prod.Lex.toLex_lt_toLex

end Entry

/-! ## The kernel timer -/

/-- The deadline of a one-shot kernel timer, `none` when it is disarmed or its expiration has been read. -/
abbrev Timerfd := Option Int

namespace Timerfd

/-- Setting the timer at `at`: a delay of zero disarms it, any delay drops an unread expiration. -/
def settime (clock : Int) (seconds : Nat) : Timerfd :=
  if seconds = 0 then none else some (clock + seconds * 1000000000)

/-- Expired and unread, so that a read succeeds. -/
def readable (fd : Timerfd) (clock : Int) : Bool :=
  match fd with
  | none => false
  | some deadline => decide (deadline ≤ clock)

/-- `TimerfdGettime`: no time remains. -/
def gettime (fd : Timerfd) (clock : Int) : Bool :=
  match fd with
  | none => true
  | some deadline => decide (deadline ≤ clock)

end Timerfd

/-- A timer in memory with the number of its allocation. -/
structure Cell where
  serial : Nat
  timer : Timer

structure Timerqueue where
  heap : Ptr → Option Cell
  timerList : OrdSet Entry
  timerfd : Timerfd
  /-- The calls of `resetTimerfd`, the last one first: the time it read and the head it found. -/
  resets : List (TimeStamp × TimeStamp)

namespace Timerqueue

def new : Timerqueue := ⟨fun _ => none, OrdSet.empty, none, []⟩

/-- The seconds `resetTimerfd` asks for. The sum is computed in `double` and converted to `unsigned int`. -/
def itValue (now next : TimeStamp) : Nat :=
  uint32 (TimeStamp.diffTimePoint now next + 1000) / TimeStamp.kMilliSecondsPerSecond

/-- `resetTimerfd` reads `now` and sets the timer at `clock`. -/
def resetTimerfd (q : Timerqueue) (now clock : Int) : Timerqueue :=
  match q.timerList.begin? with
  | none => q
  | some next =>
    { q with timerfd := Timerfd.settime clock (itValue now next.first), resets := (now, next.first) :: q.resets }

/-- `insert`: the kernel timer is set only when the new timer has come first. -/
def insert (q : Timerqueue) (timeStamp : TimeStamp) (timer : Ptr) (now clock : Int) : Timerqueue :=
  let q := { q with timerList := q.timerList.emplace ⟨timeStamp, timer⟩ }
  if q.timerList.begin?.map Entry.second = some timer then q.resetTimerfd now clock else q

/-- `addTimer` on the loop's thread, `timer` being what `new` returns: `RunInLoop` runs `addTimerInLoop` at once. -/
def addTimer (q : Timerqueue) (serial : Nat) (timer : Ptr) (timeStamp : TimeStamp) (interval : UInt64)
    (now clock : Int) : Timerqueue :=
  let q := { q with heap := Function.update q.heap timer (some ⟨serial, Timer.new timeStamp interval⟩) }
  q.insert timeStamp timer now clock

/-- The range of `handleTimerfd` up to the sentry of time `now`, copied and erased. -/
def expired (q : Timerqueue) (now : TimeStamp) : List Entry × Timerqueue :=
  let sentry : Entry := ⟨now, uintptrMax⟩
  (q.timerList.below sentry, { q with timerList := q.timerList.lowerBound sentry })

/-- One entry of `reset`, whose timer is in `c`. -/
def resetOne (q : Timerqueue) (val : Entry) (c : Cell) (restartAt now clock : Int) : Timerqueue :=
  if c.timer.isRepeat then
    let timer := c.timer.restart restartAt
    let q := { q with heap := Function.update q.heap val.second (some { c with timer := timer }) }
    q.insert timer.expiration val.second now clock
  else { q with heap := Function.update q.heap val.second none }

/-- The end of `reset`, which looks at the kernel timer at `gettimeAt`. -/
def rearm (q : Timerqueue) (gettimeAt now clock : Int) : Timerqueue :=
  if q.timerList.toList ≠ [] ∧ q.timerfd.gettime gettimeAt then q.resetTimerfd now clock else q

/-! ## What an operation leaves -/

@[simp] theorem resetTimerfd_heap (q : Timerqueue) (now clock : Int) : (q.resetTimerfd now clock).heap = q.heap := by
  unfold resetTimerfd
  split <;> rfl

@[simp] theorem resetTimerfd_timerList (q : Timerqueue) (now clock : Int) :
    (q.resetTimerfd now clock).timerList = q.timerList := by
  unfold resetTimerfd
  split <;> rfl

@[simp] theorem insert_heap (q : Timerqueue) (timeStamp : TimeStamp) (timer : Ptr) (now clock : Int) :
    (q.insert timeStamp timer now clock).heap = q.heap := by
  simp only [insert]
  split
  · rw [resetTimerfd_heap]
  · rfl

@[simp] theorem insert_timerList (q : Timerqueue) (timeStamp : TimeStamp) (timer : Ptr) (now clock : Int) :
    (q.insert timeStamp timer now clock).timerList = q.timerList.emplace ⟨timeStamp, timer⟩ := by
  simp only [insert]
  split
  · rw [resetTimerfd_timerList]
  · rfl

@[simp] theorem rearm_heap (q : Timerqueue) (gettimeAt now clock : Int) :
    (q.rearm gettimeAt now clock).heap = q.heap := by
  unfold rearm
  split
  · rw [resetTimerfd_heap]
  · rfl

@[simp] theorem rearm_timerList (q : Timerqueue) (gettimeAt now clock : Int) :
    (q.rearm gettimeAt now clock).timerList = q.timerList := by
  unfold rearm
  split
  · rw [resetTimerfd_timerList]
  · rfl

/-! ## When the kernel timer is disarmed by its own setting -/

/-- The head is between 1 ms and 1000 ms overdue, up to multiples of `2 ^ 32` ms. -/
def Stalls (now next : TimeStamp) : Prop :=
  2 ^ 32 - 1000 ≤ (int64 (next - now)).tdiv TimeStamp.nanosPerMilli % 2 ^ 32

instance (now next : TimeStamp) : Decidable (Stalls now next) := by
  unfold Stalls
  infer_instance

theorem itValue_eq_zero (now next : TimeStamp) : itValue now next = 0 ↔ Stalls now next := by
  have hdiff : (TimeStamp.diffTimePoint now next : Int) =
      (int64 (next - now)).tdiv TimeStamp.nanosPerMilli % 2 ^ 32 := uint32_eq_emod _
  have hsum := uint32_eq_emod (TimeStamp.diffTimePoint now next + 1000)
  unfold itValue Stalls TimeStamp.kMilliSecondsPerSecond
  rw [← hdiff]
  omega

end Timerqueue

end NetImitate
