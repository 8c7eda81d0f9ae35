import NetImitate.Library.Machine
import NetImitate.Timerqueue

/-!
# Runs of a timer queue

`TimerSys` is a timer queue on its loop's thread. A run is read against a sequence `T` of clock readings, of the
system clock and of the kernel timer's alike: a step takes the next ones, and how far apart they lie is how long
handlers and callbacks take. Timers are added from handlers and from timer callbacks.

* `TimerSys.step`, `machine T`;
* `StampsFit` : the sum the step computes is a time point of 64 bits;
* `Step`, `step_cases` : everything a step can do.
-/

namespace NetImitate

/-- Where the loop's thread is. -/
inductive TimerPc where
  /-- At `epoll_wait`. -/
  | wait
  /-- In the handlers and tasks of an iteration, `timerfd` telling that the kernel timer was reported and is still to
  be handled. -/
  | dispatch (timerfd : Bool)
  /-- In `handleExpireTimer`, between two callbacks. -/
  | running (ran todo : List Entry)
  /-- In the callback of the last timer of `ran`. -/
  | callback (ran todo : List Entry)
  | resetting (todo : List Entry)
  /-- The assertion of `handleTimerfd` has failed. -/
  | aborted
  /-- A deleted timer was used. -/
  | fault
deriving DecidableEq

/-- The expired batch: the timers that have been run and not reset, and the timers still to run. -/
def TimerPc.ran : TimerPc → List Entry
  | .running ran _ | .callback ran _ => ran
  | .resetting todo => todo
  | _ => []

def TimerPc.todo : TimerPc → List Entry
  | .running _ todo | .callback _ todo => todo
  | _ => []

inductive TimerLog where
  /-- The callback of allocation `serial`, due at `expiration`, starts at `start`. -/
  | run (serial : Nat) (expiration start : TimeStamp)
  | delete (serial : Nat)
deriving DecidableEq

def TimerLog.serial : TimerLog → Nat
  | .run serial _ _ => serial
  | .delete serial => serial

structure TimerSys where
  queue : Timerqueue
  pc : TimerPc
  /-- The clock readings made so far. -/
  tick : Nat
  /-- The timers as they were constructed, by the number of their allocation. -/
  allocated : List Timer
  /-- The deleted allocations. -/
  deleted : List Nat
  log : List TimerLog

inductive TimerEv where
  | poll (timerfd : Bool)
  | addTimer (timer : Ptr) (timeDelay interval : UInt64)
  | handleTimerfd
  | runTimer
  | runReturn
  | reset
  | resetOne
  | resetEnd
  | iterationEnd

namespace TimerSys

/-- Before `loop()`: timers can be added already. -/
def new : TimerSys where
  queue := Timerqueue.new
  pc := .dispatch false
  tick := 0
  allocated := []
  deleted := []
  log := []

/-- A step has made its readings. -/
def next (s : TimerSys) (queue : Timerqueue) (pc : TimerPc) : TimerSys :=
  { s with queue := queue, pc := pc, tick := s.tick + 3 }

variable (T : Nat → Int)

/-- `RunAfter` and `RunInterval`: `new` does not return the address of a live timer. -/
def addTimer (s : TimerSys) (timer : Ptr) (timeDelay interval : UInt64) : Option TimerSys :=
  if s.queue.heap timer = none ∧ timer < uintptrMax then
    let timeStamp := TimeStamp.addTime (T s.tick) timeDelay
    let queue := s.queue.addTimer s.allocated.length timer timeStamp interval (T (s.tick + 1)) (T (s.tick + 2))
    some { s.next queue s.pc with allocated := s.allocated ++ [Timer.new timeStamp interval] }
  else none

def handleTimerfd (s : TimerSys) : TimerSys :=
  if s.queue.timerfd.readable (T s.tick) then
    let (batch, queue) := { s.queue with timerfd := none }.expired (T (s.tick + 1))
    s.next queue (.running [] batch)
  else s.next s.queue .aborted

def runTimer (s : TimerSys) (ran : List Entry) (val : Entry) (todo : List Entry) : TimerSys :=
  match s.queue.heap val.second with
  | none => s.next s.queue .fault
  | some c =>
    { s.next s.queue (.callback (ran ++ [val]) todo) with
      log := s.log ++ [.run c.serial c.timer.expiration (T s.tick)] }

def resetOne (s : TimerSys) (val : Entry) (todo : List Entry) : TimerSys :=
  match s.queue.heap val.second with
  | none => s.next s.queue .fault
  | some c =>
    let queue := s.queue.resetOne val c (T s.tick) (T (s.tick + 1)) (T (s.tick + 2))
    if c.timer.isRepeat then s.next queue (.resetting todo)
    else { s.next queue (.resetting todo) with deleted := s.deleted ++ [c.serial], log := s.log ++ [.delete c.serial] }

def step (s : TimerSys) : TimerEv → Option TimerSys
  | .poll timerfd => match s.pc with
    | .wait =>
      if timerfd = true → s.queue.timerfd.readable (T s.tick) = true then some (s.next s.queue (.dispatch timerfd))
      else none
    | _ => none
  | .addTimer timer timeDelay interval => match s.pc with
    | .dispatch _ | .callback _ _ => s.addTimer T timer timeDelay interval
    | _ => none
  | .handleTimerfd => match s.pc with
    | .dispatch true => some (s.handleTimerfd T)
    | _ => none
  | .runTimer => match s.pc with
    | .running ran (val :: todo) => some (s.runTimer T ran val todo)
    | _ => none
  | .runReturn => match s.pc with
    | .callback ran todo => some (s.next s.queue (.running ran todo))
    | _ => none
  | .reset => match s.pc with
    | .running ran [] => some (s.next s.queue (.resetting ran))
    | _ => none
  | .resetOne => match s.pc with
    | .resetting (val :: todo) => some (s.resetOne T val todo)
    | _ => none
  | .resetEnd => match s.pc with
    | .resetting [] =>
      some (s.next (s.queue.rearm (T s.tick) (T (s.tick + 1)) (T (s.tick + 2))) (.dispatch false))
    | _ => none
  | .iterationEnd => match s.pc with
    | .dispatch false => some (s.next s.queue .wait)
    | _ => none

def machine : Machine TimerSys TimerEv := ⟨step T⟩

/-- The timer `resetOne` is about to reset. -/
def current (s : TimerSys) : Option Timer :=
  match s.pc with
  | .resetting (val :: _) => (s.queue.heap val.second).map Cell.timer
  | _ => none

/-- The time stamp the step computes can be represented. -/
def StampsFit (s : TimerSys) : TimerEv → Prop
  | .addTimer _ timeDelay _ => TimeStamp.Fits (T s.tick) timeDelay
  | .resetOne => ∀ t ∈ s.current, TimeStamp.Fits (T s.tick) t.interval
  | _ => True

instance (s : TimerSys) (e : TimerEv) : Decidable (StampsFit T s e) := by
  unfold StampsFit
  split <;> infer_instance

/-! ## Everything a step can do -/

/-- A place from which timers are added. -/
def Adds (pc : TimerPc) : Prop := (∃ timerfd, pc = .dispatch timerfd) ∨ ∃ ran todo, pc = .callback ran todo

inductive Step (s : TimerSys) : TimerEv → TimerSys → Prop
  | poll {timerfd : Bool} (hpc : s.pc = .wait)
      (hready : timerfd = true → s.queue.timerfd.readable (T s.tick) = true) :
      Step s (.poll timerfd) (s.next s.queue (.dispatch timerfd))
  | addTimer {timer : Ptr} {timeDelay interval : UInt64} (hpc : Adds s.pc) (hfresh : s.queue.heap timer = none)
      (haddr : timer < uintptrMax) : Step s (.addTimer timer timeDelay interval)
        { s.next (s.queue.addTimer s.allocated.length timer (TimeStamp.addTime (T s.tick) timeDelay) interval
            (T (s.tick + 1)) (T (s.tick + 2))) s.pc with
          allocated := s.allocated ++ [Timer.new (TimeStamp.addTime (T s.tick) timeDelay) interval] }
  | expire (hpc : s.pc = .dispatch true) (hready : s.queue.timerfd.readable (T s.tick) = true) :
      Step s .handleTimerfd (s.next ({ s.queue with timerfd := none }.expired (T (s.tick + 1))).2
        (.running [] ({ s.queue with timerfd := none }.expired (T (s.tick + 1))).1))
  | abort (hpc : s.pc = .dispatch true) (hready : s.queue.timerfd.readable (T s.tick) = false) :
      Step s .handleTimerfd (s.next s.queue .aborted)
  | runTimer {ran todo : List Entry} {val : Entry} {c : Cell} (hpc : s.pc = .running ran (val :: todo))
      (hcell : s.queue.heap val.second = some c) :
      Step s .runTimer { s.next s.queue (.callback (ran ++ [val]) todo) with
        log := s.log ++ [.run c.serial c.timer.expiration (T s.tick)] }
  | runFault {ran todo : List Entry} {val : Entry} (hpc : s.pc = .running ran (val :: todo))
      (hcell : s.queue.heap val.second = none) : Step s .runTimer (s.next s.queue .fault)
  | runReturn {ran todo : List Entry} (hpc : s.pc = .callback ran todo) :
      Step s .runReturn (s.next s.queue (.running ran todo))
  | reset {ran : List Entry} (hpc : s.pc = .running ran []) : Step s .reset (s.next s.queue (.resetting ran))
  | restart {todo : List Entry} {val : Entry} {c : Cell} (hpc : s.pc = .resetting (val :: todo))
      (hcell : s.queue.heap val.second = some c) (hrepeat : c.timer.isRepeat = true) :
      Step s .resetOne (s.next (s.queue.resetOne val c (T s.tick) (T (s.tick + 1)) (T (s.tick + 2)))
        (.resetting todo))
  | delete {todo : List Entry} {val : Entry} {c : Cell} (hpc : s.pc = .resetting (val :: todo))
      (hcell : s.queue.heap val.second = some c) (hrepeat : c.timer.isRepeat = false) :
      Step s .resetOne { s.next (s.queue.resetOne val c (T s.tick) (T (s.tick + 1)) (T (s.tick + 2)))
        (.resetting todo) with deleted := s.deleted ++ [c.serial], log := s.log ++ [.delete c.serial] }
  | resetFault {todo : List Entry} {val : Entry} (hpc : s.pc = .resetting (val :: todo))
      (hcell : s.queue.heap val.second = none) : Step s .resetOne (s.next s.queue .fault)
  | resetEnd (hpc : s.pc = .resetting []) :
      Step s .resetEnd (s.next (s.queue.rearm (T s.tick) (T (s.tick + 1)) (T (s.tick + 2))) (.dispatch false))
  | iterationEnd (hpc : s.pc = .dispatch false) : Step s .iterationEnd (s.next s.queue .wait)

variable {T}

theorem addTimer_some {s s' : TimerSys} {timer : Ptr} {timeDelay interval : UInt64} (hpc : Adds s.pc)
    (h : s.addTimer T timer timeDelay interval = some s') : Step T s (.addTimer timer timeDelay interval) s' := by
  unfold addTimer at h
  split at h
  · rename_i hfresh
    cases h
    exact .addTimer hpc hfresh.1 hfresh.2
  · cases h

theorem step_cases {s s' : TimerSys} {e : TimerEv} (h : (machine T).step s e = some s') : Step T s e s' := by
  cases e <;> simp only [machine, step] at h
  case addTimer timer timeDelay interval =>
    split at h
    · rename_i timerfd hpc
      exact addTimer_some (Or.inl ⟨timerfd, hpc⟩) h
    · rename_i ran todo hpc
      exact addTimer_some (Or.inr ⟨ran, todo, hpc⟩) h
    · cases h
  case poll timerfd =>
    split at h
    · rename_i hpc
      split at h
      · rename_i hready
        cases h
        exact .poll hpc hready
      · cases h
    · cases h
  case handleTimerfd =>
    split at h
    · rename_i hpc
      cases h
      unfold handleTimerfd
      split
      · rename_i hready
        exact .expire hpc hready
      · rename_i hready
        exact .abort hpc (Bool.eq_false_iff.mpr hready)
    · cases h
  case runTimer =>
    split at h
    · rename_i ran val todo hpc
      cases h
      unfold runTimer
      split
      · rename_i hcell
        exact .runFault hpc hcell
      · rename_i c hcell
        exact .runTimer hpc hcell
    · cases h
  case resetOne =>
    split at h
    · rename_i val todo hpc
      cases h
      unfold resetOne
      split
      · rename_i hcell
        exact .resetFault hpc hcell
      · rename_i c hcell
        by_cases hrepeat : c.timer.isRepeat = true
        · simp only [if_pos hrepeat]
          exact .restart hpc hcell hrepeat
        · simp only [if_neg hrepeat]
          exact .delete hpc hcell (Bool.eq_false_iff.mpr hrepeat)
    · cases h
  all_goals
    split at h
    · rename_i hpc
      cases h
      constructor
      exact hpc
    · cases h

end TimerSys

end NetImitate
