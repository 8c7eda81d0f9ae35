import Mathlib.Tactic

/-!
# `Eventloop`: the pending list, the wakeup descriptor and the two thread tests

The functions of `eventloop.cc`, each with the thread `me` that calls it. `exit(1)` is the error of `Except Exit`.

* `assertInLoop` ends the process on a foreign thread, `isInloop` only answers;
* `queInLoop`, `runInLoop` and the calls built on them (`call`);
* `queInLoop_self`, `call_self` : on the loop's own thread; `queInLoop_other`, `call_other` : on any other.
-/

namespace NetImitate

/-- A thread id. -/
abbrev Tid := Nat

/-- The process has called `exit` with this code. -/
structure Exit where
  code : Int
deriving DecidableEq

/-- The largest value an `eventfd` counter can hold. -/
def eventfdMax : Nat := 2 ^ 64 - 2

structure Eventloop (Task : Type) where
  tid : Tid
  isQuit : Bool
  isLoop : Bool
  callingPendingFunc : Bool
  pendingList : List Task
  /-- The counter behind `wakeupFd`. -/
  wakeupFd : Nat

/-- What became of a submitted task: run at once by the caller, or left in `pendingList`. -/
structure Submitted (Task : Type) where
  loop : Eventloop Task
  ranNow : List Task

namespace Eventloop
variable {Task : Type}

def new (tid : Tid) : Eventloop Task where
  tid := tid
  isQuit := false
  isLoop := true
  callingPendingFunc := false
  pendingList := []
  wakeupFd := 0

def assertInLoop (l : Eventloop Task) (me : Tid) : Except Exit Bool := if l.tid = me then .ok true else .error ⟨1⟩

def isInloop (l : Eventloop Task) (me : Tid) : Bool := l.tid == me

/-- The nonblocking write of a one: it fails when the counter would exceed its largest value. -/
def wakeUp (l : Eventloop Task) : Eventloop Task :=
  if l.wakeupFd + 1 ≤ eventfdMax then { l with wakeupFd := l.wakeupFd + 1 } else l

/-- The read of the counter resets it. -/
def handleRead (l : Eventloop Task) : Eventloop Task := { l with wakeupFd := 0 }

def queInLoop (l : Eventloop Task) (me : Tid) (callBack : Task) : Except Exit (Eventloop Task) := do
  let l := { l with pendingList := l.pendingList ++ [callBack] }
  let inLoop ← l.assertInLoop me
  if !inLoop || l.callingPendingFunc then return l.wakeUp
  return l

def runInLoop (l : Eventloop Task) (me : Tid) (callBack : Task) : Except Exit (Submitted Task) := do
  let inLoop ← l.assertInLoop me
  if inLoop then return ⟨l, [callBack]⟩
  let l ← l.queInLoop me callBack
  return ⟨l, []⟩

/-- `if (IsInloop()) task(); else queInLoop(task);`, the body of `Send` and of `Shutdown`. -/
def runOrQueue (l : Eventloop Task) (me : Tid) (task : Task) : Except Exit (Submitted Task) := do
  if l.isInloop me then return ⟨l, [task]⟩
  let l ← l.queInLoop me task
  return ⟨l, []⟩

/-- The first step of `quit`: the flags. -/
def clearIsLoop (l : Eventloop Task) : Eventloop Task := { l with isLoop := false, isQuit := true }

def quit (l : Eventloop Task) : Eventloop Task := l.clearIsLoop.wakeUp

/-- The swap in `DoPendingFunc`: the list taken and the loop left with an empty one. -/
def swapPending (l : Eventloop Task) : List Task × Eventloop Task := (l.pendingList, { l with pendingList := [] })

/-- `DoPendingFunc` on one thread, `run` saying what a task does to the loop. -/
def doPendingFunc (run : Task → Eventloop Task → Eventloop Task) (l : Eventloop Task) : Eventloop Task :=
  let (funcList, l) := l.swapPending
  let l := { l with callingPendingFunc := true }
  let l := funcList.foldl (fun l idx => run idx l) l
  { l with callingPendingFunc := false }

/-! ## The submitting calls -/

/-- The tasks the library itself makes, and the user's functors. -/
inductive LoopTask (Functor : Type) where
  | functor (callBack : Functor)
  | addTimerInLoop (callBack : Functor) (timeDelay interval : UInt64)
  | sendInLoop (conn : Nat) (str : List UInt8)
  | shutDownInloop (conn : Nat)

inductive Call (Functor : Type) where
  | runInLoop (callBack : Functor)
  | queInLoop (callBack : Functor)
  | runAfter (callBack : Functor) (timeDelay : UInt64)
  | runInterval (callBack : Functor) (timeDelay interval : UInt64)
  | send (conn : Nat) (str : List UInt8)
  | shutdown (conn : Nat)

variable {Functor : Type}

/-- The task a call submits. -/
def Call.task : Call Functor → LoopTask Functor
  | .runInLoop callBack => .functor callBack
  | .queInLoop callBack => .functor callBack
  | .runAfter callBack timeDelay => .addTimerInLoop callBack timeDelay 0
  | .runInterval callBack timeDelay interval => .addTimerInLoop callBack timeDelay interval
  | .send conn str => .sendInLoop conn str
  | .shutdown conn => .shutDownInloop conn

/-- The calls: `RunAfter` and `RunInterval` go through `Timerqueue::addTimer` to `RunInLoop`. -/
def call (l : Eventloop (LoopTask Functor)) (me : Tid) (c : Call Functor) :
    Except Exit (Submitted (LoopTask Functor)) :=
  match c with
  | .runInLoop _ | .runAfter _ _ | .runInterval _ _ _ => l.runInLoop me c.task
  | .queInLoop _ => (l.queInLoop me c.task).map fun l => ⟨l, []⟩
  | .send _ _ | .shutdown _ => l.runOrQueue me c.task

/-! ## The wakeup descriptor -/

@[simp] theorem wakeUp_tid (l : Eventloop Task) : l.wakeUp.tid = l.tid := by
  unfold wakeUp
  split <;> rfl

@[simp] theorem wakeUp_isLoop (l : Eventloop Task) : l.wakeUp.isLoop = l.isLoop := by
  unfold wakeUp
  split <;> rfl

@[simp] theorem wakeUp_callingPendingFunc (l : Eventloop Task) :
    l.wakeUp.callingPendingFunc = l.callingPendingFunc := by
  unfold wakeUp
  split <;> rfl

@[simp] theorem wakeUp_pendingList (l : Eventloop Task) : l.wakeUp.pendingList = l.pendingList := by
  unfold wakeUp
  split <;> rfl

theorem wakeUp_pos (l : Eventloop Task) : 0 < l.wakeUp.wakeupFd := by
  unfold wakeUp
  split
  · exact Nat.succ_pos _
  · rename_i hfull
    have hmax : 0 < eventfdMax := by decide
    omega

/-! ## On the loop's own thread, and on any other -/

@[simp] theorem assertInLoop_self (l : Eventloop Task) : l.assertInLoop l.tid = .ok true := if_pos rfl

theorem assertInLoop_other {l : Eventloop Task} {me : Tid} (h : me ≠ l.tid) : l.assertInLoop me = .error ⟨1⟩ :=
  if_neg (Ne.symm h)

/-- A task queued by the loop's own thread wakes the loop exactly while pending tasks run. -/
theorem queInLoop_self (l : Eventloop Task) (f : Task) : l.queInLoop l.tid f =
    .ok (if l.callingPendingFunc then { l with pendingList := l.pendingList ++ [f] }.wakeUp
      else { l with pendingList := l.pendingList ++ [f] }) := by
  have hassert : assertInLoop { l with pendingList := l.pendingList ++ [f] } l.tid = .ok true := if_pos rfl
  simp only [queInLoop, hassert, bind, Except.bind]
  cases l.callingPendingFunc <;> rfl

theorem queInLoop_other {l : Eventloop Task} {me : Tid} (h : me ≠ l.tid) (f : Task) :
    l.queInLoop me f = .error ⟨1⟩ := by
  have hassert : assertInLoop { l with pendingList := l.pendingList ++ [f] } me = .error ⟨1⟩ := if_neg (Ne.symm h)
  simp only [queInLoop, hassert, bind, Except.bind]

theorem runInLoop_self (l : Eventloop Task) (f : Task) : l.runInLoop l.tid f = .ok ⟨l, [f]⟩ := by
  simp [runInLoop, bind, Except.bind, pure, Except.pure]

theorem runInLoop_other {l : Eventloop Task} {me : Tid} (h : me ≠ l.tid) (f : Task) :
    l.runInLoop me f = .error ⟨1⟩ := by
  simp only [runInLoop, assertInLoop_other h, bind, Except.bind]

theorem runOrQueue_self (l : Eventloop Task) (f : Task) : l.runOrQueue l.tid f = .ok ⟨l, [f]⟩ := by
  simp [runOrQueue, isInloop, pure, Except.pure]

theorem runOrQueue_other {l : Eventloop Task} {me : Tid} (h : me ≠ l.tid) (f : Task) :
    l.runOrQueue me f = .error ⟨1⟩ := by
  have hin : l.isInloop me = false := beq_eq_false_iff_ne.mpr (Ne.symm h)
  simp only [runOrQueue, hin, Bool.false_eq_true, if_false, queInLoop_other h, bind, Except.bind]

/-- **A foreign call ends the process**, whichever of the calls it is. -/
theorem call_other {l : Eventloop (LoopTask Functor)} {me : Tid} (h : me ≠ l.tid) (c : Call Functor) :
    l.call me c = .error ⟨1⟩ := by
  cases c with
  | runInLoop callBack => exact runInLoop_other h _
  | queInLoop callBack => simp only [call, queInLoop_other h, Except.map]
  | runAfter callBack timeDelay => exact runInLoop_other h _
  | runInterval callBack timeDelay interval => exact runInLoop_other h _
  | send conn str => exact runOrQueue_other h _
  | shutdown conn => exact runOrQueue_other h _

/-- On the loop's own thread a call succeeds and runs nothing but its own task. -/
theorem call_self (l : Eventloop (LoopTask Functor)) (c : Call Functor) :
    ∃ r, l.call l.tid c = .ok r ∧ r.loop.tid = l.tid ∧ ∀ t ∈ r.ranNow, t = c.task := by
  cases c with
  | runInLoop callBack => exact ⟨_, runInLoop_self l _, rfl, by simp⟩
  | queInLoop callBack =>
    refine ⟨_, by simp only [call, queInLoop_self, Except.map]; rfl, ?_, by simp⟩
    by_cases hcalling : l.callingPendingFunc = true
    · simp only [if_pos hcalling, wakeUp_tid]
    · simp only [if_neg hcalling]
  | runAfter callBack timeDelay => exact ⟨_, runInLoop_self l _, rfl, by simp⟩
  | runInterval callBack timeDelay interval => exact ⟨_, runInLoop_self l _, rfl, by simp⟩
  | send conn str => exact ⟨_, runOrQueue_self l _, rfl, by simp⟩
  | shutdown conn => exact ⟨_, runOrQueue_self l _, rfl, by simp⟩

end Eventloop

end NetImitate
