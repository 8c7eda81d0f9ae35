import NetImitate.Eventloop
import NetImitate.Library.Machine

/-!
# Runs of one loop

`Sys` is a loop with the place its thread has come to in `loop()` and `DoPendingFunc`, and with the `quit()` calls of
any thread that are between their two steps. The loop's thread queues tasks from event handlers and from running
tasks; the history fields record which tasks were enqueued and started, and in which call of `DoPendingFunc`.

* `Sys.step`, `machine` : one step of the loop's thread or of a `quit()`;
* `Step`, `step_cases` : everything a step can do.
-/

namespace NetImitate

/-- A channel `epoll_wait` reports: the one of `wakeupFd`, or any other. -/
inductive Ready where
  | wakeup
  | other
deriving DecidableEq

/-- Where the loop's thread is. -/
inductive Pc (Task : Type) where
  /-- About to test `isLoop`. -/
  | check
  | epollWait
  /-- Between two handlers, with the reported channels still to be handled. -/
  | dispatch (rest : List Ready)
  | handler (rest : List Ready)
  /-- In `DoPendingFunc`, `pendingList` swapped out and `callingPendingFunc` not yet set. -/
  | swapped (funcList : List Task)
  /-- Between two tasks of the batch. -/
  | drain (rest : List Task)
  | task (rest : List Task)
  | stopped

/-- The tasks of the current batch that have not been started. -/
def Pc.batch {Task : Type} : Pc Task → List Task
  | .swapped funcList => funcList
  | .drain rest => rest
  | .task rest => rest
  | _ => []

/-- A call of `DoPendingFunc`: what was enqueued between the swap before it and its own, and what it has started. -/
structure Round (Task : Type) where
  enqueued : List Task
  started : List Task

structure Sys (Task : Type) where
  loop : Eventloop Task
  pc : Pc Task
  /-- The `quit()` calls that have cleared `isLoop` and not yet written the wakeup descriptor. -/
  quitting : Nat
  /-- The `quit()` calls that have completed. -/
  quitDone : Nat
  enqueued : List Task
  started : List Task
  /-- What was enqueued since the last swap. -/
  sinceSwap : List Task
  /-- The calls of `DoPendingFunc`, the last one first. -/
  rounds : List (Round Task)

inductive LoopEv (Task : Type) where
  | checkLoop
  | epollReturn (reported : List Ready)
  | handle
  | handlerReturn
  | swap
  | enter
  | startTask
  | taskReturn
  | leave
  | queInLoop (callBack : Task)
  | quitClear
  | quitWakeUp

namespace Sys
variable {Task : Type}

/-- The loop at the start of `loop()`, before anything is enqueued. -/
def new (tid : Tid) : Sys Task where
  loop := Eventloop.new tid
  pc := .check
  quitting := 0
  quitDone := 0
  enqueued := []
  started := []
  sinceSwap := []
  rounds := []

/-- What `epoll_wait` may report: at least one channel, that of `wakeupFd` once at most and only with its counter
positive. -/
def Reported (s : Sys Task) (reported : List Ready) : Prop :=
  reported ≠ [] ∧ reported.count .wakeup ≤ 1 ∧ (.wakeup ∈ reported → 0 < s.loop.wakeupFd)

instance (s : Sys Task) (reported : List Ready) : Decidable (s.Reported reported) := by
  unfold Reported
  infer_instance

/-- A task of the batch starts. -/
def starts (s : Sys Task) (t : Task) (rest : List Task) : Sys Task :=
  { s with
    pc := .task rest
    started := s.started ++ [t]
    rounds := match s.rounds with
      | [] => []
      | r :: rs => { r with started := r.started ++ [t] } :: rs }

/-- `queInLoop` by the loop's own thread. -/
def queued (s : Sys Task) (t : Task) (l : Eventloop Task) : Sys Task :=
  { s with loop := l, enqueued := s.enqueued ++ [t], sinceSwap := s.sinceSwap ++ [t] }

/-- The swap at the start of `DoPendingFunc`. -/
def swaps (s : Sys Task) : Sys Task :=
  { s with
    loop := s.loop.swapPending.2
    pc := .swapped s.loop.swapPending.1
    sinceSwap := []
    rounds := ⟨s.sinceSwap, []⟩ :: s.rounds }

def queueStep (s : Sys Task) (t : Task) : Option (Sys Task) := (s.loop.queInLoop s.loop.tid t).toOption.map (s.queued t)

def step (s : Sys Task) : LoopEv Task → Option (Sys Task)
  | .checkLoop => match s.pc with
    | .check => if s.loop.isLoop then some { s with pc := .epollWait } else some { s with pc := .stopped }
    | _ => none
  | .epollReturn reported => match s.pc with
    | .epollWait => if s.Reported reported then some { s with pc := .dispatch reported } else none
    | _ => none
  | .handle => match s.pc with
    | .dispatch (.wakeup :: rest) => some { s with loop := s.loop.handleRead, pc := .dispatch rest }
    | .dispatch (.other :: rest) => some { s with pc := .handler rest }
    | _ => none
  | .handlerReturn => match s.pc with
    | .handler rest => some { s with pc := .dispatch rest }
    | _ => none
  | .swap => match s.pc with
    | .dispatch [] => some s.swaps
    | _ => none
  | .enter => match s.pc with
    | .swapped funcList => some { s with loop := { s.loop with callingPendingFunc := true }, pc := .drain funcList }
    | _ => none
  | .startTask => match s.pc with
    | .drain (t :: rest) => some (s.starts t rest)
    | _ => none
  | .taskReturn => match s.pc with
    | .task rest => some { s with pc := .drain rest }
    | _ => none
  | .leave => match s.pc with
    | .drain [] => some { s with loop := { s.loop with callingPendingFunc := false }, pc := .check }
    | _ => none
  | .queInLoop t => match s.pc with
    | .handler _ => s.queueStep t
    | .task _ => s.queueStep t
    | _ => none
  | .quitClear => some { s with loop := s.loop.clearIsLoop, quitting := s.quitting + 1 }
  | .quitWakeUp =>
    if 0 < s.quitting then
      some { s with loop := s.loop.wakeUp, quitting := s.quitting - 1, quitDone := s.quitDone + 1 }
    else none

def machine : Machine (Sys Task) (LoopEv Task) := ⟨step⟩

/-! ## The loop a queued task leaves -/

/-- The loop after its own thread has queued `t`. -/
def queuedLoop (s : Sys Task) (t : Task) : Eventloop Task :=
  if s.loop.callingPendingFunc then { s.loop with pendingList := s.loop.pendingList ++ [t] }.wakeUp
  else { s.loop with pendingList := s.loop.pendingList ++ [t] }

theorem pendingList_queuedLoop (s : Sys Task) (t : Task) :
    (s.queuedLoop t).pendingList = s.loop.pendingList ++ [t] := by
  unfold queuedLoop
  split
  · exact Eventloop.wakeUp_pendingList _
  · rfl

theorem isLoop_queuedLoop (s : Sys Task) (t : Task) : (s.queuedLoop t).isLoop = s.loop.isLoop := by
  unfold queuedLoop
  split
  · exact Eventloop.wakeUp_isLoop _
  · rfl

theorem callingPendingFunc_queuedLoop (s : Sys Task) (t : Task) :
    (s.queuedLoop t).callingPendingFunc = s.loop.callingPendingFunc := by
  unfold queuedLoop
  split
  · exact Eventloop.wakeUp_callingPendingFunc _
  · rfl

/-! ## Everything a step can do -/

inductive Step (s : Sys Task) : LoopEv Task → Sys Task → Prop
  | check (hpc : s.pc = .check) (hloop : s.loop.isLoop = true) : Step s .checkLoop { s with pc := .epollWait }
  | stop (hpc : s.pc = .check) (hloop : s.loop.isLoop = false) : Step s .checkLoop { s with pc := .stopped }
  | epollReturn {reported : List Ready} (hpc : s.pc = .epollWait) (hrep : s.Reported reported) :
      Step s (.epollReturn reported) { s with pc := .dispatch reported }
  | wakeup {rest : List Ready} (hpc : s.pc = .dispatch (.wakeup :: rest)) :
      Step s .handle { s with loop := s.loop.handleRead, pc := .dispatch rest }
  | handler {rest : List Ready} (hpc : s.pc = .dispatch (.other :: rest)) :
      Step s .handle { s with pc := .handler rest }
  | handlerReturn {rest : List Ready} (hpc : s.pc = .handler rest) :
      Step s .handlerReturn { s with pc := .dispatch rest }
  | swap (hpc : s.pc = .dispatch []) : Step s .swap s.swaps
  | enter {funcList : List Task} (hpc : s.pc = .swapped funcList) :
      Step s .enter { s with loop := { s.loop with callingPendingFunc := true }, pc := .drain funcList }
  | startTask {t : Task} {rest : List Task} (hpc : s.pc = .drain (t :: rest)) : Step s .startTask (s.starts t rest)
  | taskReturn {rest : List Task} (hpc : s.pc = .task rest) : Step s .taskReturn { s with pc := .drain rest }
  | leave (hpc : s.pc = .drain []) :
      Step s .leave { s with loop := { s.loop with callingPendingFunc := false }, pc := .check }
  | queInLoop {t : Task} (hpc : (∃ rest, s.pc = .handler rest) ∨ ∃ rest, s.pc = .task rest) :
      Step s (.queInLoop t) (s.queued t (s.queuedLoop t))
  | quitClear : Step s .quitClear { s with loop := s.loop.clearIsLoop, quitting := s.quitting + 1 }
  | quitWakeUp (hquit : 0 < s.quitting) :
      Step s .quitWakeUp { s with loop := s.loop.wakeUp, quitting := s.quitting - 1, quitDone := s.quitDone + 1 }

theorem queueStep_some {s s' : Sys Task} {t : Task} (h : s.queueStep t = some s') :
    s' = s.queued t (s.queuedLoop t) := by
  rw [queueStep, Eventloop.queInLoop_self] at h
  exact (Option.some.inj h).symm

theorem step_cases {s s' : Sys Task} {e : LoopEv Task} (h : machine.step s e = some s') : Step s e s' := by
  cases e <;> simp only [machine, step] at h
  case quitClear =>
    cases h
    exact .quitClear
  case quitWakeUp =>
    split at h
    · rename_i hquit
      cases h
      exact .quitWakeUp hquit
    · cases h
  case checkLoop =>
    split at h
    · rename_i hpc
      split at h <;> rename_i hloop <;> cases h
      · exact .check hpc hloop
      · exact .stop hpc (Bool.eq_false_iff.mpr hloop)
    · cases h
  case epollReturn reported =>
    split at h
    · rename_i hpc
      split at h
      · rename_i hrep
        cases h
        exact .epollReturn hpc hrep
      · cases h
    · cases h
  case queInLoop t =>
    split at h
    · rename_i rest hpc
      rw [queueStep_some h]
      exact .queInLoop (Or.inl ⟨rest, hpc⟩)
    · rename_i rest hpc
      rw [queueStep_some h]
      exact .queInLoop (Or.inr ⟨rest, hpc⟩)
    · cases h
  case handle =>
    split at h
    · rename_i hpc
      cases h
      exact .wakeup hpc
    · rename_i hpc
      cases h
      exact .handler hpc
    · cases h
  all_goals
    split at h
    · rename_i hpc
      cases h
      constructor
      exact hpc
    · cases h

end Sys

end NetImitate
