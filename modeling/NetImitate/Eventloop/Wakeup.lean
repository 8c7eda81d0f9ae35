import NetImitate.Eventloop.Run

/-!
# No lost wakeup

* `Awake` : what the place of the loop's thread says about `pendingList`, the flags and the wakeup counter;
* `Awake.step` : every step keeps it;
* `no_lost_wakeup` : with a task pending or a `quit()` completed, `epoll_wait` finds the counter positive.
-/

namespace NetImitate

namespace Sys
variable {Task : Type}

/-- With something pending, the wakeup counter is positive. -/
def Woken (s : Sys Task) : Prop := s.loop.pendingList ≠ [] → 0 < s.loop.wakeupFd

/-- What holds at each place of the loop's thread. Handlers queue without a wakeup: they are followed by a swap. -/
def AwakeAt (s : Sys Task) : Pc Task → Prop
  | .check => s.Woken
  | .epollWait => s.Woken ∧ (0 < s.quitDone → 0 < s.loop.wakeupFd)
  | .swapped _ => s.loop.pendingList = []
  | .drain _ | .task _ => s.loop.callingPendingFunc = true ∧ s.Woken
  | _ => True

structure Awake (s : Sys Task) : Prop where
  quit : 0 < s.quitting + s.quitDone → s.loop.isLoop = false
  at_pc : s.AwakeAt s.pc

theorem awake_new (tid : Tid) : (new tid : Sys Task).Awake :=
  ⟨fun h => absurd h (Nat.lt_irrefl 0), fun h => absurd rfl h⟩

/-- A completed `quit()` leaves the counter positive and keeps what holds everywhere. -/
theorem AwakeAt.quitWakeUp {s : Sys Task} {pc : Pc Task} (h : s.AwakeAt pc) (n m : Nat) :
    AwakeAt { s with loop := s.loop.wakeUp, quitting := n, quitDone := m } pc := by
  have hpos := s.loop.wakeUp_pos
  cases pc with
  | check => exact fun _ => hpos
  | epollWait => exact ⟨fun _ => hpos, fun _ => hpos⟩
  | swapped funcList => exact (Eventloop.wakeUp_pendingList _).trans h
  | drain rest => exact ⟨(Eventloop.wakeUp_callingPendingFunc _).trans h.1, fun _ => hpos⟩
  | task rest => exact ⟨(Eventloop.wakeUp_callingPendingFunc _).trans h.1, fun _ => hpos⟩
  | dispatch rest => trivial
  | handler rest => trivial
  | stopped => trivial

theorem Awake.step {s s' : Sys Task} {e : LoopEv Task} (hs : s.Awake) (h : machine.step s e = some s') : s'.Awake := by
  obtain ⟨hquit, hat⟩ := hs
  cases step_cases h with
  | check hpc hloop =>
    rw [hpc] at hat
    refine ⟨hquit, hat, ?_⟩
    intro hdone
    -- the loop goes to `epoll_wait` only while no `quit()` has begun
    rw [hquit (Nat.add_pos_right s.quitting hdone)] at hloop
    cases hloop
  | stop hpc hloop => exact ⟨hquit, trivial⟩
  | epollReturn hpc hrep => exact ⟨hquit, trivial⟩
  | wakeup hpc => exact ⟨hquit, trivial⟩
  | handler hpc => exact ⟨hquit, trivial⟩
  | handlerReturn hpc => exact ⟨hquit, trivial⟩
  | swap hpc => exact ⟨hquit, rfl⟩
  | enter hpc =>
    rw [hpc] at hat
    exact ⟨hquit, rfl, fun hne => absurd hat hne⟩
  | startTask hpc =>
    rw [hpc] at hat
    exact ⟨hquit, hat⟩
  | taskReturn hpc =>
    rw [hpc] at hat
    exact ⟨hquit, hat⟩
  | leave hpc =>
    rw [hpc] at hat
    exact ⟨hquit, hat.2⟩
  | @queInLoop t hpc =>
    refine ⟨fun hq => (isLoop_queuedLoop s t).trans (hquit hq), ?_⟩
    rcases hpc with ⟨rest, hpc⟩ | ⟨rest, hpc⟩
    · simp only [queued, hpc]
      trivial
    · rw [hpc] at hat
      simp only [queued, hpc]
      refine ⟨(callingPendingFunc_queuedLoop s t).trans hat.1, ?_⟩
      intro _
      simp only [queuedLoop, if_pos hat.1]
      exact Eventloop.wakeUp_pos _
  | quitClear =>
    refine ⟨fun _ => rfl, ?_⟩
    cases hpc : s.pc <;> rw [hpc] at hat <;> exact hat
  | quitWakeUp hq =>
    exact ⟨fun _ => (Eventloop.wakeUp_isLoop _).trans (hquit (by omega)), hat.quitWakeUp _ _⟩

/-- **No lost wakeup.** -/
theorem no_lost_wakeup (tid : Tid) (es : List (LoopEv Task)) (s : Sys Task)
    (h : machine.run (new tid) es = some s) (hpc : s.pc = .epollWait)
    (hdue : s.loop.pendingList ≠ [] ∨ 0 < s.quitDone) : 0 < s.loop.wakeupFd := by
  have hawake : s.Awake := machine.run_invariant (fun _ _ _ hs h => hs.step h) es (new tid) s (awake_new tid) h
  have hat := hawake.at_pc
  rw [hpc] at hat
  exact hdue.elim hat.1 hat.2

/-- A task that queues another one, then the loop back at `epoll_wait` with a `quit()` completed there. -/
def quitRun : List (LoopEv Nat) :=
  [.checkLoop, .epollReturn [.other], .handle, .queInLoop 7, .handlerReturn, .swap, .enter, .startTask, .queInLoop 8,
    .taskReturn, .leave, .checkLoop, .quitClear, .quitWakeUp]

theorem no_lost_wakeup_quitRun :
    ∃ s, machine.run (new 1) quitRun = some s ∧ s.pc = .epollWait ∧ 0 < s.loop.wakeupFd := by
  have hrun : (machine.run (new 1) quitRun).map (fun s => (s.pc, s.quitDone)) = some (.epollWait, 1) := rfl
  obtain ⟨s, hs, heq⟩ := Option.map_eq_some_iff.mp hrun
  rw [Prod.mk.injEq] at heq
  exact ⟨s, hs, heq.1, no_lost_wakeup 1 quitRun s hs heq.1 (Or.inr (by rw [heq.2]; exact Nat.one_pos))⟩

end Sys

end NetImitate
