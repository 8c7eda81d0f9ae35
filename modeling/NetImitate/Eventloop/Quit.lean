import NetImitate.Eventloop.Rounds
import NetImitate.Eventloop.Wakeup

/-!
# What a `quit()` still lets the loop do

Once a `quit()` has begun, the loop goes through what is left of its round and stops.

* `Stage`, `Pc.stages` : the stages of a round a loop that no longer goes round has still to end;
* `quit_last_round` : the rest of the run ends just these, in order, and past its swap starts no further task;
* `Pc.todo` : what is left to do within a stage;
* `quit_stops` : once a `quit()` has completed, the loop's thread is never stuck and, as long as it goes on, stops.
-/

namespace NetImitate

/-- The stages of one turn of `loop()`. -/
inductive Stage where
  /-- `polling` -/
  | polling
  /-- the handlers of `channelList` -/
  | handling
  /-- `DoPendingFunc`, from its swap on -/
  | pending
  /-- the test of `isLoop` -/
  | testing
deriving DecidableEq

/-- The stages the thread has still to end when `isLoop` is false. -/
def Pc.stages {Task : Type} : Pc Task → List Stage
  | .epollWait => [.polling, .handling, .pending, .testing]
  | .dispatch _ | .handler _ => [.handling, .pending, .testing]
  | .swapped _ | .drain _ | .task _ => [.pending, .testing]
  | .check => [.testing]
  | .stopped => []

/-- The stage an event ends. -/
def LoopEv.ends {Task : Type} : LoopEv Task → Option Stage
  | .epollReturn _ => some .polling
  | .swap => some .handling
  | .leave => some .pending
  | .checkLoop => some .testing
  | _ => none

/-- The task an event queues. -/
def LoopEv.queues {Task : Type} : LoopEv Task → Option Task
  | .queInLoop callBack => some callBack
  | _ => none

/-- The event is a step of the loop's thread in `loop()` and `DoPendingFunc`. -/
def LoopEv.isOwn {Task : Type} : LoopEv Task → Bool
  | .queInLoop _ | .quitClear | .quitWakeUp => false
  | _ => true

namespace Sys
variable {Task : Type}

/-! ## The stages left -/

theorem isLoop_step {s s' : Sys Task} {e : LoopEv Task} (hquit : s.loop.isLoop = false)
    (h : machine.step s e = some s') : s'.loop.isLoop = false := by
  cases step_cases h with
  | queInLoop hpc => exact (isLoop_queuedLoop s _).trans hquit
  | quitClear => rfl
  | quitWakeUp hq => exact (Eventloop.wakeUp_isLoop _).trans hquit
  | _ => exact hquit

/-- With `isLoop` false, a step ends the stage the thread is in or stays in it. -/
theorem stages_step {s s' : Sys Task} {e : LoopEv Task} (hquit : s.loop.isLoop = false)
    (h : machine.step s e = some s') : e.ends.toList ++ s'.pc.stages = s.pc.stages := by
  cases step_cases h with
  | check hpc hloop =>
    rw [hquit] at hloop
    cases hloop
  | queInLoop hpc | quitClear | quitWakeUp hq => rfl
  | stop hpc _ | epollReturn hpc _ | wakeup hpc | handler hpc | handlerReturn hpc | swap hpc | enter hpc
  | startTask hpc | taskReturn hpc | leave hpc =>
    rw [hpc]
    rfl

theorem stages_run {s s' : Sys Task} {es : List (LoopEv Task)} (hquit : s.loop.isLoop = false)
    (h : machine.run s es = some s') : es.filterMap LoopEv.ends ++ s'.pc.stages = s.pc.stages :=
  machine.run_consumes (I := fun s => s.loop.isLoop = false)
    (fun _ _ _ hs h => ⟨isLoop_step hs h, stages_step hs h⟩) es s s' hquit h

/-! ## The last batch -/

/-- Without a swap, the tasks started and left in the batch stay the same, and what is queued stays pending. -/
theorem batch_step {s s' : Sys Task} {e : LoopEv Task} (he : e ≠ .swap) (h : machine.step s e = some s') :
    s'.started ++ s'.pc.batch = s.started ++ s.pc.batch ∧
      s'.loop.pendingList = s.loop.pendingList ++ e.queues.toList := by
  cases step_cases h with
  | swap hpc => exact absurd rfl he
  | check hpc _ | stop hpc _ | epollReturn hpc _ | wakeup hpc | handler hpc | handlerReturn hpc | enter hpc
  | taskReturn hpc | leave hpc =>
    rw [hpc]
    exact ⟨rfl, (List.append_nil _).symm⟩
  | startTask hpc =>
    rw [hpc]
    exact ⟨List.append_assoc _ _ _, (List.append_nil _).symm⟩
  | queInLoop hpc => exact ⟨rfl, pendingList_queuedLoop s _⟩
  | quitClear => exact ⟨rfl, (List.append_nil _).symm⟩
  | quitWakeUp hq => exact ⟨rfl, (Eventloop.wakeUp_pendingList _).trans (List.append_nil _).symm⟩

theorem batch_run : ∀ (es : List (LoopEv Task)) {s s' : Sys Task}, (∀ e ∈ es, e ≠ .swap) →
    machine.run s es = some s' → s'.started ++ s'.pc.batch = s.started ++ s.pc.batch ∧
      s'.loop.pendingList = s.loop.pendingList ++ es.filterMap LoopEv.queues
  | [], s, s', _, h => by
    rw [Machine.run_nil, Option.some.injEq] at h
    rw [h]
    exact ⟨rfl, (List.append_nil _).symm⟩
  | e :: es, s, s', hes, h => by
    obtain ⟨s1, h1, h2⟩ := machine.run_cons_some h
    obtain ⟨hstart, hpend⟩ := batch_step (hes e List.mem_cons_self) h1
    obtain ⟨hstart', hpend'⟩ := batch_run es (fun e he => hes e (List.mem_cons_of_mem _ he)) h2
    refine ⟨hstart'.trans hstart, ?_⟩
    rw [hpend', hpend, List.append_assoc, List.filterMap_cons]
    cases e.queues <;> rfl

theorem awake_run {tid : Tid} {es : List (LoopEv Task)} {s : Sys Task} (h : machine.run (new tid) es = some s) :
    s.Awake := machine.run_invariant (fun _ _ _ hs h => hs.step h) es (new tid) s (awake_new tid) h

/-- **The last round**: once a `quit()` has begun, the loop only ends the stages left of its round, in order; once it is
past its swap, the tasks it will have started are settled, and what is pending or still gets queued is left there. -/
theorem quit_last_round (tid : Tid) (es fs : List (LoopEv Task)) (s s' : Sys Task)
    (h : machine.run (new tid) es = some s) (hquit : 0 < s.quitting + s.quitDone) (hrun : machine.run s fs = some s') :
    fs.filterMap LoopEv.ends ++ s'.pc.stages = s.pc.stages ∧
      (.handling ∉ s.pc.stages → s'.started ++ s'.pc.batch = s.started ++ s.pc.batch ∧
        s'.loop.pendingList = s.loop.pendingList ++ fs.filterMap LoopEv.queues) := by
  have hstages := stages_run ((awake_run h).quit hquit) hrun
  refine ⟨hstages, fun hpast => batch_run fs ?_ hrun⟩
  intro e he heq
  apply hpast
  rw [← hstages]
  exact List.mem_append_left _ (List.mem_filterMap.mpr ⟨e, he, by rw [heq]; rfl⟩)

/-- A `quit()` from a task, which then queues another one: that one is never started. -/
def quitInTask : List (LoopEv Nat) :=
  [.checkLoop, .epollReturn [.other], .handle, .queInLoop 7, .handlerReturn, .swap, .enter, .startTask, .quitClear,
    .quitWakeUp]

theorem quit_last_round_quitInTask :
    ∃ s s', machine.run (new 1) quitInTask = some s ∧
      machine.run s [.queInLoop 8, .taskReturn, .leave, .checkLoop] = some s' ∧ s'.pc = .stopped ∧ s'.started = [7] ∧
        s'.loop.pendingList = [8] := by
  obtain ⟨s, hs, hquit, hstages, hstarted, hpending⟩ : ∃ s, machine.run (new 1) quitInTask = some s ∧ s.quitDone = 1 ∧
      s.pc.stages = [.pending, .testing] ∧ s.started ++ s.pc.batch = [7] ∧ s.loop.pendingList = [] :=
    ⟨_, rfl, rfl, rfl, rfl, rfl⟩
  obtain ⟨s', hs', hpc⟩ : ∃ s', machine.run s [.queInLoop 8, .taskReturn, .leave, .checkLoop] = some s' ∧
      s'.pc = .stopped := by
    have hrun : (machine.run (new 1) (quitInTask ++ [.queInLoop 8, .taskReturn, .leave, .checkLoop])).map (·.pc) =
      some .stopped := rfl
    rw [Machine.run_append, hs] at hrun
    exact Option.map_eq_some_iff.mp hrun
  obtain ⟨-, hpast⟩ := quit_last_round 1 quitInTask _ s s' hs (by omega) hs'
  obtain ⟨hstart, hpend⟩ := hpast (by rw [hstages]; decide)
  rw [hpc, hstarted] at hstart
  rw [hpending] at hpend
  exact ⟨s, s', hs, hs', hpc, (List.append_nil _).symm.trans hstart, hpend⟩

end Sys

/-! ## The loop stops -/

/-- What the thread has to do before the stage it is in ends. -/
def Pc.todo {Task : Type} : Pc Task → Nat
  | .dispatch rest => 2 * rest.length
  | .handler rest => 2 * rest.length + 1
  | pc => pc.left

namespace Sys
variable {Task : Type}

/-- How far the thread is from the end of `loop()`: the stages it has still to end, and what is to do in this one. -/
def distance (s : Sys Task) : ℕ ×ₗ ℕ := toLex (s.pc.stages.length, s.pc.todo)

/-- With `isLoop` false no step leads away from the end, and each step of the thread's own leads nearer to it. -/
theorem distance_step {s s' : Sys Task} {e : LoopEv Task} (hquit : s.loop.isLoop = false)
    (h : machine.step s e = some s') : s'.distance ≤ s.distance ∧ (e.isOwn = true → s'.distance < s.distance) := by
  simp only [distance, Prod.Lex.toLex_le_toLex, Prod.Lex.toLex_lt_toLex]
  cases step_cases h with
  | check hpc hloop =>
    rw [hquit] at hloop
    cases hloop
  | queInLoop hpc | quitClear | quitWakeUp hq => exact ⟨Or.inr ⟨rfl, le_rfl⟩, fun h => by cases h⟩
  | stop hpc _ | epollReturn hpc _ | swap hpc | leave hpc =>
    -- a stage ends
    rw [hpc]
    exact ⟨Or.inl (Nat.lt_succ_self _), fun _ => Or.inl (Nat.lt_succ_self _)⟩
  | wakeup hpc | handler hpc | handlerReturn hpc | enter hpc | startTask hpc | taskReturn hpc =>
    rw [hpc]
    refine ⟨Or.inr ⟨rfl, ?_⟩, fun _ => Or.inr ⟨rfl, ?_⟩⟩ <;>
      simp only [starts, Pc.todo, Pc.left, List.length_cons] <;> omega

/-- Until the thread has left `loop()`, and with a `quit()` completed, it has a step to take. -/
theorem own_enabled {s : Sys Task} (hs : s.Awake) (hquit : 0 < s.quitDone) (hpc : s.pc ≠ .stopped) :
    ∃ e, e.isOwn = true ∧ ∃ s', machine.step s e = some s' := by
  have hloop := hs.quit (Nat.add_pos_right s.quitting hquit)
  have hat := hs.at_pc
  cases hat' : s.pc with
  | check => exact ⟨.checkLoop, rfl, _, by simp only [machine, step, hat', hloop]; rfl⟩
  | epollWait =>
    -- the wakeup `quit()` has left is there to be reported
    rw [hat'] at hat
    have hrep : s.Reported [.wakeup] := ⟨List.cons_ne_nil _ _, le_rfl, fun _ => hat.2 hquit⟩
    exact ⟨.epollReturn [.wakeup], rfl, _, by simp only [machine, step, hat', if_pos hrep]; rfl⟩
  | dispatch rest =>
    rcases rest with _ | ⟨r, rest⟩
    · exact ⟨.swap, rfl, _, by simp only [machine, step, hat']; rfl⟩
    · cases r <;> exact ⟨.handle, rfl, _, by simp only [machine, step, hat']; rfl⟩
  | handler rest => exact ⟨.handlerReturn, rfl, _, by simp only [machine, step, hat']; rfl⟩
  | stopped => exact absurd hat' hpc
  | swapped rest | drain rest | task rest =>
    obtain ⟨e, he, hs'⟩ := drainStep_enabled (s := s) (by rw [hat']; exact Nat.succ_pos _)
    refine ⟨e, ?_, hs'⟩
    cases e <;> first | rfl | cases he

theorem quitDone_step {s s' : Sys Task} {e : LoopEv Task} (h : machine.step s e = some s') :
    s.quitDone ≤ s'.quitDone := by
  cases step_cases h with
  | quitWakeUp hq => exact Nat.le_succ _
  | _ => exact le_rfl

/-- **A completed `quit()` ends the loop**: wherever it has come to, the loop's thread has a step to take; and in a run
without end in which handlers and tasks return, so that the thread goes on until it has left `loop()`, it leaves it. -/
theorem quit_stops (tid : Tid) (es : List (LoopEv Task)) (s : Sys Task) (h : machine.run (new tid) es = some s)
    (hquit : 0 < s.quitDone) :
    (∀ fs s', machine.run s fs = some s' → s'.pc ≠ .stopped →
      ∃ e, e.isOwn = true ∧ ∃ s'', machine.step s' e = some s'') ∧
    ∀ t ev, machine.Execution t ev → t 0 = s → (∀ n, (t n).pc ≠ .stopped → ∃ m ≥ n, (ev m).isOwn = true) →
      ∃ N, ∀ n ≥ N, (t n).pc = .stopped := by
  have hawake := awake_run h
  constructor
  · intro fs s' hrun
    obtain ⟨hs', hquit'⟩ := machine.run_invariant (I := fun s => s.Awake ∧ 0 < s.quitDone)
      (fun _ _ _ hs h => ⟨hs.1.step h, hs.2.trans_le (quitDone_step h)⟩) fs s s' ⟨hawake, hquit⟩ hrun
    exact own_enabled hs' hquit'
  · intro t ev hexec h0 hfair
    have hloop : ∀ n, (t n).loop.isLoop = false := hexec.invariant (fun _ _ _ hs h => isLoop_step hs h)
      (by rw [h0]; exact hawake.quit (Nat.add_pos_right s.quitting hquit))
    obtain ⟨N, hN⟩ := hexec.finitely_often (E := fun e => e.isOwn = true) hloop
      fun s e s' hs _ h => distance_step hs h
    refine ⟨N, fun n hn => ?_⟩
    by_contra hpc
    obtain ⟨m, hm, hown⟩ := hfair n hpc
    exact hN m (hn.trans hm) hown

/-- From the `epoll_wait` at which the `quit()` of `quitRun` finds the loop: the last turn, then only further calls. -/
def lastTurnEv (n : Nat) : LoopEv Nat :=
  [.epollReturn [.wakeup], .handle, .swap, .enter, .startTask, .taskReturn, .leave, .checkLoop].getD n .quitClear

def lastTurn : Nat → Sys Nat
  | 0 => (machine.run (new 1) quitRun).getD (new 1)
  | n + 1 => (machine.step (lastTurn n) (lastTurnEv n)).getD (lastTurn n)

theorem quit_stops_lastTurn : ∃ N, ∀ n ≥ N, (lastTurn n).pc = .stopped := by
  have hlate : ∀ n, lastTurnEv (n + 8) = .quitClear := fun _ => rfl
  have hexec : machine.Execution lastTurn lastTurnEv := by
    intro n
    rcases Nat.lt_or_ge n 8 with hn | hn
    · interval_cases n <;> rfl
    · obtain ⟨k, rfl⟩ := Nat.exists_eq_add_of_le' hn
      rw [lastTurn, hlate]
      rfl
  have hpc : ∀ n, (lastTurn (n + 8)).pc = .stopped := by
    intro n
    induction n with
    | zero => rfl
    | succ n ih =>
      rw [show n + 1 + 8 = n + 8 + 1 by omega, lastTurn, hlate]
      exact ih
  apply (quit_stops 1 quitRun (lastTurn 0) rfl (by decide)).2 lastTurn lastTurnEv hexec rfl
  intro n hn
  refine ⟨n, le_rfl, ?_⟩
  rcases Nat.lt_or_ge n 8 with hlt | hge
  · interval_cases n <;> rfl
  · obtain ⟨k, rfl⟩ := Nat.exists_eq_add_of_le' hge
    exact absurd (hpc k) hn

end Sys

end NetImitate
