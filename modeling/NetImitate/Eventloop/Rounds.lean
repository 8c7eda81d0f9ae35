import NetImitate.Eventloop.Run
import NetImitate.Library.Fifo

/-!
# Pending tasks run once, in order, in bounded rounds

* `run_fifo` : a run of the loop is a run of `Fifo`, `queInLoop` pushing and the start of a task popping;
* `RoundsOk` : each call of `DoPendingFunc` starts what was enqueued between the swap before it and its own;
* `run_drainSteps` : the steps a call still takes are counted by `Pc.left`, whatever its tasks enqueue;
* `pending_once_in_order` : the three together;
* `run_doPendingFunc` : the steps of a whole call compose to `doPendingFunc`.
-/

namespace NetImitate

namespace Sys
variable {Task : Type}

/-! ## The simulation by a queue -/

/-- The tasks that wait, with those that were enqueued and those that were started. -/
def toFifo (s : Sys Task) : Fifo Task := ⟨s.pc.batch ++ s.loop.pendingList, s.enqueued, s.started⟩

/-- What an event does to the queue. -/
def fifoOps : LoopEv Task → List (Fifo.Op Task)
  | .queInLoop t => [.push [t]]
  | .startTask => [.pop 1]
  | _ => []

theorem toFifo_step {s s' : Sys Task} {e : LoopEv Task} (h : machine.step s e = some s') :
    Fifo.machine.run s.toFifo (fifoOps e) = some s'.toFifo := by
  cases step_cases h with
  | check hpc hloop | stop hpc hloop | epollReturn hpc hrep | wakeup hpc | handler hpc | handlerReturn hpc =>
    simp [fifoOps, toFifo, hpc, Pc.batch, Eventloop.handleRead]
  | enter hpc | taskReturn hpc | leave hpc => simp [fifoOps, toFifo, hpc, Pc.batch]
  | swap hpc => simp [fifoOps, toFifo, hpc, Pc.batch, swaps, Eventloop.swapPending]
  | startTask hpc => simp [fifoOps, toFifo, hpc, Pc.batch, starts, Fifo.machine, Fifo.apply]
  | @queInLoop t hpc =>
    simp [fifoOps, toFifo, queued, pendingList_queuedLoop, Fifo.machine, Fifo.apply, List.append_assoc]
  | quitClear => simp [fifoOps, toFifo, Eventloop.clearIsLoop]
  | quitWakeUp hq => simp [fifoOps, toFifo]

/-- **The refinement**: the loop's tasks are a queue. -/
theorem run_fifo {s s' : Sys Task} {es : List (LoopEv Task)} (h : machine.run s es = some s') :
    ∃ ops, Fifo.machine.run s.toFifo ops = some s'.toFifo := by
  obtain ⟨ops, q, hq, hsim⟩ := machine.run_simulates Fifo.machine (R := fun s q => q = s.toFifo) (C := fun _ _ => True)
    (f := fun _ e => fifoOps e) (fun _ _ _ _ hR _ hstep => ⟨_, hR ▸ toFifo_step hstep, rfl⟩) es s s' s.toFifo rfl
    (machine.meets_of_forall (fun _ _ _ => trivial) s) h
  exact ⟨ops, hsim ▸ hq⟩

/-! ## Rounds -/

/-- The last call of `DoPendingFunc` has started what was enqueued for it but for the rest of its batch; every call
before it has started all of it. -/
def RoundsOk (s : Sys Task) : Prop :=
  match s.rounds with
  | [] => s.pc.batch = []
  | r :: rs => r.started ++ s.pc.batch = r.enqueued ∧ ∀ r' ∈ rs, r'.started = r'.enqueued

structure InRounds (s : Sys Task) : Prop where
  since : s.sinceSwap = s.loop.pendingList
  rounds : s.RoundsOk

theorem inRounds_new (tid : Tid) : (new tid : Sys Task).InRounds := ⟨rfl, rfl⟩

/-- Rounds are only looked at through the batch. -/
theorem RoundsOk.congr {s s' : Sys Task} (h : s.RoundsOk) (hrounds : s'.rounds = s.rounds)
    (hbatch : s'.pc.batch = s.pc.batch) : s'.RoundsOk := by
  unfold RoundsOk at h ⊢
  rw [hrounds, hbatch]
  exact h

theorem InRounds.step {s s' : Sys Task} {e : LoopEv Task} (hs : s.InRounds) (h : machine.step s e = some s') :
    s'.InRounds := by
  obtain ⟨hsince, hrounds⟩ := hs
  cases step_cases h with
  | check hpc hloop | stop hpc hloop | epollReturn hpc hrep | wakeup hpc | handler hpc | handlerReturn hpc =>
    exact ⟨hsince, hrounds.congr rfl (by rw [hpc]; rfl)⟩
  | enter hpc | taskReturn hpc | leave hpc => exact ⟨hsince, hrounds.congr rfl (by rw [hpc]; rfl)⟩
  | quitClear => exact ⟨hsince, hrounds.congr rfl rfl⟩
  | quitWakeUp hq => exact ⟨hsince.trans (Eventloop.wakeUp_pendingList _).symm, hrounds.congr rfl rfl⟩
  | swap hpc =>
    refine ⟨rfl, hsince.symm, ?_⟩
    intro r hr
    -- the call before this one has ended: nothing is left of its batch
    cases hlist : s.rounds with
    | nil =>
      rw [hlist] at hr
      cases hr
    | cons r0 rs =>
      unfold RoundsOk at hrounds
      rw [hlist, hpc] at hrounds
      rw [hlist] at hr
      simp only [Pc.batch, List.append_nil] at hrounds
      rcases List.mem_cons.mp hr with rfl | hr
      · exact hrounds.1
      · exact hrounds.2 r hr
  | @startTask t rest hpc =>
    refine ⟨hsince, ?_⟩
    unfold RoundsOk at hrounds ⊢
    cases hlist : s.rounds with
    | nil =>
      rw [hlist, hpc] at hrounds
      cases hrounds
    | cons r rs =>
      rw [hlist, hpc] at hrounds
      simp only [starts, hlist, Pc.batch, List.append_assoc] at hrounds ⊢
      exact hrounds
  | @queInLoop t hpc =>
    refine ⟨?_, hrounds.congr rfl rfl⟩
    rw [queued, pendingList_queuedLoop, hsince]

/-! ## A call ends -/

/-- The events that move a call of `DoPendingFunc` on. -/
def isDrainStep : LoopEv Task → Bool
  | .enter | .startTask | .taskReturn | .leave => true
  | _ => false

end Sys

/-- The steps a call of `DoPendingFunc` has still to take. -/
def Pc.left {Task : Type} : Pc Task → Nat
  | .swapped funcList => 2 * funcList.length + 2
  | .drain rest => 2 * rest.length + 1
  | .task rest => 2 * rest.length + 2
  | _ => 0

namespace Sys
variable {Task : Type}

/-- Outside a swap, a step of the call takes one off `left`, and no other step changes it. -/
theorem left_step {s s' : Sys Task} {e : LoopEv Task} (he : e ≠ .swap) (h : machine.step s e = some s') :
    s'.pc.left + (if isDrainStep e then 1 else 0) = s.pc.left := by
  cases step_cases h with
  | check hpc hloop | stop hpc hloop | epollReturn hpc hrep | wakeup hpc | handler hpc | handlerReturn hpc =>
    rw [hpc]
    rfl
  | swap hpc => exact absurd rfl he
  | enter hpc =>
    rw [hpc]
    rfl
  | @startTask t rest hpc =>
    simp only [hpc, starts, Pc.left, isDrainStep, List.length_cons, if_true]
    omega
  | taskReturn hpc =>
    rw [hpc]
    rfl
  | leave hpc =>
    rw [hpc]
    rfl
  | queInLoop hpc => rfl
  | quitClear => rfl
  | quitWakeUp hq => rfl

/-- **A call takes a number of steps fixed at its swap**, however much its tasks enqueue. -/
theorem run_drainSteps : ∀ (es : List (LoopEv Task)) {s s' : Sys Task}, (∀ e ∈ es, e ≠ .swap) →
    machine.run s es = some s' → s'.pc.left + es.countP isDrainStep = s.pc.left
  | [], s, s', _, h => by
    rw [Machine.run_nil, Option.some.injEq] at h
    rw [h, List.countP_nil, Nat.add_zero]
  | e :: es, s, s', hes, h => by
    obtain ⟨s1, h1, h2⟩ := machine.run_cons_some h
    have hhead := left_step (hes e List.mem_cons_self) h1
    have htail := run_drainSteps es (fun e he => hes e (List.mem_cons_of_mem _ he)) h2
    rw [List.countP_cons]
    omega

/-- A call that has steps left can take one, once the running task has returned. -/
theorem drainStep_enabled {s : Sys Task} (h : 0 < s.pc.left) :
    ∃ e, isDrainStep e = true ∧ ∃ s', machine.step s e = some s' := by
  cases hpc : s.pc with
  | swapped funcList => exact ⟨.enter, rfl, _, by simp only [machine, step, hpc]; rfl⟩
  | task rest => exact ⟨.taskReturn, rfl, _, by simp only [machine, step, hpc]; rfl⟩
  | drain rest =>
    cases rest with
    | nil => exact ⟨.leave, rfl, _, by simp only [machine, step, hpc]; rfl⟩
    | cons t rest => exact ⟨.startTask, rfl, _, by simp only [machine, step, hpc]; rfl⟩
  | _ =>
    rw [hpc] at h
    cases h

/-! ## The whole -/

/-- **Pending tasks run exactly once, in order, in bounded rounds**: started, batch and pending are what was enqueued;
each call starts what was enqueued between two swaps; and a call under way ends after the steps `left` counts. -/
theorem pending_once_in_order (tid : Tid) (es : List (LoopEv Task)) (s : Sys Task)
    (h : machine.run (new tid) es = some s) :
    s.started ++ (s.pc.batch ++ s.loop.pendingList) = s.enqueued ∧
      (s.sinceSwap = s.loop.pendingList ∧ s.RoundsOk) ∧
      (0 < s.pc.left → ∃ e, isDrainStep e = true ∧ ∃ s', machine.step s e = some s') ∧
      ∀ fs s', (∀ e ∈ fs, e ≠ .swap) → machine.run s fs = some s' → s'.pc.left + fs.countP isDrainStep = s.pc.left := by
  have hin : s.InRounds := machine.run_invariant (fun _ _ _ hs h => hs.step h) es (new tid) s (inRounds_new tid) h
  obtain ⟨ops, hops⟩ := run_fifo h
  exact ⟨Fifo.run_conserved (q := (new tid : Sys Task).toFifo) rfl hops, ⟨hin.since, hin.rounds⟩, drainStep_enabled,
    fun fs s' hfs hrun => run_drainSteps fs hfs hrun⟩

/-- Two tasks enqueued by a handler; the first enqueues itself again while it runs. -/
def requeueRun : List (LoopEv Nat) :=
  [.checkLoop, .epollReturn [.other], .handle, .queInLoop 7, .queInLoop 8, .handlerReturn, .swap, .enter, .startTask,
    .queInLoop 7, .taskReturn]

theorem pending_once_in_order_requeueRun :
    ∃ s, machine.run (new 1) requeueRun = some s ∧ s.started = [7] ∧ s.pc.batch = [8] ∧ s.loop.pendingList = [7] ∧
      s.started ++ (s.pc.batch ++ s.loop.pendingList) = s.enqueued := by
  have hrun : (machine.run (new 1) requeueRun).map (fun s => (s.started, s.pc.batch, s.loop.pendingList)) =
      some ([7], [8], [7]) := rfl
  obtain ⟨s, hs, heq⟩ := Option.map_eq_some_iff.mp hrun
  simp only [Prod.mk.injEq] at heq
  exact ⟨s, hs, heq.1, heq.2.1, heq.2.2, (pending_once_in_order 1 requeueRun s hs).1⟩

/-! ## A whole call is `doPendingFunc` -/

/-- What a task that queues the tasks `body t` does to its loop. -/
def queueBody (body : Task → List Task) (t : Task) (l : Eventloop Task) : Eventloop Task :=
  (body t).foldl (fun l f => ((l.queInLoop l.tid f).toOption).getD l) l

/-- The events of one task. -/
def taskEvents (body : Task → List Task) (t : Task) : List (LoopEv Task) :=
  .startTask :: ((body t).map .queInLoop ++ [.taskReturn])

/-- The events of one call on the batch it swaps out. -/
def callEvents (body : Task → List Task) (funcList : List Task) : List (LoopEv Task) :=
  .swap :: .enter :: (funcList.flatMap (taskEvents body) ++ [.leave])

theorem run_queInLoop {rest : List Task} : ∀ (fs : List Task) (s : Sys Task), s.pc = .task rest →
    ∃ s', machine.run s (fs.map .queInLoop) = some s' ∧ s'.pc = .task rest ∧
      s'.loop = fs.foldl (fun l f => ((l.queInLoop l.tid f).toOption).getD l) s.loop
  | [], s, hpc => ⟨s, rfl, hpc, rfl⟩
  | f :: fs, s, hpc => by
    have hstep : machine.step s (.queInLoop f) = some (s.queued f (s.queuedLoop f)) := by
      simp only [machine, step, hpc, queueStep, Eventloop.queInLoop_self]
      rfl
    obtain ⟨s', hs', hpc', hloop⟩ := run_queInLoop fs (s.queued f (s.queuedLoop f)) hpc
    refine ⟨s', ?_, hpc', ?_⟩
    · rw [List.map_cons, Machine.run_cons, hstep]
      exact hs'
    · rw [hloop, List.foldl_cons, Eventloop.queInLoop_self]
      rfl

theorem run_tasks (body : Task → List Task) : ∀ (funcList : List Task) (s : Sys Task), s.pc = .drain funcList →
    ∃ s', machine.run s (funcList.flatMap (taskEvents body)) = some s' ∧ s'.pc = .drain [] ∧
      s'.loop = funcList.foldl (fun l idx => queueBody body idx l) s.loop
  | [], s, hpc => ⟨s, rfl, hpc, rfl⟩
  | t :: rest, s, hpc => by
    obtain ⟨s1, hs1, hpc1, hloop1⟩ := run_queInLoop (body t) (s.starts t rest) rfl
    obtain ⟨s', hs', hpc', hloop⟩ := run_tasks body rest { s1 with pc := .drain rest } rfl
    have hstart : machine.step s .startTask = some (s.starts t rest) := by simp only [machine, step, hpc]
    have hreturn : machine.step s1 .taskReturn = some { s1 with pc := .drain rest } := by
      simp only [machine, step, hpc1]
    refine ⟨s', ?_, hpc', ?_⟩
    · rw [List.flatMap_cons, taskEvents, List.cons_append, Machine.run_cons, hstart, Option.bind_some,
        Machine.run_append, Machine.run_append, hs1, Option.bind_some, Machine.run_singleton, hreturn,
        Option.bind_some, hs']
    · rw [hloop, hloop1]
      rfl

/-- **The steps of a call compose to `doPendingFunc`.** -/
theorem run_doPendingFunc (body : Task → List Task) (s : Sys Task) (hpc : s.pc = .dispatch []) :
    ∃ s', machine.run s (callEvents body s.loop.pendingList) = some s' ∧ s'.pc = .check ∧
      s'.loop = s.loop.doPendingFunc (queueBody body) := by
  have hswap : machine.step s .swap = some s.swaps := by simp only [machine, step, hpc]
  obtain ⟨s1, henter, hpc1, hloop1⟩ : ∃ s1, machine.step s.swaps .enter = some s1 ∧
      s1.pc = .drain s.loop.pendingList ∧ s1.loop = { s.loop.swapPending.2 with callingPendingFunc := true } :=
    ⟨_, rfl, rfl, rfl⟩
  obtain ⟨s2, htasks, hpc2, hloop2⟩ := run_tasks body s.loop.pendingList s1 hpc1
  have hleave : machine.step s2 .leave =
      some { s2 with loop := { s2.loop with callingPendingFunc := false }, pc := .check } := by
    simp only [machine, step, hpc2]
  refine ⟨{ s2 with loop := { s2.loop with callingPendingFunc := false }, pc := .check }, ?_, rfl, ?_⟩
  · rw [callEvents, Machine.run_cons, hswap, Option.bind_some, Machine.run_cons, henter, Option.bind_some,
      Machine.run_append, htasks, Option.bind_some, Machine.run_singleton, hleave]
  · simp only [hloop2, hloop1]
    rfl

end Sys

end NetImitate
