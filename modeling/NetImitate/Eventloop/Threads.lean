import NetImitate.Eventloop.Run

/-!
# Calls from other threads

A `Process` is a loop with any number of threads that call `RunInLoop`, `queInLoop`, `RunAfter`, `RunInterval`, `Send`
and `Shutdown`. The loop's own thread calls from handlers and from tasks, the others at any moment; after an `exit`
nothing happens any more.

* `step_foreign` : a call of another thread ends the process;
* `run_exited_iff` : a run is still going exactly while no other thread has called;
* `submits_iff` : the calls of other threads are served in exactly the runs that have none.
-/

namespace NetImitate

open Eventloop (LoopTask Call)

structure Process (Functor : Type) where
  sys : Sys (LoopTask Functor)
  exited : Option Exit
  /-- The tasks that were executed, each with the thread that did it. -/
  ran : List (LoopTask Functor × Tid)

inductive ProcessEv (Functor : Type) where
  | loop (e : LoopEv (LoopTask Functor))
  | call (me : Tid) (c : Call Functor)

/-- A handler or a task is running. -/
def Pc.inCallback {Task : Type} : Pc Task → Bool
  | .handler _ | .task _ => true
  | _ => false

/-- The task a step of the loop's thread starts. -/
def Sys.startedTask {Task : Type} (s : Sys Task) : LoopEv Task → List Task
  | .startTask => s.pc.batch.take 1
  | _ => []

namespace Process
variable {Functor : Type}

def new (tid : Tid) : Process Functor where
  sys := Sys.new tid
  exited := none
  ran := []

/-- The call of `c` by `me`: what it runs at once, it runs on `me`. -/
def calls (p : Process Functor) (me : Tid) (c : Call Functor) : Process Functor :=
  match p.sys.loop.call me c with
  | .ok r => { p with sys := { p.sys with loop := r.loop }, ran := p.ran ++ r.ranNow.map fun t => (t, me) }
  | .error x => { p with exited := some x }

def step (p : Process Functor) (e : ProcessEv Functor) : Option (Process Functor) :=
  if p.exited.isSome then none
  else match e with
    | .loop e => (Sys.machine.step p.sys e).map fun sys =>
      { p with sys := sys, ran := p.ran ++ (p.sys.startedTask e).map fun t => (t, p.sys.loop.tid) }
    | .call me c => if me = p.sys.loop.tid ∧ p.sys.pc.inCallback = false then none else some (p.calls me c)

def machine : Machine (Process Functor) (ProcessEv Functor) := ⟨step⟩

/-! ## One step -/

theorem step_exited {p : Process Functor} (h : p.exited ≠ none) (e : ProcessEv Functor) : machine.step p e = none := by
  simp only [machine, step]
  rw [if_pos (Option.isSome_iff_ne_none.mpr h)]

/-- **A call of another thread ends the process**, whatever the loop's thread is doing. -/
theorem step_foreign {p p' : Process Functor} {me : Tid} {c : Call Functor} (hme : me ≠ p.sys.loop.tid)
    (h : machine.step p (.call me c) = some p') : p' = { p with exited := some ⟨1⟩ } := by
  simp only [machine, step] at h
  split at h
  · cases h
  · rw [if_neg (fun hand => hme hand.1), calls, Eventloop.call_other hme] at h
    exact (Option.some.inj h).symm

/-- What holds while no other thread has called. -/
structure Confined (tid : Tid) (p : Process Functor) : Prop where
  owner : p.sys.loop.tid = tid
  exited : p.exited = none
  ran : ∀ r ∈ p.ran, r.2 = tid

theorem confined_new (tid : Tid) : (new tid : Process Functor).Confined tid := ⟨rfl, rfl, by simp [new]⟩

/-- No step of the loop's thread changes whose thread it is. -/
theorem tid_step {Task : Type} {s s' : Sys Task} {e : LoopEv Task} (h : Sys.machine.step s e = some s') :
    s'.loop.tid = s.loop.tid := by
  cases Sys.step_cases h with
  | queInLoop hpc =>
    simp only [Sys.queued, Sys.queuedLoop]
    split
    · exact Eventloop.wakeUp_tid _
    · rfl
  | quitWakeUp hq => exact Eventloop.wakeUp_tid _
  | _ => rfl

theorem Confined.loop_step {tid : Tid} {p p' : Process Functor} {e : LoopEv (LoopTask Functor)} (hp : p.Confined tid)
    (h : machine.step p (.loop e) = some p') : p'.Confined tid := by
  obtain ⟨howner, hexited, hran⟩ := hp
  simp only [machine, step, hexited, Option.isSome_none, Bool.false_eq_true, if_false] at h
  obtain ⟨sys, hsys, rfl⟩ := Option.map_eq_some_iff.mp h
  refine ⟨(tid_step hsys).trans howner, rfl, ?_⟩
  intro r hr
  rcases List.mem_append.mp hr with hr | hr
  · exact hran r hr
  · obtain ⟨t, -, rfl⟩ := List.mem_map.mp hr
    exact howner

theorem Confined.call_step {tid : Tid} {p p' : Process Functor} {c : Call Functor} (hp : p.Confined tid)
    (h : machine.step p (.call tid c) = some p') : p'.Confined tid := by
  obtain ⟨howner, hexited, hran⟩ := hp
  simp only [machine, step, hexited, Option.isSome_none, Bool.false_eq_true, if_false] at h
  split at h
  · cases h
  · obtain ⟨r, hcall, hloop, -⟩ := Eventloop.call_self p.sys.loop c
    rw [howner] at hcall
    rw [calls, hcall] at h
    cases h
    refine ⟨hloop.trans howner, hexited, ?_⟩
    intro r' hr'
    rcases List.mem_append.mp hr' with hr' | hr'
    · exact hran r' hr'
    · obtain ⟨t, -, rfl⟩ := List.mem_map.mp hr'
      rfl

/-! ## Runs -/

/-- A call of a thread other than `tid`. -/
def Foreign (tid : Tid) : ProcessEv Functor → Prop
  | .call me _ => me ≠ tid
  | .loop _ => False

theorem Confined.step {tid : Tid} (p : Process Functor) (e : ProcessEv Functor) (p' : Process Functor)
    (hp : p.Confined tid) (he : ¬ Foreign tid e) (h : machine.step p e = some p') : p'.Confined tid := by
  cases e with
  | loop e => exact hp.loop_step h
  | call me c =>
    rw [Foreign, not_not] at he
    subst he
    exact hp.call_step h

theorem Confined.run {tid : Tid} {es : List (ProcessEv Functor)} {p p' : Process Functor} (hp : p.Confined tid)
    (hes : ∀ e ∈ es, ¬ Foreign tid e) (h : machine.run p es = some p') : p'.Confined tid :=
  machine.run_invariant_of_meets (C := fun _ e => ¬ Foreign tid e) (fun p e p' => Confined.step p e p') es p p' hp
    (machine.meets_of_forall (fun _ => hes) p) h

/-- **A run is still going exactly while no other thread has called.** -/
theorem run_exited_iff {tid : Tid} : ∀ (es : List (ProcessEv Functor)) {p p' : Process Functor}, p.Confined tid →
    machine.run p es = some p' → (p'.exited = none ↔ ∀ e ∈ es, ¬ Foreign tid e)
  | [], p, p', hp, h => by
    rw [Machine.run_nil, Option.some.injEq] at h
    exact ⟨fun _ e he => (List.not_mem_nil he).elim, fun _ => h ▸ hp.exited⟩
  | e :: es, p, p', hp, h => by
    obtain ⟨p1, h1, h2⟩ := machine.run_cons_some h
    by_cases he : Foreign tid e
    · cases e with
      | loop e => exact he.elim
      | call me c =>
        rw [Foreign, ← hp.owner] at he
        have hexited : p1.exited = some ⟨1⟩ := by rw [step_foreign he h1]
        -- nothing follows the exit
        have hp' : p'.exited = some ⟨1⟩ := by
          cases es with
          | nil =>
            rw [Machine.run_nil, Option.some.injEq] at h2
            exact h2 ▸ hexited
          | cons e2 es =>
            obtain ⟨p2, h3, -⟩ := machine.run_cons_some h2
            rw [step_exited (by rw [hexited]; exact Option.some_ne_none _)] at h3
            cases h3
        rw [hp']
        refine ⟨fun hnone => absurd hnone (Option.some_ne_none _), ?_⟩
        intro hall
        exact absurd (hp.owner ▸ he) (hall _ List.mem_cons_self)
    · rw [run_exited_iff es (Confined.step p e p1 hp he h1) h2, List.forall_mem_cons]
      exact ⟨fun hes => ⟨he, hes⟩, And.right⟩

/-- Calls are served at the end of the run `es`: the process is still there, every task was executed by the loop's
thread, and a call that another thread has just made has its task in `pendingList`. -/
def Served (tid : Tid) (es : List (ProcessEv Functor)) (p : Process Functor) : Prop :=
  p.exited = none ∧ (∀ r ∈ p.ran, r.2 = tid) ∧
    ∀ me c, es.getLast? = some (.call me c) → me ≠ tid → c.task ∈ p.sys.loop.pendingList

/-- **Cross-thread submission works in exactly the runs without it**: the calls are served at every point of a run if
and only if no other thread makes one. -/
theorem submits_iff (tid : Tid) (es : List (ProcessEv Functor)) (p : Process Functor)
    (h : machine.run (new tid) es = some p) :
    (∀ fs p', fs <+: es → machine.run (new tid) fs = some p' → p'.Served tid fs) ↔ ∀ e ∈ es, ¬ Foreign tid e := by
  constructor
  · intro hserved
    exact (run_exited_iff es (confined_new tid) h).mp (hserved es p List.prefix_rfl h).1
  · intro hes fs p' hpre hrun
    have hfs : ∀ e ∈ fs, ¬ Foreign tid e := fun e he => hes e (hpre.subset he)
    have hp' := (confined_new tid).run hfs hrun
    refine ⟨hp'.exited, hp'.ran, ?_⟩
    intro me c hlast hme
    exact absurd hme (hfs _ (List.mem_of_getLast? hlast))

/-- Thread 2 asks for a timer while the loop of thread 1 waits. -/
def timerFromOutside : List (ProcessEv Nat) := [.loop .checkLoop, .call 2 (.runAfter 7 1000)]

/-- A timer asked for by another thread ends the process. -/
theorem runAfter_foreign_exits :
    ∃ p, machine.run (new 1) timerFromOutside = some p ∧ p.exited = some ⟨1⟩ ∧ ¬ p.Served 1 timerFromOutside := by
  have hrun : (machine.run (new 1) timerFromOutside).map (fun p => p.exited) = some (some ⟨1⟩) := rfl
  obtain ⟨p, hp, hexited⟩ := Option.map_eq_some_iff.mp hrun
  refine ⟨p, hp, hexited, ?_⟩
  intro hserved
  rw [hserved.1] at hexited
  cases hexited

theorem submits_iff_own_call :
    ∃ p : Process Nat, machine.run (new 1) [.loop .checkLoop, .loop (.epollReturn [.other]), .loop .handle,
      .call 1 (.runInLoop 7)] = some p ∧ p.Served 1 [.loop .checkLoop, .loop (.epollReturn [.other]), .loop .handle,
        .call 1 (.runInLoop 7)] := by
  refine ⟨_, rfl, (submits_iff 1 _ _ rfl).mpr ?_ _ _ List.prefix_rfl rfl⟩
  intro e he
  simp only [List.mem_cons, List.not_mem_nil, or_false] at he
  rcases he with rfl | rfl | rfl | rfl <;> simp [Foreign]

end Process

end NetImitate
