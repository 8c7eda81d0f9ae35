import NetImitate.Eventloop.Quit

/-!
# Destroying a `Threadpoll`

The members go in the reverse order of their declaration: `threadPoll` before `loopList`, and of an `Eventloopthread`
the reference `loop` before `threadLoop`, whose destructor joins the thread. The threads are in `loop()`.

* `Teardown`, `machine` : the destroying thread, the loops' threads and the pool's references to the loops; `Step`;
* `AtPlace` : what holds at each place of the destroying thread; `AtPlace.step`;
* `loops_outlive_threads` : the pool has a reference to each loop whose thread is in `loop()`;
* `teardown_returns` : the destructor is never stuck, and returns once the threads that are to stop go on.
-/

namespace NetImitate

/-- Where the destroying thread is. -/
inductive TeardownPc where
  /-- In `~Eventloopthread` of `threadPoll[i]`, before the two steps of `quit()`. -/
  | quitClear (i : Nat)
  | quitWakeUp (i : Nat)
  /-- About to drop its `loop`. -/
  | release (i : Nat)
  /-- In `~Thread` of its `threadLoop`. -/
  | join (i : Nat)
  /-- About to drop `loopList[i]`. -/
  | unlist (i : Nat)
  | returned
deriving DecidableEq

structure Teardown (Task : Type) where
  numOfThread : Nat
  threads : Nat → Sys Task
  /-- `threadPoll[i]` holds its `loop`. -/
  loop : Nat → Bool
  /-- `loopList[i]` holds the loop. -/
  loopList : Nat → Bool
  pc : TeardownPc

inductive TeardownEv (Task : Type) where
  /-- The next step of the destroying thread. -/
  | destroy
  /-- A step of the `i`-th loop: of its thread, or of a `quit()` from elsewhere. -/
  | thread (i : Nat) (e : LoopEv Task)

namespace TeardownPc

/-- On to `loopList[i]`, if there is one. -/
def listFrom (n i : Nat) : TeardownPc := if i < n then .unlist i else .returned

/-- On to `threadPoll[i]`, if there is one. -/
def threadFrom (n i : Nat) : TeardownPc := if i < n then .quitClear i else listFrom n 0

/-- How many threads have been joined. -/
def joined (n : Nat) : TeardownPc → Nat
  | .quitClear i | .quitWakeUp i | .release i | .join i => i
  | .unlist _ | .returned => n

/-- How many of the threads' references have been dropped. -/
def released (n : Nat) : TeardownPc → Nat
  | .quitClear i | .quitWakeUp i | .release i => i
  | .join i => i + 1
  | .unlist _ | .returned => n

/-- How many of the references in `loopList` have been dropped. -/
def unlisted (n : Nat) : TeardownPc → Nat
  | .quitClear _ | .quitWakeUp _ | .release _ | .join _ => 0
  | .unlist i => i
  | .returned => n

/-- The index a place has is in range. -/
def Within (n : Nat) : TeardownPc → Prop
  | .quitClear i | .quitWakeUp i | .release i | .join i | .unlist i => i < n
  | .returned => True

/-- How many steps the destroying thread has still to take. -/
def left (n : Nat) : TeardownPc → Nat
  | .quitClear i => n + 4 * (n - i)
  | .quitWakeUp i => n + 4 * (n - i) - 1
  | .release i => n + 4 * (n - i) - 2
  | .join i => n + 4 * (n - i) - 3
  | .unlist i => n - i
  | .returned => 0

section Next
variable {n i : Nat}

theorem within_listFrom : (listFrom n i).Within n := by
  unfold listFrom
  split
  · assumption
  · trivial

theorem within_threadFrom : (threadFrom n i).Within n := by
  unfold threadFrom
  split
  · assumption
  · exact within_listFrom

@[simp] theorem joined_listFrom : (listFrom n i).joined n = n := by
  unfold listFrom
  split <;> rfl

theorem joined_threadFrom (hi : i ≤ n) : (threadFrom n i).joined n = i := by
  unfold threadFrom
  split
  · rfl
  · rw [joined_listFrom]
    omega

@[simp] theorem released_listFrom : (listFrom n i).released n = n := by
  unfold listFrom
  split <;> rfl

theorem released_threadFrom (hi : i ≤ n) : (threadFrom n i).released n = i := by
  unfold threadFrom
  split
  · rfl
  · rw [released_listFrom]
    omega

theorem unlisted_listFrom (hi : i ≤ n) : (listFrom n i).unlisted n = i := by
  unfold listFrom
  split
  · rfl
  · show n = i
    omega

theorem unlisted_threadFrom : (threadFrom n i).unlisted n = 0 := by
  unfold threadFrom
  split
  · rfl
  · exact unlisted_listFrom (Nat.zero_le n)

theorem left_listFrom : (listFrom n i).left n = n - i := by
  unfold listFrom
  split
  · rfl
  · show 0 = n - i
    omega

theorem left_threadFrom (hi : i < n) : (threadFrom n (i + 1)).left n < (join i).left n := by
  unfold threadFrom
  split
  · simp only [left]
    omega
  · rw [left_listFrom]
    simp only [left]
    omega

end Next

end TeardownPc

namespace Teardown
variable {Task : Type}

/-- The pool when its destructor is called. -/
def start (n : Nat) (threads : Nat → Sys Task) : Teardown Task where
  numOfThread := n
  threads := threads
  loop := fun _ => true
  loopList := fun _ => true
  pc := .threadFrom n 0

/-- The `i`-th loop after one of its steps, and the destroying thread at `pc`. -/
def loopStep (s : Teardown Task) (i : Nat) (e : LoopEv Task) (pc : TeardownPc) : Option (Teardown Task) :=
  (Sys.machine.step (s.threads i) e).map fun t => { s with threads := Function.update s.threads i t, pc := pc }

/-- The second step of a `quit()` that only the destroying thread is in. -/
def completes (s : Teardown Task) (i : Nat) : LoopEv Task → Bool
  | .quitWakeUp => s.pc = .quitWakeUp i ∧ (s.threads i).quitting ≤ 1
  | _ => false

def step (s : Teardown Task) : TeardownEv Task → Option (Teardown Task)
  | .destroy => match s.pc with
    | .quitClear i => s.loopStep i .quitClear (.quitWakeUp i)
    | .quitWakeUp i => s.loopStep i .quitWakeUp (.release i)
    | .release i => some { s with loop := Function.update s.loop i false, pc := .join i }
    | .join i => match (s.threads i).pc with
      | .stopped => some { s with pc := .threadFrom s.numOfThread (i + 1) }
      | _ => none
    | .unlist i =>
      some { s with loopList := Function.update s.loopList i false, pc := .listFrom s.numOfThread (i + 1) }
    | .returned => none
  | .thread i e => if i < s.numOfThread ∧ s.completes i e = false then s.loopStep i e s.pc else none

def machine : Machine (Teardown Task) (TeardownEv Task) := ⟨step⟩

/-- Everything a step can do. -/
inductive Step (s : Teardown Task) : TeardownEv Task → Teardown Task → Prop
  | quitClear {i : Nat} {t : Sys Task} (hpc : s.pc = .quitClear i)
      (ht : Sys.machine.step (s.threads i) .quitClear = some t) :
      Step s .destroy { s with threads := Function.update s.threads i t, pc := .quitWakeUp i }
  | quitWakeUp {i : Nat} {t : Sys Task} (hpc : s.pc = .quitWakeUp i)
      (ht : Sys.machine.step (s.threads i) .quitWakeUp = some t) :
      Step s .destroy { s with threads := Function.update s.threads i t, pc := .release i }
  | release {i : Nat} (hpc : s.pc = .release i) :
      Step s .destroy { s with loop := Function.update s.loop i false, pc := .join i }
  | join {i : Nat} (hpc : s.pc = .join i) (hstopped : (s.threads i).pc = .stopped) :
      Step s .destroy { s with pc := .threadFrom s.numOfThread (i + 1) }
  | unlist {i : Nat} (hpc : s.pc = .unlist i) :
      Step s .destroy
        { s with loopList := Function.update s.loopList i false, pc := .listFrom s.numOfThread (i + 1) }
  | thread {i : Nat} {e : LoopEv Task} {t : Sys Task} (hi : i < s.numOfThread) (hother : s.completes i e = false)
      (ht : Sys.machine.step (s.threads i) e = some t) :
      Step s (.thread i e) { s with threads := Function.update s.threads i t }

theorem step_cases {s s' : Teardown Task} {e : TeardownEv Task} (h : machine.step s e = some s') : Step s e s' := by
  cases e with
  | destroy =>
    simp only [machine, step] at h
    split at h
    case h_1 i hpc =>
      obtain ⟨t, ht, rfl⟩ := Option.map_eq_some_iff.mp h
      exact .quitClear hpc ht
    case h_2 i hpc =>
      obtain ⟨t, ht, rfl⟩ := Option.map_eq_some_iff.mp h
      exact .quitWakeUp hpc ht
    case h_3 i hpc =>
      cases h
      exact .release hpc
    case h_4 i hpc =>
      split at h
      · cases h
        exact .join hpc ‹_›
      · cases h
    case h_5 i hpc =>
      cases h
      exact .unlist hpc
    case h_6 => cases h
  | thread i e =>
    obtain ⟨⟨hi, hother⟩, hstep⟩ := Option.ite_none_right_eq_some.mp h
    obtain ⟨t, ht, rfl⟩ := Option.map_eq_some_iff.mp hstep
    exact .thread hi hother ht

/-! ## A step of one loop -/

theorem stopped_step {t t' : Sys Task} {e : LoopEv Task} (hpc : t.pc = .stopped)
    (h : Sys.machine.step t e = some t') : t'.pc = .stopped := by
  cases Sys.step_cases h with
  | queInLoop | quitClear | quitWakeUp => exact hpc
  | stop => rfl
  | check h' | epollReturn h' | wakeup h' | handler h' | handlerReturn h' | swap h' | enter h'
  | startTask h' | taskReturn h' | leave h' =>
    rw [hpc] at h'
    cases h'

/-- A `quit()` that has begun stays so, unless this step completes it. -/
theorem quitting_step {t t' : Sys Task} {e : LoopEv Task} (h : Sys.machine.step t e = some t')
    (hpos : 0 < t.quitting) (he : e = .quitWakeUp → 2 ≤ t.quitting) : 0 < t'.quitting := by
  cases Sys.step_cases h with
  | quitClear => exact Nat.succ_pos _
  | quitWakeUp hq =>
    have htwo := he rfl
    show 0 < t.quitting - 1
    omega
  | _ => exact hpos

/-- What the steps of one loop keep of each of the threads. -/
theorem update_keeps {I : Sys Task → Prop} {threads : Nat → Sys Task} {i j : Nat} {t : Sys Task}
    (hstep : I (threads i) → I t) (hj : I (threads j)) : I (Function.update threads i t j) := by
  by_cases hij : j = i
  · rw [hij, Function.update_self]
    exact hstep (hij ▸ hj)
  · rwa [Function.update_of_ne hij]

/-- Of the references held from `i` on, the first one is dropped. -/
theorem update_released {held : Nat → Bool} {i j : Nat} (hj : held j = decide (i ≤ j)) :
    Function.update held i false j = decide (i + 1 ≤ j) := by
  by_cases hij : j = i
  · rw [hij, Function.update_self]
    exact (decide_eq_false (by omega)).symm
  · rw [Function.update_of_ne hij, hj]
    exact decide_eq_decide.mpr (by omega)

/-! ## What holds at each place -/

/-- The `quit()` of the destroying thread, begun or completed. -/
def HasQuit (s : Teardown Task) : TeardownPc → Prop
  | .quitWakeUp i => 0 < (s.threads i).quitting
  | .release i | .join i => 0 < (s.threads i).quitDone
  | _ => True

theorem hasQuit_listFrom (s : Teardown Task) (n i : Nat) : s.HasQuit (.listFrom n i) := by
  unfold TeardownPc.listFrom
  split <;> trivial

theorem hasQuit_threadFrom (s : Teardown Task) (n i : Nat) : s.HasQuit (.threadFrom n i) := by
  unfold TeardownPc.threadFrom
  split
  · trivial
  · exact s.hasQuit_listFrom n 0

structure AtPlace (s : Teardown Task) : Prop where
  within : s.pc.Within s.numOfThread
  stopped : ∀ i < s.pc.joined s.numOfThread, (s.threads i).pc = .stopped
  loop : ∀ i < s.numOfThread, s.loop i = decide (s.pc.released s.numOfThread ≤ i)
  loopList : ∀ i < s.numOfThread, s.loopList i = decide (s.pc.unlisted s.numOfThread ≤ i)
  hasQuit : s.HasQuit s.pc

/-- The same with the place named. -/
theorem AtPlace.at {s : Teardown Task} {pc : TeardownPc} (hs : s.AtPlace) (hpc : s.pc = pc) :
    pc.Within s.numOfThread ∧ (∀ i < pc.joined s.numOfThread, (s.threads i).pc = .stopped) ∧
      (∀ i < s.numOfThread, s.loop i = decide (pc.released s.numOfThread ≤ i)) ∧
      (∀ i < s.numOfThread, s.loopList i = decide (pc.unlisted s.numOfThread ≤ i)) ∧ s.HasQuit pc := by
  subst hpc
  exact ⟨hs.within, hs.stopped, hs.loop, hs.loopList, hs.hasQuit⟩

theorem atPlace_start (n : Nat) (threads : Nat → Sys Task) : (start n threads).AtPlace where
  within := TeardownPc.within_threadFrom
  stopped := by
    intro i hi
    rw [start, TeardownPc.joined_threadFrom (Nat.zero_le n)] at hi
    exact absurd hi (Nat.not_lt_zero i)
  loop := by
    intro i _
    rw [start, TeardownPc.released_threadFrom (Nat.zero_le n)]
    rfl
  loopList := by
    intro i _
    rw [start, TeardownPc.unlisted_threadFrom]
    rfl
  hasQuit := hasQuit_threadFrom _ n 0

/-- A step of one loop, with the destroying thread at a place with the same counts. -/
theorem AtPlace.loopStep {s : Teardown Task} {pc : TeardownPc} {i : Nat} {e : LoopEv Task} {t : Sys Task}
    (hs : s.AtPlace) (ht : Sys.machine.step (s.threads i) e = some t) (hwithin : pc.Within s.numOfThread)
    (hjoined : pc.joined s.numOfThread = s.pc.joined s.numOfThread)
    (hreleased : pc.released s.numOfThread = s.pc.released s.numOfThread)
    (hunlisted : pc.unlisted s.numOfThread = s.pc.unlisted s.numOfThread)
    (hquit : HasQuit { s with threads := Function.update s.threads i t } pc) :
    AtPlace { s with threads := Function.update s.threads i t, pc := pc } where
  within := hwithin
  stopped := by
    intro j hj
    rw [hjoined] at hj
    exact update_keeps (I := fun t => t.pc = .stopped) (fun hpc => stopped_step hpc ht) (hs.stopped j hj)
  loop := by
    intro j hj
    rw [hreleased]
    exact hs.loop j hj
  loopList := by
    intro j hj
    rw [hunlisted]
    exact hs.loopList j hj
  hasQuit := hquit

theorem HasQuit.thread {s : Teardown Task} {i : Nat} {e : LoopEv Task} {t : Sys Task} (hs : s.HasQuit s.pc)
    (hother : s.completes i e = false) (ht : Sys.machine.step (s.threads i) e = some t) :
    HasQuit { s with threads := Function.update s.threads i t } s.pc := by
  cases hpc : s.pc with
  | quitClear | unlist | returned => trivial
  | release j | join j =>
    rw [hpc] at hs
    exact update_keeps (I := fun t => 0 < t.quitDone) (fun hq => hq.trans_le (Sys.quitDone_step ht)) hs
  | quitWakeUp j =>
    rw [hpc] at hs
    show 0 < (Function.update s.threads i t j).quitting
    by_cases hij : j = i
    · rw [hij, Function.update_self]
      rw [hij] at hs hpc
      apply quitting_step ht hs
      -- another `quit()` completes, with that of the destroying thread still begun
      rintro rfl
      have hmore : ¬ (s.threads i).quitting ≤ 1 := fun hle => of_decide_eq_false hother ⟨hpc, hle⟩
      omega
    · rw [Function.update_of_ne hij]
      exact hs

theorem AtPlace.step {s s' : Teardown Task} {e : TeardownEv Task} (hs : s.AtPlace)
    (h : machine.step s e = some s') : s'.AtPlace := by
  cases step_cases h with
  | @quitClear i t hpc ht =>
    refine hs.loopStep ht (hs.at hpc).1 (by rw [hpc]; rfl) (by rw [hpc]; rfl) (by rw [hpc]; rfl) ?_
    show 0 < (Function.update s.threads i t i).quitting
    rw [Function.update_self]
    cases ht
    exact Nat.succ_pos _
  | @quitWakeUp i t hpc ht =>
    refine hs.loopStep ht (hs.at hpc).1 (by rw [hpc]; rfl) (by rw [hpc]; rfl) (by rw [hpc]; rfl) ?_
    show 0 < (Function.update s.threads i t i).quitDone
    rw [Function.update_self]
    obtain ⟨-, heq⟩ := Option.ite_none_right_eq_some.mp ht
    cases heq
    exact Nat.succ_pos _
  | @release i hpc =>
    obtain ⟨hwithin, hstopped, hloop, hlist, hquit⟩ := hs.at hpc
    exact ⟨hwithin, hstopped, fun j hj => update_released (hloop j hj), hlist, hquit⟩
  | @join i hpc hend =>
    obtain ⟨hi, hstopped, hloop, hlist, -⟩ := hs.at hpc
    refine ⟨TeardownPc.within_threadFrom, ?_, ?_, ?_, ?_⟩
    · intro j hj
      rw [TeardownPc.joined_threadFrom hi] at hj
      rcases Nat.lt_succ_iff_lt_or_eq.mp hj with hlt | rfl
      · exact hstopped j hlt
      · exact hend
    · intro j hj
      rw [TeardownPc.released_threadFrom hi]
      exact hloop j hj
    · intro j hj
      rw [TeardownPc.unlisted_threadFrom]
      exact hlist j hj
    · exact hasQuit_threadFrom _ _ _
  | @unlist i hpc =>
    obtain ⟨hi, hstopped, hloop, hlist, -⟩ := hs.at hpc
    refine ⟨TeardownPc.within_listFrom, ?_, ?_, ?_, ?_⟩
    · intro j hj
      rw [TeardownPc.joined_listFrom] at hj
      exact hstopped j hj
    · intro j hj
      rw [TeardownPc.released_listFrom]
      exact hloop j hj
    · intro j hj
      rw [TeardownPc.unlisted_listFrom hi]
      exact update_released (hlist j hj)
    · exact hasQuit_listFrom _ _ _
  | thread hi hother ht => exact hs.loopStep ht hs.within rfl rfl rfl (hs.hasQuit.thread hother ht)

theorem numOfThread_step {s s' : Teardown Task} {e : TeardownEv Task} (h : machine.step s e = some s') :
    s'.numOfThread = s.numOfThread := by
  cases step_cases h <;> rfl

theorem atPlace_run {n : Nat} {threads : Nat → Sys Task} {es : List (TeardownEv Task)} {s : Teardown Task}
    (h : machine.run (start n threads) es = some s) : s.AtPlace ∧ s.numOfThread = n :=
  machine.run_invariant (I := fun s => s.AtPlace ∧ s.numOfThread = n)
    (fun _ _ _ hs h => ⟨hs.1.step h, (numOfThread_step h).trans hs.2⟩) es _ s ⟨atPlace_start n threads, rfl⟩ h

/-! ## The loops outlive their threads -/

/-- `loopList` holds every loop until it goes, and it goes when all the threads have been joined. -/
theorem AtPlace.listed {s : Teardown Task} (hs : s.AtPlace) {i : Nat} (hi : i < s.numOfThread)
    (hpc : (s.threads i).pc ≠ .stopped) : s.loopList i = true := by
  have hjoined : s.pc.joined s.numOfThread ≤ i := by
    by_contra hlt
    exact hpc (hs.stopped i (not_le.mp hlt))
  rw [hs.loopList i hi]
  apply decide_eq_true
  revert hjoined
  cases s.pc <;> simp only [TeardownPc.joined, TeardownPc.unlisted] <;> omega

/-- **The loops outlive their threads.** While the pool is being destroyed, it has a reference to the loop of every
thread that is in `loop()`; and when the destructor returns, every thread has ended and no reference is left. -/
theorem loops_outlive_threads (n : Nat) (threads : Nat → Sys Task) (es : List (TeardownEv Task)) (s : Teardown Task)
    (h : machine.run (start n threads) es = some s) :
    (∀ i < n, (s.threads i).pc ≠ .stopped → s.loopList i = true) ∧
      (s.pc = .returned → ∀ i < n, (s.threads i).pc = .stopped ∧ s.loop i = false ∧ s.loopList i = false) := by
  obtain ⟨hs, rfl⟩ := atPlace_run h
  refine ⟨fun i hi hpc => hs.listed hi hpc, ?_⟩
  intro hpc i hi
  obtain ⟨-, hstopped, hloop, hlist, -⟩ := hs.at hpc
  have hlate : decide (s.numOfThread ≤ i) = false := decide_eq_false (by omega)
  exact ⟨hstopped i hi, (hloop i hi).trans hlate, (hlist i hi).trans hlate⟩

/-- One thread, at the test of `isLoop`. -/
def oneThread : Teardown Nat := start 1 fun _ => Sys.new 1

/-- The thread stops and is joined. -/
def oneThreadJoined : List (TeardownEv Nat) :=
  [.destroy, .destroy, .destroy, .thread 0 .checkLoop, .destroy, .destroy]

theorem loops_outlive_threads_oneThreadJoined :
    ∃ s, machine.run oneThread oneThreadJoined = some s ∧ s.pc = .returned ∧ (s.threads 0).pc = .stopped ∧
      s.loop 0 = false ∧ s.loopList 0 = false := by
  obtain ⟨s, hs, hpc⟩ : ∃ s, machine.run oneThread oneThreadJoined = some s ∧ s.pc = .returned := ⟨_, rfl, rfl⟩
  exact ⟨s, hs, hpc, (loops_outlive_threads 1 (fun _ => Sys.new 1) oneThreadJoined s hs).2 hpc 0 (by decide)⟩

/-! ## The destructor returns -/

/-- Each of the loops is awake, so that a completed `quit()` is not missed. -/
def AllAwake (s : Teardown Task) : Prop := ∀ i < s.numOfThread, (s.threads i).Awake

theorem AllAwake.step {s s' : Teardown Task} {e : TeardownEv Task} (hs : s.AllAwake)
    (h : machine.step s e = some s') : s'.AllAwake := by
  cases step_cases h with
  | quitClear hpc ht | quitWakeUp hpc ht | thread hi hother ht =>
    intro j hj
    exact update_keeps (I := Sys.Awake) (fun hi => hi.step ht) (hs j hj)
  | release | join | unlist => exact hs

/-- Only the destroying thread moves on, and each of its steps leads nearer to the end. -/
theorem left_step {s s' : Teardown Task} {e : TeardownEv Task} (hs : s.AtPlace) (h : machine.step s e = some s') :
    s'.pc.left s'.numOfThread ≤ s.pc.left s.numOfThread ∧
      (e = .destroy → s'.pc.left s'.numOfThread < s.pc.left s.numOfThread) := by
  have hlt : e = .destroy → s'.pc.left s'.numOfThread < s.pc.left s.numOfThread := by
    intro he
    cases step_cases h with
    | @quitClear i t hpc ht | @quitWakeUp i t hpc ht | @release i hpc =>
      have hi : i < s.numOfThread := (hs.at hpc).1
      rw [hpc]
      simp only [TeardownPc.left]
      omega
    | join hpc hend =>
      rw [hpc]
      exact TeardownPc.left_threadFrom (hs.at hpc).1
    | @unlist i hpc =>
      have hi : i < s.numOfThread := (hs.at hpc).1
      rw [hpc, TeardownPc.left_listFrom]
      simp only [TeardownPc.left]
      omega
    | thread => cases he
  refine ⟨?_, hlt⟩
  cases step_cases h with
  | thread => exact le_rfl
  | _ => exact (hlt rfl).le

/-- Where the destructor has not returned, it can go on, or it waits for a thread that is to stop. -/
theorem destroys_or_joins {s : Teardown Task} (hs : s.AtPlace) (hpc : s.pc ≠ .returned) :
    (∃ s', machine.step s .destroy = some s') ∨
      ∃ i < s.numOfThread, s.pc = .join i ∧ (s.threads i).pc ≠ .stopped ∧ 0 < (s.threads i).quitDone := by
  cases hat : s.pc with
  | quitClear i => exact Or.inl ⟨_, by simp only [machine, step, hat, loopStep]; rfl⟩
  | quitWakeUp i =>
    obtain ⟨-, -, -, -, hquit⟩ := hs.at hat
    have hstep : ∃ t, Sys.machine.step (s.threads i) .quitWakeUp = some t := ⟨_, if_pos hquit⟩
    obtain ⟨t, ht⟩ := hstep
    exact Or.inl ⟨_, by simp only [machine, step, hat, loopStep, ht]; rfl⟩
  | release i => exact Or.inl ⟨_, by simp only [machine, step, hat]; rfl⟩
  | join i =>
    obtain ⟨hi, -, -, -, hquit⟩ := hs.at hat
    by_cases hend : (s.threads i).pc = .stopped
    · exact Or.inl ⟨_, by simp only [machine, step, hat, hend]; rfl⟩
    · exact Or.inr ⟨i, hi, rfl, hend, hquit⟩
  | unlist i => exact Or.inl ⟨_, by simp only [machine, step, hat]; rfl⟩
  | returned => exact absurd hat hpc

/-- A step of the `j`-th loop is, to the `i`-th, that step or nothing. -/
theorem update_cases {threads : Nat → Sys Task} {j : Nat} {e : LoopEv Task} {t : Sys Task}
    (ht : Sys.machine.step (threads j) e = some t) (i : Nat) :
    (i ≠ j ∧ Function.update threads j t i = threads i) ∨
      (i = j ∧ Sys.machine.step (threads i) e = some (Function.update threads j t i)) := by
  by_cases hij : i = j
  · refine Or.inr ⟨hij, ?_⟩
    rw [hij, Function.update_self]
    exact ht
  · exact Or.inl ⟨hij, Function.update_of_ne hij _ _⟩

/-- To the `i`-th thread a step of the whole is a step of its loop, or nothing. -/
theorem thread_cases {s s' : Teardown Task} {e : TeardownEv Task} (h : machine.step s e = some s') (i : Nat) :
    (s'.threads i = s.threads i ∧ ∀ e', e ≠ .thread i e') ∨
      ∃ e', Sys.machine.step (s.threads i) e' = some (s'.threads i) ∧ ∀ e'', e = .thread i e'' → e'' = e' := by
  cases step_cases h with
  | quitClear hpc ht | quitWakeUp hpc ht =>
    rcases update_cases ht i with ⟨-, hsame⟩ | ⟨-, hstep⟩
    · exact Or.inl ⟨hsame, fun e' he => by cases he⟩
    · exact Or.inr ⟨_, hstep, fun e'' he => by cases he⟩
  | thread hj hother ht =>
    rcases update_cases ht i with ⟨hij, hsame⟩ | ⟨-, hstep⟩
    · exact Or.inl ⟨hsame, fun e' he => hij (TeardownEv.thread.inj he).1.symm⟩
    · exact Or.inr ⟨_, hstep, fun e'' he => (TeardownEv.thread.inj he).2.symm⟩
  | release | join | unlist => exact Or.inl ⟨rfl, fun e' he => by cases he⟩

/-- A thread that goes on with `isLoop` false comes nearer to the end of `loop()`; nothing takes it away from it. -/
theorem distance_step {s s' : Teardown Task} {e : TeardownEv Task} {i : Nat}
    (hquit : (s.threads i).loop.isLoop = false) (h : machine.step s e = some s') :
    (s'.threads i).distance ≤ (s.threads i).distance ∧
      ((∃ e', e = .thread i e' ∧ e'.isOwn = true) → (s'.threads i).distance < (s.threads i).distance) := by
  rcases thread_cases h i with ⟨heq, hne⟩ | ⟨e', hstep, he'⟩
  · rw [heq]
    exact ⟨le_rfl, fun ⟨e', he, _⟩ => absurd he (hne e')⟩
  · obtain ⟨hle, hlt⟩ := Sys.distance_step hquit hstep
    refine ⟨hle, ?_⟩
    rintro ⟨e'', he, hown⟩
    exact hlt (he' e'' he ▸ hown)

theorem stopped_thread_step {s s' : Teardown Task} {e : TeardownEv Task} {i : Nat}
    (hpc : (s.threads i).pc = .stopped) (h : machine.step s e = some s') : (s'.threads i).pc = .stopped := by
  rcases thread_cases h i with ⟨heq, -⟩ | ⟨e', hstep, -⟩
  · rw [heq]
    exact hpc
  · exact stopped_step hpc hstep

theorem quitDone_step {s s' : Teardown Task} {e : TeardownEv Task} (h : machine.step s e = some s') (i : Nat) :
    (s.threads i).quitDone ≤ (s'.threads i).quitDone := by
  rcases thread_cases h i with ⟨heq, -⟩ | ⟨e', hstep, -⟩
  · rw [heq]
  · exact Sys.quitDone_step hstep

theorem pc_step {s s' : Teardown Task} {e : TeardownEv Task} (he : e ≠ .destroy)
    (h : machine.step s e = some s') : s'.pc = s.pc := by
  cases step_cases h with
  | thread => rfl
  | _ => exact absurd rfl he

/-- When the destroying thread has taken its last step it stays where it is. -/
theorem pc_stays {t : ℕ → Teardown Task} {ev : ℕ → TeardownEv Task} (hexec : machine.Execution t ev) {N : ℕ}
    (hN : ∀ k ≥ N, ev k ≠ .destroy) {k m : ℕ} (hk : N ≤ k) (hm : k ≤ m) : (t m).pc = (t k).pc := by
  induction m, hm using Nat.le_induction with
  | base => rfl
  | succ m hm ih => exact (pc_step (hN m (hk.trans hm)) (hexec m)).trans ih

/-- A thread whose loop has been told to quit comes to its end. -/
theorem thread_stops {t : ℕ → Teardown Task} {ev : ℕ → TeardownEv Task} (hexec : machine.Execution t ev)
    (hawake : ∀ k, (t k).AllAwake) {i : Nat} (hi : ∀ k, i < (t k).numOfThread)
    (hfair : ∀ k, 0 < ((t k).threads i).quitDone → ((t k).threads i).pc ≠ .stopped →
      ∃ m ≥ k, ∃ e, ev m = .thread i e ∧ e.isOwn = true)
    {k : ℕ} (hquit : 0 < ((t k).threads i).quitDone) : ∃ m ≥ k, ((t m).threads i).pc = .stopped := by
  have hdone : ∀ j, 0 < ((t (k + j)).threads i).quitDone :=
    (hexec.drop k).invariant (I := fun s => 0 < (s.threads i).quitDone)
      (fun _ _ _ hs h => hs.trans_le (quitDone_step h i)) hquit
  have hloop : ∀ j, ((t (k + j)).threads i).loop.isLoop = false := fun j =>
    (hawake (k + j) i (hi (k + j))).quit (Nat.add_pos_right _ (hdone j))
  obtain ⟨N, hN⟩ := (hexec.drop k).finitely_often (E := fun e => ∃ e', e = .thread i e' ∧ e'.isOwn = true) hloop
    fun s e s' hs _ h => distance_step hs h
  refine ⟨k + N, Nat.le_add_right k N, ?_⟩
  by_contra hpc
  obtain ⟨m, hm, e, he, hown⟩ := hfair (k + N) (hdone N) hpc
  obtain ⟨j, rfl⟩ := Nat.exists_eq_add_of_le (Nat.le_trans (Nat.le_add_right k N) hm)
  exact hN j (by omega) ⟨e, he, hown⟩

/-- **The destructor returns.** Until it has, it can go on or waits for a thread that can; and in a run without end in
which the destroying thread goes on when it can, as does each thread whose loop has been told to quit, it returns. -/
theorem teardown_returns (n : Nat) (threads : Nat → Sys Task)
    (hthreads : ∀ i < n, ∃ tid es, Sys.machine.run (Sys.new tid) es = some (threads i)) :
    (∀ es s, machine.run (start n threads) es = some s → s.pc ≠ .returned →
      (∃ s', machine.step s .destroy = some s') ∨
        ∃ i < n, s.pc = .join i ∧ ∃ e, e.isOwn = true ∧ ∃ s', machine.step s (.thread i e) = some s') ∧
    ∀ t ev, machine.Execution t ev → t 0 = start n threads →
      (∀ k s', machine.step (t k) .destroy = some s' → ∃ m ≥ k, ev m = .destroy) →
      (∀ i < n, ∀ k, 0 < ((t k).threads i).quitDone → ((t k).threads i).pc ≠ .stopped →
        ∃ m ≥ k, ∃ e, ev m = .thread i e ∧ e.isOwn = true) →
      ∃ N, ∀ k ≥ N, (t k).pc = .returned := by
  have hstart : (start n threads).AllAwake := by
    intro i hi
    obtain ⟨tid, es, hrun⟩ := hthreads i hi
    exact Sys.awake_run hrun
  have hawake : ∀ es s, machine.run (start n threads) es = some s → s.AllAwake := fun es s h =>
    machine.run_invariant (fun _ _ _ hs h => AllAwake.step hs h) es _ s hstart h
  constructor
  · intro es s h hpc
    obtain ⟨hs, hn⟩ := atPlace_run h
    rcases destroys_or_joins hs hpc with hdestroy | ⟨i, hi, hat, hend, hquit⟩
    · exact Or.inl hdestroy
    · obtain ⟨e, hown, t, ht⟩ := Sys.own_enabled (hawake es s h i hi) hquit hend
      refine Or.inr ⟨i, hn ▸ hi, hat, e, hown, ?_⟩
      have hother : s.completes i e = false := by
        cases e <;> first | rfl | cases hown
      exact ⟨_, by simp only [machine, step, hi, hother, and_self, if_true, loopStep, ht]; rfl⟩
  · intro t ev hexec h0 hdestroy hown
    have hrun := fun k => h0 ▸ hexec.run k
    have hplace := fun k => (atPlace_run (hrun k)).1
    have hnum := fun k => (atPlace_run (hrun k)).2
    obtain ⟨N, hN⟩ := hexec.finitely_often (E := fun e => e = .destroy) hplace fun s e s' hs _ h => left_step hs h
    have hstuck : ∀ k ≥ N, ∀ s', machine.step (t k) .destroy ≠ some s' := by
      intro k hk s' hstep
      obtain ⟨m, hm, he⟩ := hdestroy k s' hstep
      exact hN m (hk.trans hm) he
    refine ⟨N, fun k hk => ?_⟩
    by_contra hpc
    -- it would be waiting for a thread, which comes to its end
    rcases destroys_or_joins (hplace k) hpc with ⟨s', hs'⟩ | ⟨i, hi, hat, -, hquit⟩
    · exact hstuck k hk s' hs'
    · have hin : ∀ k, i < (t k).numOfThread := fun j => (hnum j).symm ▸ hnum k ▸ hi
      obtain ⟨m, hm, hend⟩ := thread_stops hexec (fun j => hawake _ _ (hrun j)) hin (hown i (hnum k ▸ hi)) hquit
      apply hstuck m (hk.trans hm)
      simp only [machine, step, pc_stays hexec hN hk hm, hat, hend]
      rfl

/-- The run of `oneThreadJoined`, and then further calls of `quit()`. -/
def joinedEv (n : Nat) : TeardownEv Nat := oneThreadJoined.getD n (.thread 0 .quitClear)

def joinedAt : Nat → Teardown Nat
  | 0 => oneThread
  | n + 1 => (machine.step (joinedAt n) (joinedEv n)).getD (joinedAt n)

theorem joinedAt_succ {n : Nat} {s : Teardown Nat} (h : machine.step (joinedAt n) (joinedEv n) = some s) :
    joinedAt (n + 1) = s := by
  rw [joinedAt, h]
  rfl

theorem quitClear_step {s : Teardown Task} (hn : s.numOfThread = 1) :
    ∃ s', machine.step s (.thread 0 .quitClear) = some s' ∧ s'.pc = s.pc ∧ s'.numOfThread = 1 :=
  ⟨_, if_pos ⟨by rw [hn]; exact Nat.one_pos, rfl⟩, rfl, hn⟩

theorem joinedAt_late (n : Nat) : (joinedAt (n + 6)).pc = .returned ∧ (joinedAt (n + 6)).numOfThread = 1 := by
  induction n with
  | zero => exact ⟨rfl, rfl⟩
  | succ n ih =>
    obtain ⟨s, hs, hpc, hn⟩ := quitClear_step ih.2
    rw [joinedAt_succ (n := n + 6) hs]
    exact ⟨hpc.trans ih.1, hn⟩

theorem teardown_returns_joinedAt : ∃ N, ∀ k ≥ N, (joinedAt k).pc = .returned := by
  have hexec : machine.Execution joinedAt joinedEv := by
    intro n
    rcases Nat.lt_or_ge n 6 with hn | hn
    · interval_cases n <;> rfl
    · obtain ⟨k, rfl⟩ := Nat.exists_eq_add_of_le' hn
      obtain ⟨s, hs, -⟩ := quitClear_step (joinedAt_late k).2
      rw [joinedAt_succ (n := k + 6) hs]
      exact hs
  apply (teardown_returns 1 (fun _ => Sys.new 1) fun i _ => ⟨1, [], rfl⟩).2 joinedAt joinedEv hexec rfl
  · intro n s hstep
    rcases Nat.lt_or_ge n 6 with hn | hn
    · exact ⟨5, by omega, rfl⟩
    · obtain ⟨k, rfl⟩ := Nat.exists_eq_add_of_le' hn
      simp only [machine, step, (joinedAt_late k).1] at hstep
      cases hstep
  · intro i hi n _ hpc
    obtain rfl : i = 0 := by omega
    rcases Nat.lt_or_ge n 4 with hn | hn
    · exact ⟨3, by omega, .checkLoop, rfl, rfl⟩
    · obtain ⟨k, rfl⟩ := Nat.exists_eq_add_of_le hn
      exact absurd ((hexec.drop 4).invariant (I := fun s => (s.threads 0).pc = .stopped)
        (fun _ _ _ hs h => stopped_thread_step hs h) rfl k) hpc

end Teardown

end NetImitate
