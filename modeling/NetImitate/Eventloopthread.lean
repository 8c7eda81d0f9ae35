import NetImitate.Library.Machine
import Mathlib.Tactic

/-!
# `Eventloopthread`: starting a loop on a thread of its own

`StartLoop` in the starting thread and `threadFunc` in the new one, interleaved step by step.

* `Startup`, `machine` : the two threads, `conditonLock`, `conditionV` and `loopIsInit`; `Step`, `step_cases`;
* `Hung` : the starting thread sleeps, the notification is gone and no wake-up is due;
* `Orderly` : what the order of the statements of `threadFunc` guarantees; `returned_ready`;
* `Awake` : not hung, nor about to be by falling asleep; `awake_iff` : what one step must not do;
* `handshake_iff` : the handshake is safe exactly when no notification falls between a failed test and the sleep.
-/

namespace NetImitate

/-- Where `StartLoop` is. -/
inductive StarterPc where
  | start
  | lock
  /-- About to test `loopIsInit`. -/
  | test
  /-- The test has failed; about to unlock and sleep in one step. -/
  | sleep
  /-- Asleep on `conditionV`, `due` telling that a notification is to wake the thread. -/
  | asleep (due : Bool)
  | relock
  | unlock
  | returned
deriving DecidableEq

/-- Where `threadFunc` is. -/
inductive ThreadPc where
  | notStarted
  | create
  | init
  | store
  | notify
  | loop
  | looping
deriving DecidableEq

inductive LoopStage where
  | null
  | created
  /-- `Init` has returned. -/
  | ready
deriving DecidableEq

structure Startup where
  starter : StarterPc
  thread : ThreadPc
  /-- `conditonLock` is held, which only the starting thread ever does. -/
  conditonLock : Bool
  loopIsInit : Bool
  loop : LoopStage
deriving DecidableEq

inductive StartupEv where
  | start
  | lock
  | test
  | sleep
  /-- For a notification or spuriously. -/
  | wake
  | relock
  | unlock
  | create
  | init
  | store
  | notify
  | enterLoop
deriving DecidableEq

/-- `notify_one` wakes a thread that is asleep and is lost otherwise. -/
def StarterPc.notifyOne : StarterPc → StarterPc
  | .asleep _ => .asleep true
  | pc => pc

/-- A test has succeeded. -/
def StarterPc.found : StarterPc → Bool
  | .unlock | .returned => true
  | _ => false

/-- Asleep with no wake-up due, or about to be. -/
def StarterPc.waiting : StarterPc → Bool
  | .sleep | .asleep false => true
  | _ => false

/-- `threadFunc` is past `notify_one`. -/
def ThreadPc.notified : ThreadPc → Bool
  | .loop | .looping => true
  | _ => false

/-- `threadFunc` is past the store to `loopIsInit`. -/
def ThreadPc.stored : ThreadPc → Bool
  | .notify | .loop | .looping => true
  | _ => false

/-- `threadFunc` is past `Init`. -/
def ThreadPc.inited : ThreadPc → Bool
  | .store | .notify | .loop | .looping => true
  | _ => false

theorem ThreadPc.inited_of_stored {pc : ThreadPc} (h : pc.stored = true) : pc.inited = true := by
  revert h
  cases pc <;> decide

theorem ThreadPc.stored_of_notified {pc : ThreadPc} (h : pc.notified = true) : pc.stored = true := by
  revert h
  cases pc <;> decide

namespace Startup

def new : Startup := ⟨.start, .notStarted, false, false, .null⟩

def step (s : Startup) : StartupEv → Option Startup
  | .start => if s.starter = .start then some { s with starter := .lock, thread := .create } else none
  | .lock =>
    if s.starter = .lock ∧ s.conditonLock = false then some { s with starter := .test, conditonLock := true } else none
  | .test =>
    if s.starter = .test then some { s with starter := if s.loopIsInit then .unlock else .sleep } else none
  | .sleep =>
    if s.starter = .sleep then some { s with starter := .asleep false, conditonLock := false } else none
  | .wake => match s.starter with
    | .asleep _ => some { s with starter := .relock }
    | _ => none
  | .relock =>
    if s.starter = .relock ∧ s.conditonLock = false then some { s with starter := .test, conditonLock := true }
    else none
  | .unlock => if s.starter = .unlock then some { s with starter := .returned, conditonLock := false } else none
  | .create => if s.thread = .create then some { s with thread := .init, loop := .created } else none
  | .init => if s.thread = .init then some { s with thread := .store, loop := .ready } else none
  | .store => if s.thread = .store then some { s with thread := .notify, loopIsInit := true } else none
  | .notify =>
    if s.thread = .notify then some { s with thread := .loop, starter := s.starter.notifyOne } else none
  | .enterLoop => if s.thread = .loop then some { s with thread := .looping } else none

def machine : Machine Startup StartupEv := ⟨step⟩

/-- The starting thread is asleep, `threadFunc` is past its notification and no wake-up is due. -/
def Hung (s : Startup) : Prop := s.starter = .asleep false ∧ s.thread.notified = true

/-- The notification does not fall between a failed test and the sleep that follows it. -/
def NotLost (s : Startup) (e : StartupEv) : Prop := e = .notify → s.starter ≠ .sleep

instance (s : Startup) : Decidable s.Hung := by
  unfold Hung
  infer_instance

instance (s : Startup) (e : StartupEv) : Decidable (s.NotLost e) := by
  unfold NotLost
  infer_instance

/-! ## What a step can do -/

inductive Step (s : Startup) : StartupEv → Startup → Prop
  | start (h : s.starter = .start) : Step s .start { s with starter := .lock, thread := .create }
  | lock (h : s.starter = .lock) : Step s .lock { s with starter := .test, conditonLock := true }
  | found (h : s.starter = .test) (hinit : s.loopIsInit = true) : Step s .test { s with starter := .unlock }
  | missed (h : s.starter = .test) (hinit : s.loopIsInit = false) : Step s .test { s with starter := .sleep }
  | sleep (h : s.starter = .sleep) : Step s .sleep { s with starter := .asleep false, conditonLock := false }
  | wake {due : Bool} (h : s.starter = .asleep due) : Step s .wake { s with starter := .relock }
  | relock (h : s.starter = .relock) : Step s .relock { s with starter := .test, conditonLock := true }
  | unlock (h : s.starter = .unlock) : Step s .unlock { s with starter := .returned, conditonLock := false }
  | create (h : s.thread = .create) : Step s .create { s with thread := .init, loop := .created }
  | init (h : s.thread = .init) : Step s .init { s with thread := .store, loop := .ready }
  | store (h : s.thread = .store) : Step s .store { s with thread := .notify, loopIsInit := true }
  | notify (h : s.thread = .notify) : Step s .notify { s with thread := .loop, starter := s.starter.notifyOne }
  | enterLoop (h : s.thread = .loop) : Step s .enterLoop { s with thread := .looping }

theorem step_cases {s s' : Startup} {e : StartupEv} (h : machine.step s e = some s') : Step s e s' := by
  cases e <;> simp only [machine, step, Option.ite_none_right_eq_some] at h
  case test =>
    obtain ⟨hpc, heq⟩ := h
    by_cases hinit : s.loopIsInit = true
    · rw [if_pos hinit] at heq
      cases heq
      exact .found hpc hinit
    · rw [if_neg hinit] at heq
      cases heq
      exact .missed hpc (Bool.eq_false_iff.mpr hinit)
  case wake =>
    split at h
    · rename_i due hpc
      cases h
      exact .wake hpc
    · cases h
  case lock =>
    obtain ⟨⟨hpc, -⟩, heq⟩ := h
    cases heq
    exact .lock hpc
  case relock =>
    obtain ⟨⟨hpc, -⟩, heq⟩ := h
    cases heq
    exact .relock hpc
  all_goals
    obtain ⟨hpc, heq⟩ := h
    cases heq
    constructor
    exact hpc

/-! ## What the order of the statements guarantees -/

structure Orderly (s : Startup) : Prop where
  fresh : s.starter = .start → s.thread = .notStarted
  stored : s.loopIsInit = s.thread.stored
  ready : s.thread.inited = true → s.loop = .ready
  found : s.starter.found = true → s.loopIsInit = true

theorem orderly_new : new.Orderly where
  fresh := fun _ => rfl
  stored := rfl
  ready := fun h => by cases h
  found := fun h => by cases h

/-- A step of the starting thread past `start()`. -/
theorem Orderly.starter_step {s : Startup} (hs : s.Orderly) {pc : StarterPc} (conditonLock : Bool)
    (hpc : pc ≠ .start) (hfound : pc.found = true → s.loopIsInit = true) :
    Orderly { s with starter := pc, conditonLock := conditonLock } where
  fresh := fun h => absurd h hpc
  stored := hs.stored
  ready := hs.ready
  found := hfound

/-- A step of `threadFunc`. -/
theorem Orderly.thread_step {s : Startup} (hs : s.Orderly) (hthread : s.thread ≠ .notStarted) {thread : ThreadPc}
    {loopIsInit : Bool} {loop : LoopStage} (hstored : loopIsInit = thread.stored)
    (hkept : s.loopIsInit = true → loopIsInit = true) (hready : thread.inited = true → loop = .ready) :
    Orderly { s with thread := thread, loopIsInit := loopIsInit, loop := loop } where
  fresh := fun h => absurd (hs.fresh h) hthread
  stored := hstored
  ready := hready
  found := fun h => hkept (hs.found h)

theorem Orderly.notified {s : Startup} (hs : s.Orderly) : Orderly { s with starter := s.starter.notifyOne } := by
  unfold StarterPc.notifyOne
  split
  · rename_i due hpc
    exact ⟨(fun h => by cases h), hs.stored, hs.ready, (fun h => by cases h)⟩
  · exact hs

/-- Where `threadFunc` is tells whether the flag has been stored. -/
theorem Orderly.stored_at {s : Startup} (hs : s.Orderly) {pc : ThreadPc} (hpc : s.thread = pc) :
    s.loopIsInit = pc.stored := by
  rw [hs.stored, hpc]

theorem Orderly.step {s s' : Startup} {e : StartupEv} (hs : s.Orderly) (h : machine.step s e = some s') :
    s'.Orderly := by
  cases step_cases h with
  | start hpc =>
    have hinit : s.loopIsInit = false := hs.stored_at (hs.fresh hpc)
    exact ⟨(fun h => by cases h), hinit, (fun h => by cases h), (fun h => by cases h)⟩
  | lock hpc => exact hs.starter_step true (by decide) (fun h => by cases h)
  | found hpc hinit => exact hs.starter_step s.conditonLock (by decide) (fun _ => hinit)
  | missed hpc hinit => exact hs.starter_step s.conditonLock (by decide) (fun h => by cases h)
  | sleep hpc => exact hs.starter_step false (by decide) (fun h => by cases h)
  | wake hpc => exact hs.starter_step s.conditonLock (by decide) (fun h => by cases h)
  | relock hpc => exact hs.starter_step true (by decide) (fun h => by cases h)
  | unlock hpc => exact hs.starter_step false (by decide) (fun _ => hs.found (by rw [hpc]; rfl))
  | create hpc =>
    have hinit : s.loopIsInit = false := hs.stored_at hpc
    exact hs.thread_step (by rw [hpc]; decide) hinit id (by decide)
  | init hpc =>
    have hinit : s.loopIsInit = false := hs.stored_at hpc
    exact hs.thread_step (by rw [hpc]; decide) hinit id (fun _ => rfl)
  | store hpc => exact hs.thread_step (by rw [hpc]; decide) rfl (fun _ => rfl) (fun _ => hs.ready (by rw [hpc]; rfl))
  | notify hpc =>
    have hinit : s.loopIsInit = true := hs.stored_at hpc
    exact hs.notified.thread_step (by rw [hpc]; decide) hinit id (fun _ => hs.ready (by rw [hpc]; rfl))
  | enterLoop hpc =>
    have hinit : s.loopIsInit = true := hs.stored_at hpc
    exact hs.thread_step (by rw [hpc]; decide) hinit id (fun _ => hs.ready (by rw [hpc]; rfl))

theorem orderly_run {s : Startup} {es : List StartupEv} (h : machine.run new es = some s) : s.Orderly :=
  machine.run_invariant (fun _ _ _ hs h => hs.step h) es new s orderly_new h

/-- **`StartLoop` returns a loop that is ready**, whatever the interleaving. -/
theorem returned_ready {s : Startup} {es : List StartupEv} (h : machine.run new es = some s)
    (hpc : s.starter = .returned) : s.loop = .ready := by
  have hs := orderly_run h
  have hstored := hs.stored
  rw [hs.found (by rw [hpc]; rfl)] at hstored
  exact hs.ready (ThreadPc.inited_of_stored hstored.symm)

/-! ## Lost notifications -/

/-- Not hung, and not hung either once the starting thread has fallen asleep, where it is about to. -/
def Awake (s : Startup) : Prop := ¬ s.Hung ∧ ∀ s', machine.step s .sleep = some s' → ¬ s'.Hung

theorem awake_def (s : Startup) : s.Awake ↔ (s.thread.notified = true → s.starter.waiting = false) := by
  have hsleep : ∀ s', machine.step s .sleep = some s' ↔
      s.starter = .sleep ∧ s' = { s with starter := .asleep false, conditonLock := false } := by
    intro s'
    simp only [machine, step, Option.ite_none_right_eq_some, Option.some.injEq]
    exact and_congr_right fun _ => eq_comm
  constructor
  · rintro ⟨hhung, hnext⟩ hnotified
    refine Bool.eq_false_iff.mpr fun hwaiting => ?_
    unfold StarterPc.waiting at hwaiting
    split at hwaiting
    · rename_i hpc
      exact hnext _ ((hsleep _).mpr ⟨hpc, rfl⟩) ⟨rfl, hnotified⟩
    · rename_i hpc
      exact hhung ⟨hpc, hnotified⟩
    · cases hwaiting
  · intro h
    refine ⟨fun hhung => ?_, fun s' hs' hhung => ?_⟩
    · have hwaiting := h hhung.2
      rw [hhung.1] at hwaiting
      cases hwaiting
    · obtain ⟨hpc, rfl⟩ := (hsleep s').mp hs'
      have hwaiting := h hhung.2
      rw [hpc] at hwaiting
      cases hwaiting

theorem awake_iff {s s' : Startup} {e : StartupEv} (hs : s.Orderly) (hawake : s.Awake)
    (h : machine.step s e = some s') : s'.Awake ↔ s.NotLost e := by
  rw [awake_def] at hawake ⊢
  have hother : e ≠ .notify → s.NotLost e := fun hne he => absurd he hne
  cases step_cases h with
  | start hpc => exact iff_of_true (fun h => by cases h) (hother (by decide))
  | lock hpc => exact iff_of_true (fun _ => rfl) (hother (by decide))
  | found hpc hinit => exact iff_of_true (fun _ => rfl) (hother (by decide))
  | missed hpc hinit =>
    -- a failed test comes before the store, and so before the notification
    refine iff_of_true (fun hnotified => ?_) (hother (by decide))
    have hstored := ThreadPc.stored_of_notified hnotified
    rw [← hs.stored, hinit] at hstored
    cases hstored
  | sleep hpc =>
    refine iff_of_true (fun hnotified => ?_) (hother (by decide))
    have hwaiting := hawake hnotified
    rw [hpc] at hwaiting
    cases hwaiting
  | wake hpc => exact iff_of_true (fun _ => rfl) (hother (by decide))
  | relock hpc => exact iff_of_true (fun _ => rfl) (hother (by decide))
  | unlock hpc => exact iff_of_true (fun _ => rfl) (hother (by decide))
  | create hpc => exact iff_of_true (fun h => by cases h) (hother (by decide))
  | init hpc => exact iff_of_true (fun h => by cases h) (hother (by decide))
  | store hpc => exact iff_of_true (fun h => by cases h) (hother (by decide))
  | notify hpc =>
    have hlost : s.NotLost .notify ↔ s.starter ≠ .sleep := ⟨fun h => h rfl, fun h _ => h⟩
    rw [hlost]
    cases s.starter with
    | sleep => exact iff_of_false (fun h => by cases h rfl) (fun h => h rfl)
    | _ => exact iff_of_true (fun _ => rfl) (fun h => by cases h)
  | enterLoop hpc => exact iff_of_true (fun _ => hawake (by rw [hpc]; rfl)) (hother (by decide))

/-- **The start-up handshake** is safe over a run, no state being hung or hanging as soon as the starting thread falls
asleep, exactly when no notification of the run falls between a failed test and the sleep that follows it. -/
theorem handshake_iff (es : List StartupEv) (s : Startup) (h : machine.run new es = some s) :
    machine.Throughout Awake new es ↔ machine.Meets NotLost new es :=
  machine.throughout_iff_meets (I := Orderly) (P := Awake) (C := NotLost) (fun _ _ _ hs h => hs.step h)
    (fun _ _ _ hs hawake h => awake_iff hs hawake h) es new s orderly_new ((awake_def new).mpr fun h => by cases h) h

/-- The new thread stores and notifies between the failed test and the sleep. -/
def lostNotification : List StartupEv := [.start, .lock, .test, .create, .init, .store, .notify, .enterLoop, .sleep]

theorem handshake_hangs :
    ∃ s, machine.run new lostNotification = some s ∧ s.Hung ∧
      ∀ e, e ≠ .wake → machine.step s e = none := by
  refine ⟨⟨.asleep false, .looping, false, true, .ready⟩, by decide, by decide, ?_⟩
  intro e he
  cases e <;> first | rfl | exact absurd rfl he

/-- A notification of a thread that sleeps, which the new test then answers. -/
def inTime : List StartupEv :=
  [.start, .lock, .test, .sleep, .create, .init, .store, .notify, .enterLoop, .wake, .relock, .test, .unlock]

theorem handshake_inTime :
    ∃ s, machine.run new inTime = some s ∧ s.starter = .returned ∧ machine.Throughout Awake new inTime := by
  have hrun : machine.run new inTime = some ⟨.returned, .looping, false, true, .ready⟩ := by decide
  exact ⟨_, hrun, rfl, (handshake_iff inTime _ hrun).mpr (by decide)⟩

end Startup

end NetImitate
