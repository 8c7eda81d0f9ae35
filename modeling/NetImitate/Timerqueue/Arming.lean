import NetImitate.Timerqueue.Run

/-!
# Which waits have the kernel timer set

* `Settled` : the last call of `resetTimerfd` asked for a delay;
* `Tracks`, `Covers` : an armed timer comes from a settled call, and a settled call has left it armed;
* `covers_rearm` : the end of `reset` looks at the kernel timer and sets it where that is needed;
* `stranded_iff` : at `epoll_wait` with timers in the set, the kernel timer is set exactly when the last call settled;
* `stranded_timer` : a callback that outlasts the next deadline by less than a second leaves it unset.
-/

namespace NetImitate

namespace Timerqueue

/-- The last call of `resetTimerfd` did not stall. -/
def Settled (q : Timerqueue) : Prop := ∃ r, q.resets.head? = some r ∧ ¬ Stalls r.1 r.2

/-- A kernel timer that is set was set by a settled call. -/
def Tracks (q : Timerqueue) : Prop := q.timerfd ≠ none → q.Settled

/-- With timers in the set, a settled call has left the kernel timer set. -/
def Covers (q : Timerqueue) : Prop := q.timerList.toList ≠ [] → q.Settled → q.timerfd ≠ none

theorem settime_ne_none (clock : Int) (seconds : Nat) : Timerfd.settime clock seconds ≠ none ↔ seconds ≠ 0 := by
  unfold Timerfd.settime
  split
  · rename_i hzero
    exact ⟨fun h => absurd rfl h, fun h => absurd hzero h⟩
  · rename_i hpos
    exact ⟨fun _ => hpos, fun _ => Option.some_ne_none _⟩

/-- `resetTimerfd` sets the timer unless it stalls. -/
theorem resetTimerfd_iff {q : Timerqueue} (hlist : q.timerList.toList ≠ []) (now clock : Int) :
    (q.resetTimerfd now clock).timerfd ≠ none ↔ (q.resetTimerfd now clock).Settled := by
  cases hbegin : q.timerList.begin? with
  | none => exact absurd (OrdSet.begin_eq_none.mp hbegin) hlist
  | some next =>
    simp only [resetTimerfd, hbegin, Settled, settime_ne_none, ne_eq, itValue_eq_zero, List.head?_cons,
      Option.some.injEq, exists_eq_left']

theorem resetTimerfd_of_empty {q : Timerqueue} (hlist : q.timerList.toList = []) (now clock : Int) :
    q.resetTimerfd now clock = q := by
  rw [resetTimerfd, OrdSet.begin_eq_none.mpr hlist]

theorem Tracks.resetTimerfd {q : Timerqueue} (h : q.Tracks) (now clock : Int) : (q.resetTimerfd now clock).Tracks := by
  by_cases hlist : q.timerList.toList = []
  · rw [resetTimerfd_of_empty hlist]
    exact h
  · exact (resetTimerfd_iff hlist now clock).mp

theorem covers_resetTimerfd (q : Timerqueue) (now clock : Int) : (q.resetTimerfd now clock).Covers := by
  intro hlist
  rw [resetTimerfd_timerList] at hlist
  exact (resetTimerfd_iff hlist now clock).mpr

theorem Tracks.insert {q : Timerqueue} (h : q.Tracks) (timeStamp : TimeStamp) (timer : Ptr) (now clock : Int) :
    (q.insert timeStamp timer now clock).Tracks := by
  simp only [Timerqueue.insert]
  split
  · exact Tracks.resetTimerfd (q := { q with timerList := q.timerList.emplace ⟨timeStamp, timer⟩ }) h now clock
  · exact h

/-- The first timer of an empty set comes first, so an insertion that does not set the timer finds the set nonempty. -/
theorem Covers.insert {q : Timerqueue} (h : q.Covers) (timeStamp : TimeStamp) (timer : Ptr) (now clock : Int) :
    (q.insert timeStamp timer now clock).Covers := by
  simp only [Timerqueue.insert]
  split
  · exact covers_resetTimerfd _ now clock
  · rename_i hfirst
    intro _ hsettled
    refine h (fun hempty => hfirst ?_) hsettled
    rw [OrdSet.begin_emplace_of_empty hempty, Option.map_some]

theorem Tracks.rearm {q : Timerqueue} (h : q.Tracks) (gettimeAt now clock : Int) :
    (q.rearm gettimeAt now clock).Tracks := by
  unfold Timerqueue.rearm
  split
  · exact h.resetTimerfd now clock
  · exact h

/-- However the batch has left the kernel timer, the end of `reset` sees to it. -/
theorem covers_rearm (q : Timerqueue) (gettimeAt now clock : Int) : (q.rearm gettimeAt now clock).Covers := by
  unfold rearm
  split
  · exact covers_resetTimerfd q now clock
  · rename_i hcond
    intro hlist _ hnone
    refine hcond ⟨hlist, ?_⟩
    rw [hnone]
    rfl

/-- Neither looks at the heap. -/
theorem Tracks.heap {q : Timerqueue} (h : q.Tracks) (heap : Ptr → Option Cell) : Tracks { q with heap := heap } := h

theorem Covers.heap {q : Timerqueue} (h : q.Covers) (heap : Ptr → Option Cell) : Covers { q with heap := heap } := h

theorem Tracks.resetOne {q : Timerqueue} (h : q.Tracks) (val : Entry) (c : Cell) (restartAt now clock : Int) :
    (q.resetOne val c restartAt now clock).Tracks := by
  unfold Timerqueue.resetOne
  split
  · exact (h.heap _).insert _ _ now clock
  · exact h.heap _

end Timerqueue

namespace TimerSys

/-- No batch is being processed. -/
def AtRest : TimerPc → Prop
  | .wait | .dispatch _ => True
  | _ => False

structure Arming (s : TimerSys) : Prop where
  tracks : s.queue.Tracks
  covers : AtRest s.pc → s.queue.Covers

theorem arming_new : new.Arming := ⟨fun h => absurd rfl h, fun _ h => absurd rfl h⟩

theorem Arming.step {T : Nat → Int} {s s' : TimerSys} {e : TimerEv} (hs : s.Arming)
    (h : (machine T).step s e = some s') : s'.Arming := by
  obtain ⟨htracks, hcovers⟩ := hs
  cases step_cases h with
  | poll hpc hready =>
    rw [hpc] at hcovers
    exact ⟨htracks, fun _ => hcovers trivial⟩
  | addTimer hpc hfresh haddr =>
    exact ⟨(htracks.heap _).insert _ _ _ _, fun hrest => ((hcovers hrest).heap _).insert _ _ _ _⟩
  | expire hpc hready => exact ⟨fun h => absurd rfl h, fun hrest => hrest.elim⟩
  | abort hpc hready => exact ⟨htracks, fun hrest => hrest.elim⟩
  | runTimer hpc hcell => exact ⟨htracks, fun hrest => hrest.elim⟩
  | runFault hpc hcell => exact ⟨htracks, fun hrest => hrest.elim⟩
  | runReturn hpc => exact ⟨htracks, fun hrest => hrest.elim⟩
  | reset hpc => exact ⟨htracks, fun hrest => hrest.elim⟩
  | restart hpc hcell hrepeat => exact ⟨htracks.resetOne _ _ _ _ _, fun hrest => hrest.elim⟩
  | delete hpc hcell hrepeat => exact ⟨htracks.resetOne _ _ _ _ _, fun hrest => hrest.elim⟩
  | resetFault hpc hcell => exact ⟨htracks, fun hrest => hrest.elim⟩
  | resetEnd hpc => exact ⟨htracks.rearm _ _ _, fun _ => Timerqueue.covers_rearm _ _ _ _⟩
  | iterationEnd hpc =>
    rw [hpc] at hcovers
    exact ⟨htracks, fun _ => hcovers trivial⟩

/-- **When a timer is stranded**: at `epoll_wait` with timers in the set, the kernel timer is armed or expired and
unread exactly when the last call of `resetTimerfd` did not find its head between 1 ms and 1000 ms overdue. -/
theorem stranded_iff (T : Nat → Int) (es : List TimerEv) (s : TimerSys) (h : (machine T).run new es = some s)
    (hpc : s.pc = .wait) (hlist : s.queue.timerList.toList ≠ []) : s.queue.timerfd ≠ none ↔ s.queue.Settled := by
  have hs : s.Arming := (machine T).run_invariant (fun _ _ _ hs h => hs.step h) es new s arming_new h
  exact ⟨hs.tracks, hs.covers (by rw [hpc]; trivial) hlist⟩

theorem stranded_iff_oneTimer :
    ∃ s, (machine fun _ => 0).run new [.addTimer 8 1000 0, .iterationEnd] = some s ∧ s.pc = .wait ∧
      s.queue.timerList.toList ≠ [] ∧ (s.queue.timerfd ≠ none ↔ s.queue.Settled) := by
  have hrun : ((machine fun _ => 0).run new [.addTimer 8 1000 0, .iterationEnd]).map
      (fun s => (s.pc, s.queue.timerList.toList)) = some (.wait, [⟨1000000000, 8⟩]) := by decide +kernel
  obtain ⟨s, hs, heq⟩ := Option.map_eq_some_iff.mp hrun
  rw [Prod.mk.injEq] at heq
  have hlist : s.queue.timerList.toList ≠ [] := by
    rw [heq.2]
    exact List.cons_ne_nil _ _
  exact ⟨s, hs, heq.1, hlist, stranded_iff _ _ s hs heq.1 hlist⟩

/-- Timers due at 1 s and at 3 s; the callback of the first lasts until 3.5 s. -/
def slowCallback : List TimerEv :=
  [.addTimer 8 1000 0, .addTimer 16 3000 0, .iterationEnd, .poll true, .handleTimerfd, .runTimer, .runReturn, .reset,
    .resetOne, .resetEnd, .iterationEnd]

def slowClock (i : Nat) : Int := if i < 9 then 0 else if i < 18 then 2000000000 else 3500000000

theorem slowClock_monotone : Monotone slowClock := by
  intro i j hij
  unfold slowClock
  split_ifs <;> omega

/-- The second timer waits for ever. -/
theorem stranded_timer :
    Monotone slowClock ∧ ∃ s, (machine slowClock).run new slowCallback = some s ∧ s.pc = .wait ∧
      s.queue.timerList.toList ≠ [] ∧ s.queue.timerfd = none := by
  have hrun : ((machine slowClock).run new slowCallback).map
      (fun s => (s.pc, s.queue.timerList.toList, s.queue.timerfd)) =
      some (.wait, [⟨3000000000, 16⟩], none) := by decide +kernel
  obtain ⟨s, hs, heq⟩ := Option.map_eq_some_iff.mp hrun
  simp only [Prod.mk.injEq] at heq
  refine ⟨slowClock_monotone, s, hs, heq.1, ?_, heq.2.2⟩
  rw [heq.2.1]
  exact List.cons_ne_nil _ _

end TimerSys

end NetImitate
