import NetImitate.Timerqueue.Arming
import NetImitate.Timerqueue.Assertion

/-!
# The kernel timer is the head's

* `SetFor` : the last call of `resetTimerfd` was for this head, and the kernel timer is as it has left it;
* `Held`, `Aimed` : a kernel timer that is set is set for the head, and a head has the kernel timer set for it;
* `head_armed` : between batches the kernel timer is set for the head, and within a second where that is timely;
* `fires_due` : a reported kernel timer finds its head due, so that the batch it starts is not empty.
-/

namespace NetImitate

namespace Timerqueue
variable {T : Nat → Int} {n : Nat} {q : Timerqueue}

/-- The last call of `resetTimerfd` has set the kernel timer for the head `e`, by two of the first `n` readings. -/
def SetFor (T : Nat → Int) (n : Nat) (q : Timerqueue) (e : Entry) : Prop :=
  ∃ i, i + 1 < n ∧ q.resets.head? = some (T i, e.first) ∧
    q.timerfd = Timerfd.settime (T (i + 1)) (itValue (T i) e.first)

/-- A kernel timer that is set is set for the head. -/
def Held (T : Nat → Int) (n : Nat) (q : Timerqueue) : Prop :=
  q.timerfd ≠ none → ∃ e, q.timerList.begin? = some e ∧ q.SetFor T n e

/-- A head has the kernel timer set for it. -/
def Aimed (T : Nat → Int) (n : Nat) (q : Timerqueue) : Prop := ∀ e, q.timerList.begin? = some e → q.SetFor T n e

theorem SetFor.mono {e : Entry} (h : q.SetFor T n e) (k : Nat) : q.SetFor T (n + k) e := by
  obtain ⟨i, hi, hset⟩ := h
  exact ⟨i, Nat.lt_add_right k hi, hset⟩

theorem Held.mono (h : q.Held T n) (k : Nat) : q.Held T (n + k) := by
  intro hset
  obtain ⟨e, he, hfor⟩ := h hset
  exact ⟨e, he, hfor.mono k⟩

theorem Aimed.mono (h : q.Aimed T n) (k : Nat) : q.Aimed T (n + k) := fun e he => (h e he).mono k

theorem Aimed.resetTimerfd (q : Timerqueue) (T : Nat → Int) (n : Nat) :
    (q.resetTimerfd (T (n + 1)) (T (n + 2))).Aimed T (n + 3) := by
  intro e he
  rw [resetTimerfd_timerList] at he
  refine ⟨n + 1, Nat.lt_succ_self _, ?_, ?_⟩
  · simp only [Timerqueue.resetTimerfd, he, List.head?_cons]
  · simp only [Timerqueue.resetTimerfd, he]

theorem Held.resetTimerfd (h : q.Held T n) : (q.resetTimerfd (T (n + 1)) (T (n + 2))).Held T (n + 3) := by
  cases hbegin : q.timerList.begin? with
  | none =>
    rw [resetTimerfd_of_empty (OrdSet.begin_eq_none.mp hbegin)]
    exact h.mono 3
  | some e =>
    intro _
    have he : (q.resetTimerfd (T (n + 1)) (T (n + 2))).timerList.begin? = some e := by
      rw [resetTimerfd_timerList, hbegin]
    exact ⟨e, he, Aimed.resetTimerfd q T n e he⟩

/-- An insertion after which the kernel timer is left alone has left the head where it was. -/
theorem begin_insert {e : Entry} (hfirst : (q.timerList.emplace e).begin?.map Entry.second ≠ some e.second) :
    (q.timerList.emplace e).begin? = q.timerList.begin? := by
  rcases q.timerList.begin_emplace e with hnew | hold
  · exact absurd (congrArg (Option.map Entry.second) hnew) hfirst
  · exact hold

theorem Held.insert (h : q.Held T n) (timeStamp : TimeStamp) (timer : Ptr) :
    (q.insert timeStamp timer (T (n + 1)) (T (n + 2))).Held T (n + 3) := by
  simp only [Timerqueue.insert]
  split
  · rename_i hfirst
    obtain ⟨e, he, -⟩ := Option.map_eq_some_iff.mp hfirst
    intro _
    rw [resetTimerfd_timerList]
    exact ⟨e, he, Aimed.resetTimerfd { q with timerList := q.timerList.emplace ⟨timeStamp, timer⟩ } T n e
      ((resetTimerfd_timerList _ _ _).symm ▸ he)⟩
  · rename_i hfirst
    intro hset
    obtain ⟨e, he, hfor⟩ := h hset
    exact ⟨e, (begin_insert hfirst).trans he, hfor.mono 3⟩

theorem Aimed.insert (h : q.Aimed T n) (timeStamp : TimeStamp) (timer : Ptr) :
    (q.insert timeStamp timer (T (n + 1)) (T (n + 2))).Aimed T (n + 3) := by
  simp only [Timerqueue.insert]
  split
  · exact Aimed.resetTimerfd _ T n
  · rename_i hfirst
    intro e he
    exact (h e ((begin_insert hfirst).symm.trans he)).mono 3

/-- Neither looks at the heap. -/
theorem Held.heap (h : q.Held T n) (heap : Ptr → Option Cell) : Held T n { q with heap := heap } := h

theorem Aimed.heap (h : q.Aimed T n) (heap : Ptr → Option Cell) : Aimed T n { q with heap := heap } := h

theorem Held.rearm (h : q.Held T n) : (q.rearm (T n) (T (n + 1)) (T (n + 2))).Held T (n + 3) := by
  unfold Timerqueue.rearm
  split
  · exact h.resetTimerfd
  · exact h.mono 3

/-- The end of `reset` sets the kernel timer, or finds it set for the head. -/
theorem Held.aimed_rearm (h : q.Held T n) : (q.rearm (T n) (T (n + 1)) (T (n + 2))).Aimed T (n + 3) := by
  unfold Timerqueue.rearm
  split
  · exact Aimed.resetTimerfd q T n
  · rename_i hcond
    intro e he
    have hlist : q.timerList.toList ≠ [] := List.ne_nil_of_mem (OrdSet.mem_of_begin he)
    obtain ⟨e', he', hfor⟩ := h fun hnone => hcond ⟨hlist, by rw [hnone]; rfl⟩
    rw [he, Option.some.injEq] at he'
    exact he' ▸ hfor.mono 3

theorem Held.resetOne (h : q.Held T n) (val : Entry) (c : Cell) :
    (q.resetOne val c (T n) (T (n + 1)) (T (n + 2))).Held T (n + 3) := by
  unfold Timerqueue.resetOne
  split
  · exact (h.heap _).insert _ _
  · exact h.mono 3

/-- Where it is timely, a kernel timer set for the head fires between the time the head is due, or the setting if that
is later, and a second after, put off by the time between the two readings. -/
theorem SetFor.deadline {e : Entry} {now clock : Int} (hset : q.timerfd = Timerfd.settime clock (itValue now e.first))
    (htimely : Timely now e.first) : ∃ deadline, q.timerfd = some deadline ∧
      max now e.first + (clock - now) ≤ deadline ∧ deadline ≤ max now e.first + (clock - now) + 1000000000 := by
  have hbounded : Bounded now e.first := by
    rcases htimely with ⟨hle, hfar⟩ | ⟨hlt, hone⟩
    · exact bounded_of_due hle hfar
    · exact (bounded_overdue_iff hlt).mpr ((itValue_eq_one now e.first).mpr hone)
  obtain ⟨hne, hlow, hhigh⟩ := hbounded
  unfold delayNanos at hne hlow hhigh
  refine ⟨clock + itValue now e.first * 1000000000, ?_, by omega, by omega⟩
  rw [hset, Timerfd.settime, if_neg (by omega)]

end Timerqueue

namespace TimerSys
variable {T : Nat → Int}

structure ForHead (T : Nat → Int) (s : TimerSys) : Prop where
  held : s.queue.Held T s.tick
  aimed : AtRest s.pc → s.queue.Aimed T s.tick

theorem forHead_new : new.ForHead T := ⟨fun h => absurd rfl h, fun _ _ h => by cases h⟩

theorem ForHead.step {s s' : TimerSys} {e : TimerEv} (hs : s.ForHead T) (h : (machine T).step s e = some s') :
    s'.ForHead T := by
  obtain ⟨hheld, haimed⟩ := hs
  cases step_cases h with
  | poll hpc hready =>
    rw [hpc] at haimed
    exact ⟨hheld.mono 3, fun _ => (haimed trivial).mono 3⟩
  | addTimer hpc hfresh haddr =>
    exact ⟨(hheld.heap _).insert _ _, fun hrest => ((haimed hrest).heap _).insert _ _⟩
  | expire hpc hready => exact ⟨fun h => absurd rfl h, fun hrest => hrest.elim⟩
  | restart hpc hcell hrepeat => exact ⟨hheld.resetOne _ _, fun hrest => hrest.elim⟩
  | delete hpc hcell hrepeat => exact ⟨hheld.resetOne _ _, fun hrest => hrest.elim⟩
  | resetEnd hpc => exact ⟨hheld.rearm, fun _ => hheld.aimed_rearm⟩
  | iterationEnd hpc =>
    rw [hpc] at haimed
    exact ⟨hheld.mono 3, fun _ => (haimed trivial).mono 3⟩
  | _ => exact ⟨hheld.mono 3, fun hrest => hrest.elim⟩

/-- **The kernel timer is set for the head**, whatever has been added and reset since: between batches the timer that
comes first is the one `resetTimerfd` has last set it for, and where that was timely it fires neither before the head is
due nor more than a second late. -/
theorem head_armed (T : Nat → Int) (es : List TimerEv) (s : TimerSys) (h : (machine T).run new es = some s)
    (hrest : AtRest s.pc) (e : Entry) (hhead : s.queue.timerList.begin? = some e) :
    ∃ i, i + 1 < s.tick ∧ s.queue.resets.head? = some (T i, e.first) ∧
      s.queue.timerfd = Timerfd.settime (T (i + 1)) (Timerqueue.itValue (T i) e.first) ∧
      (Timerqueue.Timely (T i) e.first → ∃ deadline, s.queue.timerfd = some deadline ∧
        max (T i) e.first + (T (i + 1) - T i) ≤ deadline ∧
          deadline ≤ max (T i) e.first + (T (i + 1) - T i) + 1000000000) := by
  have hs : s.ForHead T := (machine T).run_invariant (fun _ _ _ hs h => hs.step h) es new s forHead_new h
  obtain ⟨i, hi, hlast, hset⟩ := hs.aimed hrest e hhead
  exact ⟨i, hi, hlast, hset, Timerqueue.SetFor.deadline hset⟩

/-- A later timer is added first, and the head then changes. -/
theorem head_armed_addedBefore :
    ∃ s, (machine fun _ => 0).run new [.addTimer 8 5000 0, .addTimer 16 1000 0, .iterationEnd] = some s ∧
      s.queue.timerList.begin? = some ⟨1000000000, 16⟩ ∧
      ∃ i, i + 1 < s.tick ∧ s.queue.timerfd = Timerfd.settime 0 (Timerqueue.itValue 0 1000000000) := by
  have hrun : ((machine fun _ => 0).run new [.addTimer 8 5000 0, .addTimer 16 1000 0, .iterationEnd]).map
      (fun s => (s.pc, s.queue.timerList.begin?)) = some (.wait, some ⟨1000000000, 16⟩) := by decide +kernel
  obtain ⟨s, hs, heq⟩ := Option.map_eq_some_iff.mp hrun
  rw [Prod.mk.injEq] at heq
  obtain ⟨i, hi, -, hset, -⟩ := head_armed _ _ s hs (by rw [heq.1]; trivial) _ heq.2
  exact ⟨s, hs, heq.2, i, hi, hset⟩

/-- **No batch is empty**: with delays and intervals in the range of `resetTimerfd` and one nondecreasing clock, a
`handleTimerfd` finds its head due and takes it. -/
theorem fires_due (T : Nat → Int) (hT : Monotone T) (es : List TimerEv) (s : TimerSys)
    (hshort : ∀ e ∈ es, Short e) (hfit : (machine T).Meets (StampsFit T) new es)
    (h : (machine T).run new es = some s) (hpc : s.pc = .dispatch true) :
    ∃ head batch, s.queue.timerList.begin? = some head ∧ head.first ≤ T s.tick ∧
      (s.handleTimerfd T).pc = .running [] (head :: batch) := by
  have hs := guarded_run hT hfit hshort h
  have hready := hs.reported hpc
  obtain ⟨deadline, hdeadline, hle⟩ := readable_iff.mp hready
  obtain ⟨head, hbegin, hlt⟩ := hs.ahead deadline hdeadline
  have hdue : head.first < T s.tick := lt_of_lt_of_le hlt hle
  have hbefore : head < ⟨T (s.tick + 1), uintptrMax⟩ :=
    Entry.lt_iff.mpr (Or.inl (lt_of_lt_of_le hdue (tick_le hT s 1)))
  obtain ⟨rest, hlist⟩ := List.head?_eq_some_iff.mp hbegin
  refine ⟨head, rest.takeWhile (· < ⟨T (s.tick + 1), uintptrMax⟩), hbegin, le_of_lt hdue, ?_⟩
  rw [handleTimerfd, if_pos hready]
  show TimerPc.running [] (s.queue.timerList.below ⟨T (s.tick + 1), uintptrMax⟩) = _
  rw [OrdSet.below, hlist, List.takeWhile_cons, if_pos (decide_eq_true hbefore)]

theorem fires_due_addedInBetween :
    ∃ s, (machine fun i => i * 1000000000).run new addedInBetween = some s ∧
      ∃ head batch, s.queue.timerList.begin? = some head ∧
        (s.handleTimerfd fun i => i * 1000000000).pc = .running [] (head :: batch) := by
  have hT : Monotone fun i : Nat => (i : Int) * 1000000000 := fun i j hij => by simp only; omega
  have hrun : ((machine fun i => i * 1000000000).run new addedInBetween).map TimerSys.pc = some (.dispatch true) := by
    decide +kernel
  have hshort : ∀ e ∈ addedInBetween, Short e := by
    simp only [addedInBetween, List.forall_mem_cons, Short, List.not_mem_nil, false_imp_iff, implies_true, and_true,
      true_and]
    decide
  obtain ⟨s, hs, hpc⟩ := Option.map_eq_some_iff.mp hrun
  obtain ⟨head, batch, hbegin, -, hbatch⟩ := fires_due _ hT addedInBetween s hshort (by decide +kernel) hs hpc
  exact ⟨s, hs, head, batch, hbegin, hbatch⟩

end TimerSys

end NetImitate
