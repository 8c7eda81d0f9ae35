import NetImitate.Timerqueue.Head

/-!
# Every timer runs in the end

Over runs without end: as long as `resetTimerfd` does not stall while a timer is in the set, the timer is run.

* `todo_step`, `timerList_step` : a timer leaves the set for the batch, and the batch to be run;
* `Past` : a timer that is overdue, with the kernel timer set; until it fires, nothing that is added moves it;
* `run_of_todo` : a timer in a batch is run; `late_wait` : the loop waits behind any reading of the clock;
* `timers_run` : the callback of every timer in the set starts.
-/

namespace NetImitate

namespace Timerqueue

/-- A timer added behind one of the set does not come first, and the kernel timer is left alone. -/
theorem insert_of_lt {q : Timerqueue} {e : Entry} (he : e ∈ q.timerList.toList) {timeStamp : TimeStamp} {timer : Ptr}
    (hlt : e.first < timeStamp) (hfresh : ∀ e ∈ q.timerList.toList, e.second ≠ timer) (now clock : Int) :
    q.insert timeStamp timer now clock = { q with timerList := q.timerList.emplace ⟨timeStamp, timer⟩ } := by
  have hbegin : (q.timerList.emplace ⟨timeStamp, timer⟩).begin? = q.timerList.begin? :=
    OrdSet.begin_emplace_of_lt he (Entry.lt_iff.mpr (Or.inl hlt))
  simp only [insert]
  rw [if_neg]
  rw [hbegin]
  intro hfirst
  obtain ⟨head, hhead, hsecond⟩ := Option.map_eq_some_iff.mp hfirst
  exact hfresh head (OrdSet.mem_of_begin hhead) hsecond

end Timerqueue

namespace TimerSys
variable {T : Nat → Int} {s s' : TimerSys} {ev : TimerEv} {e : Entry}

/-- A timer of the batch stays in it until it is run. -/
theorem todo_step (hs : s.Owned) (h : (machine T).step s ev = some s') (he : e ∈ s.pc.todo) :
    e ∈ s'.pc.todo ∨ ev = .runTimer ∧ ∃ ran todo, s.pc = .running ran (e :: todo) := by
  cases step_cases h with
  | addTimer hpc hfresh haddr => exact Or.inl he
  | @runTimer ran todo val c hpc hcell =>
    rw [hpc] at he
    rcases List.mem_cons.mp he with rfl | he
    · exact Or.inr ⟨rfl, ran, todo, hpc⟩
    · exact Or.inl he
  | @runFault ran todo val hpc hcell =>
    have hmem : val ∈ s.pc.todo := by
      rw [hpc]
      exact List.mem_cons_self
    exact absurd hcell (hs.waiting val (List.mem_append_right _ hmem)).live
  | runReturn hpc =>
    rw [hpc] at he
    exact Or.inl he
  | poll hpc _ | expire hpc _ | abort hpc _ | reset hpc | restart hpc _ _ | delete hpc _ _ | resetFault hpc _
  | resetEnd hpc | iterationEnd hpc =>
    rw [hpc] at he
    exact absurd he List.not_mem_nil

/-- A timer of the set stays in it until it is taken into a batch. -/
theorem timerList_step (h : (machine T).step s ev = some s') (he : e ∈ s.queue.timerList.toList) :
    e ∈ s'.queue.timerList.toList ∨ e ∈ s'.pc.todo := by
  cases step_cases h with
  | addTimer hpc hfresh haddr =>
    refine Or.inl ?_
    simp only [next, Timerqueue.addTimer, Timerqueue.insert_timerList]
    exact OrdSet.mem_emplace.mpr (Or.inr he)
  | expire hpc hready =>
    rw [← s.queue.timerList.below_append_lowerBound ⟨T (s.tick + 1), uintptrMax⟩] at he
    exact (List.mem_append.mp he).symm
  | restart hpc hcell hrepeat =>
    refine Or.inl ?_
    simp only [next, Timerqueue.resetOne, if_pos hrepeat, Timerqueue.insert_timerList]
    exact OrdSet.mem_emplace.mpr (Or.inr he)
  | delete hpc hcell hrepeat =>
    refine Or.inl ?_
    simp only [next, Timerqueue.resetOne, hrepeat]
    exact he
  | resetEnd hpc =>
    refine Or.inl ?_
    simp only [next, Timerqueue.rearm_timerList]
    exact he
  | _ => exact Or.inl he

/-- Between batches, with the kernel timer set for `deadline` and the timer `e` overdue. -/
structure Past (T : Nat → Int) (deadline : Int) (e : Entry) (s : TimerSys) : Prop where
  rest : AtRest s.pc
  set : s.queue.timerfd = some deadline
  mem : e ∈ s.queue.timerList.toList
  past : e.first < T s.tick

/-- As long as the timer is not taken into a batch, nothing moves the kernel timer, and a report of it waits to be
handled. -/
theorem Past.step (hT : Monotone T) {deadline : Int} (hs : s.Past T deadline e) (howned : s.Owned)
    (hfit : StampsFit T s ev) (h : (machine T).step s ev = some s') (he : e ∈ s'.queue.timerList.toList)
    (hintact : s'.pc ≠ .aborted) : s'.Past T deadline e ∧ (s.pc = .dispatch true → s'.pc = .dispatch true) := by
  obtain ⟨hrest, hset, hmem, hpast⟩ := hs
  have hpast' : e.first < T (s.tick + 3) := lt_of_lt_of_le hpast (tick_le hT s 3)
  cases step_cases h with
  | poll hpc hready =>
    refine ⟨⟨trivial, hset, hmem, hpast'⟩, fun h => ?_⟩
    rw [hpc] at h
    cases h
  | addTimer hpc hfresh haddr =>
    have hlt := lt_of_lt_of_le hpast (le_addTime hfit)
    have hfree : ∀ e ∈ s.queue.timerList.toList, e.second ≠ _ :=
      fun e he heq => howned.live (List.mem_append_left _ he) (heq ▸ hfresh)
    have hkept := fun heap => Timerqueue.insert_of_lt (q := { s.queue with heap := heap }) hmem hlt hfree
    refine ⟨⟨hrest, ?_, he, hpast'⟩, id⟩
    simp only [next, Timerqueue.addTimer, hkept]
    exact hset
  | expire hpc hready =>
    -- the sentry is later than `e`
    have hle : (⟨T (s.tick + 1), uintptrMax⟩ : Entry) ≤ e := OrdSet.le_of_mem_lowerBound he
    have hlt : e < ⟨T (s.tick + 1), uintptrMax⟩ := Entry.lt_iff.mpr (Or.inl (lt_of_lt_of_le hpast (tick_le hT s 1)))
    exact absurd hle (not_le.mpr hlt)
  | abort hpc hready => exact absurd rfl hintact
  | iterationEnd hpc =>
    refine ⟨⟨trivial, hset, hmem, hpast'⟩, fun h => ?_⟩
    rw [hpc] at h
    cases h
  | runTimer hpc _ | runFault hpc _ | runReturn hpc | reset hpc | restart hpc _ _ | delete hpc _ _
  | resetFault hpc _ | resetEnd hpc =>
    rw [hpc] at hrest
    exact hrest.elim

theorem tick_run {t : ℕ → TimerSys} {evs : ℕ → TimerEv} (h : (machine T).Execution t evs) (n : ℕ) : n ≤ (t n).tick := by
  induction n with
  | zero => exact Nat.zero_le _
  | succ n ih =>
    rw [step_tick (h n)]
    omega

theorem not_aborted (h : (machine T).step s ev = some s') : s.pc ≠ .aborted := by
  intro hpc
  cases step_cases h with
  | addTimer hadds _ _ =>
    rw [hpc] at hadds
    rcases hadds with ⟨_, hat⟩ | ⟨_, _, hat⟩ <;> cases hat
  | poll hat _ | expire hat _ | abort hat _ | runTimer hat _ | runFault hat _ | runReturn hat | reset hat
  | restart hat _ _ | delete hat _ _ | resetFault hat _ | resetEnd hat | iterationEnd hat =>
    rw [hpc] at hat
    cases hat

theorem pc_poll {timerfd : Bool} (h : (machine T).step s (.poll timerfd) = some s') : s'.pc = .dispatch timerfd := by
  cases step_cases h
  rfl

/-- Where the last call of `resetTimerfd` has not stalled, a timer in the set has the kernel timer set. -/
theorem ForHead.set (hs : s.ForHead T) (hrest : AtRest s.pc) (he : e ∈ s.queue.timerList.toList)
    (hstall : ∀ r ∈ s.queue.resets.head?, ¬ Timerqueue.Stalls r.1 r.2) :
    ∃ deadline, s.queue.timerfd = some deadline := by
  cases hbegin : s.queue.timerList.begin? with
  | none => exact absurd (OrdSet.begin_eq_none.mp hbegin) (List.ne_nil_of_mem he)
  | some head =>
    obtain ⟨i, -, hlast, hset⟩ := hs.aimed hrest head hbegin
    have hvalue : Timerqueue.itValue (T i) head.first ≠ 0 := fun hzero =>
      hstall _ hlast ((Timerqueue.itValue_eq_zero _ _).mp hzero)
    exact ⟨_, hset.trans (if_neg hvalue)⟩

section
variable {t : ℕ → TimerSys} {evs : ℕ → TimerEv}

/-- As the clock goes on, so does the loop: it waits behind any reading. -/
theorem late_wait (hT : Monotone T) (h : (machine T).Execution t evs) (hround : ∀ n, ∃ m ≥ n, (t m).pc = .wait)
    (i k : ℕ) : ∃ m ≥ k, (t m).pc = .wait ∧ T i ≤ T (t m).tick := by
  obtain ⟨m, hm, hwait⟩ := hround (max i k)
  have hle : i ≤ (t m).tick := ((le_max_left i k).trans hm).trans (tick_run h m)
  exact ⟨m, (le_max_right i k).trans hm, hwait, hT hle⟩

/-- Each batch is run to its end, so that a timer in it is run. -/
theorem run_of_todo (h : (machine T).Execution t evs) (howned : ∀ m, (t m).Owned)
    (hround : ∀ n, ∃ m ≥ n, (t m).pc = .wait) {n : ℕ} (he : e ∈ (t n).pc.todo) :
    ∃ m ≥ n, evs m = .runTimer ∧ ∃ ran todo, (t m).pc = .running ran (e :: todo) := by
  have hleaves : ∀ k, ∃ m ≥ k, e ∉ (t m).pc.todo := by
    intro k
    obtain ⟨m, hm, hwait⟩ := hround k
    exact ⟨m, hm, by rw [hwait]; exact List.not_mem_nil⟩
  obtain ⟨m, hm, hin, hout⟩ := Machine.exists_end (P := fun m => e ∈ (t m).pc.todo) he hleaves
  exact ⟨m, hm, (todo_step (howned m) (h m) hin).resolve_left hout⟩

end

/-- **Every timer runs in the end**: with `epoll_wait` reporting the kernel timer when it is readable and every round of
the loop ending, a timer in the set, one-shot or repeating, has its callback started, as long as the following holds
while it is in the set. The nondecreasing clock passes its expiration, and passes each deadline the kernel timer is set
for; the sums `addTime` computes are time points of 64 bits; and the last call of `resetTimerfd` has not found its head
between 1 ms and 1000 ms overdue. Once it has run, the clock may stand still: its next expiration, if it has one, is
another entry of the set. -/
theorem timers_run (T : Nat → Int) (hT : Monotone T) (t : ℕ → TimerSys) (evs : ℕ → TimerEv) (h0 : t 0 = new)
    (h : (machine T).Execution t evs) (hround : ∀ n, ∃ m ≥ n, (t m).pc = .wait)
    (hreport : ∀ n, (t n).pc = .wait → (t n).queue.timerfd.readable (T (t n).tick) = true → evs n = .poll true)
    (n : ℕ) (e : Entry) (he : e ∈ (t n).queue.timerList.toList) (hdue : ∃ i, e.first < T i)
    (hpassed : ∀ m ≥ n, e ∈ (t m).queue.timerList.toList →
      ∀ deadline, (t m).queue.timerfd = some deadline → ∃ i, deadline ≤ T i)
    (hfit : ∀ m ≥ n, e ∈ (t m).queue.timerList.toList → StampsFit T (t m) (evs m))
    (hstall : ∀ m ≥ n, e ∈ (t m).queue.timerList.toList →
      ∀ r ∈ (t m).queue.resets.head?, ¬ Timerqueue.Stalls r.1 r.2) :
    ∃ m ≥ n, evs m = .runTimer ∧ ∃ ran todo, (t m).pc = .running ran (e :: todo) := by
  have howned : ∀ m, (t m).Owned := h.invariant (fun _ _ _ hs h => hs.step h) (h0 ▸ owned_new)
  have hhead : ∀ m, (t m).ForHead T := h.invariant (fun _ _ _ hs h => hs.step h) (h0 ▸ forHead_new)
  by_contra hnever
  have htodo : ∀ m ≥ n, e ∉ (t m).pc.todo := by
    intro m hm hin
    obtain ⟨k, hk, hrun⟩ := run_of_todo h howned hround hin
    exact hnever ⟨k, hm.trans hk, hrun⟩
  have hmem : ∀ m ≥ n, e ∈ (t m).queue.timerList.toList := fun m hm =>
    Nat.le_induction he (fun m hm hin => (timerList_step (h m) hin).resolve_right (htodo (m + 1) (by omega))) m hm
  -- at a wait behind its expiration the kernel timer is set, and stays so
  obtain ⟨i, hi⟩ := hdue
  obtain ⟨n1, hn1, hwait1, hlate1⟩ := late_wait hT h hround i n
  have hrest1 : AtRest (t n1).pc := by rw [hwait1]; trivial
  obtain ⟨deadline, hset1⟩ := (hhead n1).set hrest1 (hmem n1 hn1) (hstall n1 hn1 (hmem n1 hn1))
  have hstep : ∀ m ≥ n1, (t m).Past T deadline e → (t (m + 1)).Past T deadline e ∧
      ((t m).pc = .dispatch true → (t (m + 1)).pc = .dispatch true) := fun m hm hs =>
    hs.step hT (howned m) (hfit m (hn1.trans hm) hs.mem) (h m) (hmem (m + 1) (by omega)) (not_aborted (h (m + 1)))
  have hpast : ∀ m ≥ n1, (t m).Past T deadline e := by
    intro m hm
    induction m, hm using Nat.le_induction with
    | base => exact ⟨hrest1, hset1, hmem n1 hn1, lt_of_lt_of_le hi hlate1⟩
    | succ m hm hs => exact (hstep m hm hs).1
  -- it is reported, and the report would never be handled
  obtain ⟨j, hj⟩ := hpassed n1 hn1 (hmem n1 hn1) deadline hset1
  obtain ⟨n2, hn2, hwait2, hlate2⟩ := late_wait hT h hround j n1
  have hreported : (t (n2 + 1)).pc = .dispatch true := by
    have hready : (t n2).queue.timerfd.readable (T (t n2).tick) = true := by
      rw [(hpast n2 hn2).set]
      exact decide_eq_true (hj.trans hlate2)
    exact pc_poll (hreport n2 hwait2 hready ▸ h n2)
  have hstays : ∀ m ≥ n2 + 1, (t m).pc = .dispatch true := by
    intro m hm
    induction m, hm using Nat.le_induction with
    | base => exact hreported
    | succ m hm hpc => exact (hstep m (by omega) (hpast m (by omega))).2 hpc
  obtain ⟨m, hm, hwait⟩ := hround (n2 + 1)
  rw [hstays m hm] at hwait
  cases hwait

/-- A clock that is a second later at each reading, up to the hundredth, and stands still from then on. -/
def secondClock (i : Nat) : Int := (min i 100 : Nat) * 1000000000

/-- A repeating timer and a one-shot one are added; the first runs, then the second, then the first again. -/
def bothKinds : List TimerEv :=
  [.addTimer 8 1000 40000, .addTimer 16 27000 0, .iterationEnd,
    .poll true, .handleTimerfd, .runTimer, .runReturn, .reset, .resetOne, .resetEnd, .iterationEnd,
    .poll true, .handleTimerfd, .runTimer, .runReturn, .reset, .resetOne, .resetEnd, .iterationEnd,
    .poll false, .iterationEnd, .poll false, .iterationEnd,
    .poll true, .handleTimerfd, .runTimer, .runReturn, .reset, .resetOne, .resetEnd, .iterationEnd]

/-- With the clock standing still the repeating timer is never due a third time. -/
def bothKindsEv (n : Nat) : TimerEv := bothKinds.getD n (if n % 2 = 1 then .poll false else .iterationEnd)

def bothKindsRun : Nat → TimerSys
  | 0 => new
  | n + 1 => ((machine secondClock).step (bothKindsRun n) (bothKindsEv n)).getD (bothKindsRun n)

theorem bothKindsEv_idle (k : Nat) : bothKindsEv (k + 31) = if k % 2 = 0 then .poll false else .iterationEnd := by
  rw [bothKindsEv, List.getD_eq_getElem?_getD, List.getElem?_eq_none (Nat.le_add_left 31 k), Option.getD_none]
  by_cases hk : k % 2 = 0
  · rw [if_pos hk, if_pos (by omega)]
  · rw [if_neg hk, if_neg (by omega)]

/-- Behind the last event of `bothKinds` the thread goes between `epoll_wait` and an empty dispatch. -/
theorem bothKindsRun_next {k : Nat} (hpc : (bothKindsRun (k + 31)).pc = if k % 2 = 0 then .wait else .dispatch false) :
    (machine secondClock).step (bothKindsRun (k + 31)) (bothKindsEv (k + 31)) =
      some ((bothKindsRun (k + 31)).next (bothKindsRun (k + 31)).queue
        (if k % 2 = 0 then .dispatch false else .wait)) := by
  rw [bothKindsEv_idle]
  by_cases hk : k % 2 = 0
  · rw [if_pos hk] at hpc
    rw [if_pos hk, if_pos hk]
    simp only [machine, step, hpc]
    exact if_pos fun h => by cases h
  · rw [if_neg hk] at hpc
    rw [if_neg hk, if_neg hk]
    simp only [machine, step, hpc]

theorem bothKindsRun_idle : ∀ k, (bothKindsRun (k + 31)).pc = (if k % 2 = 0 then .wait else .dispatch false) ∧
    (bothKindsRun (k + 31)).queue = (bothKindsRun 31).queue
  | 0 => ⟨by decide +kernel, rfl⟩
  | k + 1 => by
    obtain ⟨hpc, hqueue⟩ := bothKindsRun_idle k
    have hnext : bothKindsRun (k + 1 + 31) = (bothKindsRun (k + 31)).next (bothKindsRun (k + 31)).queue
        (if k % 2 = 0 then .dispatch false else .wait) := by
      rw [show k + 1 + 31 = k + 31 + 1 by omega, bothKindsRun, bothKindsRun_next hpc, Option.getD_some]
    rw [hnext]
    refine ⟨?_, hqueue⟩
    by_cases hk : k % 2 = 0
    · rw [if_neg (show ¬ (k + 1) % 2 = 0 by omega), if_pos hk]
      rfl
    · rw [if_pos (show (k + 1) % 2 = 0 by omega), if_neg hk]
      rfl

theorem bothKindsRun_execution : (machine secondClock).Execution bothKindsRun bothKindsEv := by
  have hfirst : ∀ n < 31, ((machine secondClock).step (bothKindsRun n) (bothKindsEv n)).isSome = true := by
    decide +kernel
  intro n
  rcases Nat.lt_or_ge n 31 with hn | hn
  · obtain ⟨s', hs'⟩ := Option.isSome_iff_exists.mp (hfirst n hn)
    rw [bothKindsRun, hs', Option.getD_some]
  · obtain ⟨k, rfl⟩ := Nat.exists_eq_add_of_le' hn
    have hsucc : bothKindsRun (k + 31 + 1) =
      ((machine secondClock).step (bothKindsRun (k + 31)) (bothKindsEv (k + 31))).getD (bothKindsRun (k + 31)) := rfl
    rw [hsucc, bothKindsRun_next (bothKindsRun_idle k).1, Option.getD_some]

/-- The repeating timer, once restarted, is run a second time. -/
theorem timers_run_bothKinds :
    ∃ m ≥ 9, bothKindsEv m = .runTimer ∧
      ∃ ran todo, (bothKindsRun m).pc = .running ran (⟨64000000000, 8⟩ :: todo) := by
  have hsplit : ∀ n, n < 31 ∨ ∃ k, n = k + 31 := fun n => (Nat.lt_or_ge n 31).imp id Nat.exists_eq_add_of_le'
  have hlast : (⟨64000000000, 8⟩ : Entry) ∉ (bothKindsRun 31).queue.timerList.toList := by decide +kernel
  -- what holds of the first states holds of all in which the timer is in the set
  have hwhile : ∀ P : ℕ → Prop,
      (∀ m < 31, (⟨64000000000, 8⟩ : Entry) ∈ (bothKindsRun m).queue.timerList.toList → P m) →
        ∀ m ≥ 9, (⟨64000000000, 8⟩ : Entry) ∈ (bothKindsRun m).queue.timerList.toList → P m := by
    intro P hP m _ hin
    rcases hsplit m with hm | ⟨k, rfl⟩
    · exact hP m hm hin
    · exact absurd ((bothKindsRun_idle k).2 ▸ hin) hlast
  refine timers_run secondClock (fun i j hij => ?_) bothKindsRun bothKindsEv rfl bothKindsRun_execution
    (fun n => ?_) (fun n hpc hready => ?_) 9 _ (by decide +kernel) ⟨100, by decide⟩ (hwhile _ ?_) (hwhile _ ?_)
    (hwhile _ ?_)
  · unfold secondClock
    omega
  · exact ⟨2 * n + 31, by omega, by rw [(bothKindsRun_idle (2 * n)).1, if_pos (Nat.mul_mod_right 2 n)]⟩
  · rcases hsplit n with hn | ⟨k, rfl⟩
    · have hfirst : ∀ n < 31, (bothKindsRun n).pc = .wait →
          (bothKindsRun n).queue.timerfd.readable (secondClock (bothKindsRun n).tick) = true →
            n = 3 ∨ n = 11 ∨ n = 23 := by decide +kernel
      rcases hfirst n hn hpc hready with rfl | rfl | rfl <;> rfl
    · have hset : (bothKindsRun 31).queue.timerfd = some 126000000000 := by decide +kernel
      rw [(bothKindsRun_idle k).2, hset] at hready
      have hle := of_decide_eq_true hready
      unfold secondClock at hle
      omega
  · have hfirst : ∀ m < 31, (⟨64000000000, 8⟩ : Entry) ∈ (bothKindsRun m).queue.timerList.toList →
        ∀ deadline ∈ (bothKindsRun m).queue.timerfd, deadline ≤ secondClock 100 := by decide +kernel
    exact fun m hm hin deadline hset => ⟨100, hfirst m hm hin deadline hset⟩
  · decide +kernel
  · decide +kernel

end TimerSys

end NetImitate
