import NetImitate.Timerqueue.Delay
import NetImitate.Timerqueue.Ownership

/-!
# The assertion of `handleTimerfd`

* `Ahead` : the deadline the kernel timer is set to lies after the expiration of the head;
* `insert_of_expired` : once the deadline has passed, a new timer does not come first and the kernel timer is not set;
* `Guarded` : the invariant, with every expiration in the range that `resetTimerfd` carries;
* `read_assertion` : when `handleTimerfd` is dispatched the kernel timer has not been set since the expiration that
  was reported.
-/

namespace NetImitate

namespace Timerqueue

/-- The delays `resetTimerfd` carries. -/
def range : Int := (2 ^ 32 - 1000) * TimeStamp.nanosPerMilli

/-- The deadline lies after the expiration of the head. -/
def Ahead (q : Timerqueue) : Prop :=
  ∀ deadline, q.timerfd = some deadline → ∃ head, q.timerList.begin? = some head ∧ head.first < deadline

/-- No head is farther away from `now` than `resetTimerfd` carries. -/
def Near (q : Timerqueue) (now : Int) : Prop := ∀ e ∈ q.timerList.toList, e.first < now + range

theorem Near.mono {q : Timerqueue} {now now' : Int} (h : q.Near now) (hle : now ≤ now') : q.Near now' := by
  intro e he
  exact lt_of_lt_of_le (h e he) (Int.add_le_add_right hle range)

/-! ## What arming leaves -/

/-- A delay that is not zero ends after the head is due. -/
theorem lt_add_delay {now next clock : Int} (hnear : next < now + range) (hclock : now ≤ clock)
    (hne : itValue now next ≠ 0) : next < clock + itValue now next * 1000000000 := by
  unfold range TimeStamp.nanosPerMilli at hnear
  rcases le_or_gt now next with hle | hlt
  · have hvalue := itValue_eq now next
    rw [millis_of_due hle (by omega)] at hvalue
    omega
  · have hpos := Nat.pos_of_ne_zero hne
    omega

theorem Ahead.resetTimerfd {q : Timerqueue} (h : q.Ahead) {now clock : Int} (hnear : q.Near now)
    (hclock : now ≤ clock) : (q.resetTimerfd now clock).Ahead := by
  unfold Timerqueue.resetTimerfd
  split
  · exact h
  · rename_i next hbegin
    intro deadline hdeadline
    refine ⟨next, hbegin, ?_⟩
    simp only [Timerfd.settime] at hdeadline
    split at hdeadline
    · cases hdeadline
    · rename_i hne
      cases hdeadline
      exact lt_add_delay (hnear next (OrdSet.mem_of_begin hbegin)) hclock hne

/-- An insertion sets the kernel timer for the new head, or leaves the head as it was. -/
theorem Ahead.insert {q : Timerqueue} (h : q.Ahead) {timeStamp : TimeStamp} {timer : Ptr} {now clock : Int}
    (hnear : q.Near now) (hstamp : timeStamp < now + range) (hclock : now ≤ clock) :
    (q.insert timeStamp timer now clock).Ahead := by
  have hnear' : Near { q with timerList := q.timerList.emplace ⟨timeStamp, timer⟩ } now := by
    intro e he
    rcases OrdSet.mem_emplace.mp he with rfl | he
    · exact hstamp
    · exact hnear e he
  simp only [Timerqueue.insert]
  split
  · -- the new head may be the first timer of all, so the kernel timer is looked at only as it is set
    rename_i hfirst
    obtain ⟨head, hbegin, -⟩ := Option.map_eq_some_iff.mp hfirst
    have hset := Ahead.resetTimerfd (q := { q with
      timerList := q.timerList.emplace ⟨timeStamp, timer⟩, timerfd := none }) (fun _ h => by cases h) hnear' hclock
    simp only [Timerqueue.resetTimerfd, hbegin] at hset ⊢
    exact hset
  · rename_i hfirst
    intro deadline hdeadline
    obtain ⟨head, hbegin, hlt⟩ := h deadline hdeadline
    refine ⟨head, ?_, hlt⟩
    rcases q.timerList.begin_emplace ⟨timeStamp, timer⟩ with hnew | hold
    · exact absurd (congrArg (Option.map Entry.second) hnew) hfirst
    · exact hold.trans hbegin

theorem Ahead.rearm {q : Timerqueue} (h : q.Ahead) {gettimeAt now clock : Int} (hnear : q.Near now)
    (hclock : now ≤ clock) : (q.rearm gettimeAt now clock).Ahead := by
  unfold Timerqueue.rearm
  split
  · exact h.resetTimerfd hnear hclock
  · exact h

/-- What an operation whose clock readings are from `now` on does to the kernel timer: nothing, or it is left unset, or
set to a later time. -/
def Moves (q q' : Timerqueue) (now : Int) : Prop :=
  q'.timerfd = q.timerfd ∧ q'.resets = q.resets ∨ q'.timerfd = none ∨
    ∃ deadline, q'.timerfd = some deadline ∧ now < deadline

theorem Moves.refl (q : Timerqueue) (now : Int) : q.Moves q now := Or.inl ⟨rfl, rfl⟩

theorem moves_resetTimerfd (q : Timerqueue) (now : Int) {clock start : Int} (hclock : start ≤ clock) :
    q.Moves (q.resetTimerfd now clock) start := by
  unfold resetTimerfd
  split
  · exact Moves.refl q start
  · refine Or.inr ?_
    simp only [Timerfd.settime]
    split
    · exact Or.inl rfl
    · rename_i hne
      have hpos := Nat.pos_of_ne_zero hne
      exact Or.inr ⟨_, rfl, by omega⟩

theorem moves_insert (q : Timerqueue) (heap : Ptr → Option Cell) (timeStamp : TimeStamp) (timer : Ptr) (now : Int)
    {clock start : Int} (hclock : start ≤ clock) :
    q.Moves (Timerqueue.insert { q with heap := heap } timeStamp timer now clock) start := by
  simp only [insert]
  split
  · exact moves_resetTimerfd { q with heap := heap, timerList := q.timerList.emplace ⟨timeStamp, timer⟩ } now hclock
  · exact Moves.refl q start

theorem moves_resetOne (q : Timerqueue) (val : Entry) (c : Cell) (restartAt now : Int) {clock start : Int}
    (hclock : start ≤ clock) : q.Moves (q.resetOne val c restartAt now clock) start := by
  unfold resetOne
  split
  · exact moves_insert q _ _ _ now hclock
  · exact Moves.refl q start

theorem moves_rearm (q : Timerqueue) (gettimeAt now : Int) {clock start : Int} (hclock : start ≤ clock) :
    q.Moves (q.rearm gettimeAt now clock) start := by
  unfold rearm
  split
  · exact moves_resetTimerfd q now hclock
  · exact Moves.refl q start

/-- A timer added when the deadline has passed is due after the head, so the kernel timer is left alone. -/
theorem insert_of_expired {q : Timerqueue} (h : q.Ahead) {deadline : Int} (hdeadline : q.timerfd = some deadline)
    {timeStamp : TimeStamp} {timer : Ptr} (hle : deadline ≤ timeStamp)
    (hfresh : ∀ e ∈ q.timerList.toList, e.second ≠ timer) (now clock : Int) :
    q.insert timeStamp timer now clock = { q with timerList := q.timerList.emplace ⟨timeStamp, timer⟩ } := by
  obtain ⟨head, hbegin, hlt⟩ := h deadline hdeadline
  have hmem := OrdSet.mem_of_begin hbegin
  have hfirst : (q.timerList.emplace ⟨timeStamp, timer⟩).begin? = some head :=
    (OrdSet.begin_emplace_of_lt hmem (Entry.lt_iff.mpr (Or.inl (lt_of_lt_of_le hlt hle)))).trans hbegin
  simp only [insert]
  rw [if_neg]
  rw [hfirst, Option.map_some, Option.some.injEq]
  exact hfresh head hmem

end Timerqueue

namespace TimerSys

/-- Every delay and interval is in the range of `resetTimerfd`. -/
def Short : TimerEv → Prop
  | .addTimer _ timeDelay interval => timeDelay.toNat < 2 ^ 32 - 1000 ∧ interval.toNat < 2 ^ 32 - 1000
  | _ => True

structure Guarded (T : Nat → Int) (s : TimerSys) : Prop where
  owned : s.Owned
  near : s.queue.Near (T s.tick)
  ahead : s.queue.Ahead
  /-- What is restarted is restarted within range. -/
  short : ∀ timer c, s.queue.heap timer = some c → c.timer.interval.toNat < 2 ^ 32 - 1000
  reported : s.pc = .dispatch true → s.queue.timerfd.readable (T s.tick) = true
  intact : s.pc ≠ .aborted

variable {T : Nat → Int}

theorem guarded_new : new.Guarded T where
  owned := owned_new
  near := fun _ he => (List.not_mem_nil he).elim
  ahead := fun _ h => by cases h
  short := fun _ _ h => by cases h
  reported := fun h => by cases h
  intact := by simp [new]

/-- A stamp within range. -/
theorem addTime_lt_range {now : Int} {timeDelay : UInt64} (hfit : TimeStamp.Fits now timeDelay)
    (hshort : timeDelay.toNat < 2 ^ 32 - 1000) : TimeStamp.addTime now timeDelay < now + Timerqueue.range := by
  rw [TimeStamp.addTime_eq hfit]
  unfold Timerqueue.range TimeStamp.nanosPerMilli
  exact Int.add_lt_add_left (by omega) now

theorem le_addTime {now : Int} {timeDelay : UInt64} (hfit : TimeStamp.Fits now timeDelay) :
    now ≤ TimeStamp.addTime now timeDelay := by
  rw [TimeStamp.addTime_eq hfit]
  unfold TimeStamp.nanosPerMilli
  exact Int.le_add_of_nonneg_right (by omega)

theorem readable_mono {fd : Timerfd} {clock clock' : Int} (h : fd.readable clock = true) (hle : clock ≤ clock') :
    fd.readable clock' = true := by
  unfold Timerfd.readable at h ⊢
  cases fd with
  | none => exact h
  | some deadline =>
    rw [decide_eq_true_eq] at h ⊢
    exact le_trans h hle

theorem readable_iff {fd : Timerfd} {clock : Int} :
    fd.readable clock = true ↔ ∃ deadline, fd = some deadline ∧ deadline ≤ clock := by
  unfold Timerfd.readable
  cases fd with
  | none => simp
  | some deadline => simp

/-! ## Steps and runs -/

variable {s : TimerSys}

theorem tick_le (hT : Monotone T) (s : TimerSys) (i : Nat) : T s.tick ≤ T (s.tick + i) := hT (Nat.le_add_right s.tick i)

/-- Steps that leave the queue alone. -/
theorem Guarded.same (hs : s.Guarded T) (hT : Monotone T) {s' : TimerSys} (howned : s'.Owned)
    (hqueue : s'.queue = s.queue) (htick : s'.tick = s.tick + 3)
    (hreported : s'.pc = .dispatch true → s.queue.timerfd.readable (T s.tick) = true) (hpc : s'.pc ≠ .aborted) :
    s'.Guarded T where
  owned := howned
  near := by
    rw [hqueue, htick]
    exact hs.near.mono (tick_le hT s 3)
  ahead := hqueue ▸ hs.ahead
  short := hqueue ▸ hs.short
  reported := by
    intro h
    rw [hqueue, htick]
    exact readable_mono (hreported h) (tick_le hT s 3)
  intact := hpc

/-- A heap in which one timer has been written, with an interval in range. -/
theorem short_update {heap : Ptr → Option Cell}
    (h : ∀ timer c, heap timer = some c → c.timer.interval.toNat < 2 ^ 32 - 1000) {timer : Ptr} {c : Cell}
    (hc : c.timer.interval.toNat < 2 ^ 32 - 1000) :
    ∀ timer' c', Function.update heap timer (some c) timer' = some c' → c'.timer.interval.toNat < 2 ^ 32 - 1000 := by
  intro timer' c' hc'
  by_cases heq : timer' = timer
  · rw [heq, Function.update_self, Option.some.injEq] at hc'
    exact hc' ▸ hc
  · rw [Function.update_of_ne heq] at hc'
    exact h timer' c' hc'

/-- Steps that write a timer and enter its stamp. -/
theorem Guarded.insert (hs : s.Guarded T) (hT : Monotone T) {heap : Ptr → Option Cell} {timeStamp : TimeStamp}
    {timer : Ptr} {s' : TimerSys} (howned : s'.Owned) (htick : s'.tick = s.tick + 3)
    (hqueue : s'.queue = Timerqueue.insert { s.queue with heap := heap } timeStamp timer (T (s.tick + 1))
      (T (s.tick + 2)))
    (hshort : ∀ timer c, heap timer = some c → c.timer.interval.toNat < 2 ^ 32 - 1000)
    (hstamp : timeStamp < T s.tick + Timerqueue.range)
    (hreported : s'.pc = .dispatch true → s'.queue.timerfd.readable (T s.tick) = true) (hpc : s'.pc ≠ .aborted) :
    s'.Guarded T where
  owned := howned
  near := by
    intro e he
    rw [hqueue, Timerqueue.insert_timerList] at he
    rw [htick]
    refine lt_of_lt_of_le ?_ (Int.add_le_add_right (tick_le hT s 3) Timerqueue.range)
    rcases OrdSet.mem_emplace.mp he with rfl | he
    · exact hstamp
    · exact hs.near e he
  ahead := by
    have hstamp' := lt_of_lt_of_le hstamp (Int.add_le_add_right (tick_le hT s 1) Timerqueue.range)
    rw [hqueue]
    exact Timerqueue.Ahead.insert (q := { s.queue with heap := heap }) hs.ahead (hs.near.mono (tick_le hT s 1))
      hstamp' (hT (Nat.le_succ _))
  short := by
    rw [hqueue, Timerqueue.insert_heap]
    exact hshort
  reported := by
    intro h
    rw [htick]
    exact readable_mono (hreported h) (tick_le hT s 3)
  intact := hpc

/-- A timer added after the kernel timer was reported leaves it alone: the head is due before the deadline, and the new
timer after it. -/
theorem Guarded.addTimer_kept (hs : s.Guarded T) {timer : Ptr} {timeDelay interval : UInt64} {serial : Nat}
    {now clock : Int} (hfresh : s.queue.heap timer = none) (hfit : TimeStamp.Fits (T s.tick) timeDelay)
    (hpc : s.pc = .dispatch true) :
    (s.queue.addTimer serial timer (TimeStamp.addTime (T s.tick) timeDelay) interval now clock).timerfd =
        s.queue.timerfd ∧
      (s.queue.addTimer serial timer (TimeStamp.addTime (T s.tick) timeDelay) interval now clock).resets =
        s.queue.resets := by
  obtain ⟨deadline, hdeadline, hle⟩ := readable_iff.mp (hs.reported hpc)
  have hfree : ∀ e ∈ s.queue.timerList.toList, e.second ≠ timer :=
    fun e he heq => hs.owned.live (List.mem_append_left _ he) (heq ▸ hfresh)
  have hkept := fun heap => Timerqueue.insert_of_expired (q := { s.queue with heap := heap }) hs.ahead hdeadline
    (le_trans hle (le_addTime hfit)) hfree now clock
  rw [Timerqueue.addTimer, hkept]
  exact ⟨rfl, rfl⟩

theorem Guarded.addTimer (hs : s.Guarded T) (hT : Monotone T) {timer : Ptr} {timeDelay interval : UInt64}
    (hfresh : s.queue.heap timer = none) (hfit : TimeStamp.Fits (T s.tick) timeDelay)
    (hshort : Short (.addTimer timer timeDelay interval)) {s' : TimerSys} (howned : s'.Owned) (hpc : s'.pc = s.pc)
    (htick : s'.tick = s.tick + 3)
    (hqueue : s'.queue = s.queue.addTimer s.allocated.length timer (TimeStamp.addTime (T s.tick) timeDelay) interval
      (T (s.tick + 1)) (T (s.tick + 2))) : s'.Guarded T := by
  refine hs.insert hT howned htick hqueue (short_update hs.short hshort.2) (addTime_lt_range hfit hshort.1) ?_ ?_
  · intro hdispatch
    rw [hqueue, (hs.addTimer_kept hfresh hfit (hpc ▸ hdispatch)).1]
    exact hs.reported (hpc ▸ hdispatch)
  · rw [hpc]
    exact hs.intact

theorem Guarded.restart (hs : s.Guarded T) (hT : Monotone T) {val : Entry} {todo : List Entry} {c : Cell}
    (hpc : s.pc = .resetting (val :: todo)) (hcell : s.queue.heap val.second = some c)
    (hfit : StampsFit T s .resetOne) (hrepeat : c.timer.isRepeat = true)
    (howned : (s.next (s.queue.resetOne val c (T s.tick) (T (s.tick + 1)) (T (s.tick + 2))) (.resetting todo)).Owned) :
    (s.next (s.queue.resetOne val c (T s.tick) (T (s.tick + 1)) (T (s.tick + 2))) (.resetting todo)).Guarded T := by
  have hcurrent : s.current = some c.timer := by
    simp only [current, hpc, hcell, Option.map_some]
  have hshort := hs.short val.second c hcell
  set timer := c.timer.restart (T s.tick) with htimer
  have hqueue : s.queue.resetOne val c (T s.tick) (T (s.tick + 1)) (T (s.tick + 2)) = Timerqueue.insert
      { s.queue with heap := Function.update s.queue.heap val.second (some { c with timer := timer }) }
      timer.expiration val.second (T (s.tick + 1)) (T (s.tick + 2)) := by
    rw [Timerqueue.resetOne, if_pos hrepeat]
  refine hs.insert hT howned rfl hqueue (short_update hs.short hshort)
    (addTime_lt_range (hfit c.timer hcurrent) hshort) ?_ (by simp [TimerSys.next])
  intro h
  cases h

theorem Guarded.delete (hs : s.Guarded T) (hT : Monotone T) {val : Entry} {todo : List Entry} {c : Cell}
    (hrepeat : c.timer.isRepeat = false) {s' : TimerSys} (howned : s'.Owned) (hpc' : s'.pc = .resetting todo)
    (htick : s'.tick = s.tick + 3)
    (hqueue : s'.queue = s.queue.resetOne val c (T s.tick) (T (s.tick + 1)) (T (s.tick + 2))) : s'.Guarded T := by
  have hheap : s'.queue = { s.queue with heap := Function.update s.queue.heap val.second none } := by
    rw [hqueue, Timerqueue.resetOne, if_neg (by rw [hrepeat]; exact Bool.false_ne_true)]
  refine ⟨howned, ?_, ?_, ?_, ?_, ?_⟩
  · rw [hheap, htick]
    exact hs.near.mono (tick_le hT s 3)
  · rw [hheap]
    exact hs.ahead
  · rw [hheap]
    intro timer' c' hc'
    by_cases heq : timer' = val.second
    · simp only [heq, Function.update_self] at hc'
      cases hc'
    · simp only [Function.update_of_ne heq] at hc'
      exact hs.short timer' c' hc'
  · rw [hpc']
    intro h
    cases h
  · rw [hpc']
    simp

theorem Guarded.step (hs : s.Guarded T) (hT : Monotone T) {s' : TimerSys} {e : TimerEv} (hfit : StampsFit T s e)
    (hshort : Short e) (h : (machine T).step s e = some s') : s'.Guarded T := by
  have howned := hs.owned.step h
  cases step_cases h with
  | @poll timerfd hpc hready =>
    refine hs.same hT howned rfl rfl ?_ (by simp [TimerSys.next])
    intro hdispatch
    cases hdispatch
    exact hready rfl
  | addTimer hpc hfresh haddr => exact hs.addTimer hT hfresh hfit hshort howned rfl rfl rfl
  | expire hpc hready =>
    have hlist := s.queue.timerList.below_append_lowerBound ⟨T (s.tick + 1), uintptrMax⟩
    refine ⟨howned, ?_, (fun _ h => by cases h), hs.short, (fun h => by cases h), (by simp [TimerSys.next])⟩
    intro e he
    exact hs.near.mono (tick_le hT s 3) e (hlist ▸ List.mem_append_right _ he)
  | abort hpc hready =>
    rw [hs.reported hpc] at hready
    cases hready
  | runTimer hpc hcell => exact hs.same hT howned rfl rfl (fun h => by cases h) (by simp [TimerSys.next])
  | runFault hpc hcell => exact hs.same hT howned rfl rfl (fun h => by cases h) (by simp [TimerSys.next])
  | runReturn hpc => exact hs.same hT howned rfl rfl (fun h => by cases h) (by simp [TimerSys.next])
  | reset hpc => exact hs.same hT howned rfl rfl (fun h => by cases h) (by simp [TimerSys.next])
  | restart hpc hcell hrepeat => exact hs.restart hT hpc hcell hfit hrepeat howned
  | delete hpc hcell hrepeat => exact hs.delete hT hrepeat howned rfl rfl rfl
  | resetFault hpc hcell => exact hs.same hT howned rfl rfl (fun h => by cases h) (by simp [TimerSys.next])
  | resetEnd hpc =>
    refine ⟨howned, ?_, hs.ahead.rearm (hs.near.mono (tick_le hT s 1)) (hT (Nat.le_succ _)), ?_,
      (fun h => by cases h), (by simp [TimerSys.next])⟩
    · intro e he
      rw [TimerSys.next, Timerqueue.rearm_timerList] at he
      exact hs.near.mono (tick_le hT s 3) e he
    · simp only [TimerSys.next, Timerqueue.rearm_heap]
      exact hs.short
  | iterationEnd hpc => exact hs.same hT howned rfl rfl (fun h => by cases h) (by simp [TimerSys.next])

theorem guarded_run (hT : Monotone T) {es : List TimerEv} (hfit : (machine T).Meets (StampsFit T) new es)
    (hshort : ∀ e ∈ es, Short e) (h : (machine T).run new es = some s) : s.Guarded T := by
  have hshort' := (machine T).meets_of_forall (C := fun _ e => Short e) (fun _ e he => hshort e he) new
  exact (machine T).run_invariant_of_meets (fun _ _ _ hs hC h => hs.step hT hC.1 hC.2 h) es new s guarded_new
    (hfit.and hshort') h

/-! ## Since the expiration -/

theorem step_moves (hT : Monotone T) {s' : TimerSys} {e : TimerEv} (h : (machine T).step s e = some s') :
    s.queue.Moves s'.queue (T s.tick) := by
  have hclock := tick_le hT s 2
  cases step_cases h with
  | addTimer hpc hfresh haddr => exact Timerqueue.moves_insert _ _ _ _ _ hclock
  | expire hpc hready => exact Or.inr (Or.inl rfl)
  | restart hpc hcell hrepeat => exact Timerqueue.moves_resetOne _ _ _ _ _ hclock
  | delete hpc hcell hrepeat => exact Timerqueue.moves_resetOne _ _ _ _ _ hclock
  | resetEnd hpc => exact Timerqueue.moves_rearm _ _ _ hclock
  | _ => exact Timerqueue.Moves.refl _ _

theorem step_tick {s' : TimerSys} {e : TimerEv} (h : (machine T).step s e = some s') : s'.tick = s.tick + 3 := by
  cases step_cases h <;> rfl

/-- A kernel timer that is set to `deadline` has not been set since that time. -/
theorem resets_since (hT : Monotone T) {s' : TimerSys} {deadline : Int} {es : List TimerEv}
    (hle : deadline ≤ T s.tick) (hdeadline : s'.queue.timerfd = some deadline)
    (h : (machine T).run s es = some s') : s.queue.resets = s'.queue.resets := by
  have hinv : deadline ≤ T s'.tick ∧ s.queue.Moves s'.queue deadline := by
    refine (machine T).run_invariant (I := fun t => deadline ≤ T t.tick ∧ s.queue.Moves t.queue deadline) ?_ es s s'
      ⟨hle, Timerqueue.Moves.refl _ _⟩ h
    rintro t e t' ⟨hle, hmoves⟩ hstep
    refine ⟨?_, ?_⟩
    · rw [step_tick hstep]
      exact le_trans hle (tick_le hT t 3)
    · rcases step_moves hT hstep with ⟨hfd, hresets⟩ | hnone | ⟨later, hfd, hlt⟩
      · unfold Timerqueue.Moves
        rw [hfd, hresets]
        exact hmoves
      · exact Or.inr (Or.inl hnone)
      · exact Or.inr (Or.inr ⟨later, hfd, lt_of_le_of_lt hle hlt⟩)
  rcases hinv.2 with ⟨-, hresets⟩ | hnone | ⟨later, hfd, hlt⟩
  · exact hresets.symm
  · rw [hdeadline] at hnone
    cases hnone
  · rw [hdeadline, Option.some.injEq] at hfd
    exact absurd hlt (hfd ▸ lt_irrefl deadline)

/-- After the events `es` the kernel timer is readable, by an expiration that `epoll_wait` has reported and since which
`resetTimerfd` has not set it. -/
def Unread (T : Nat → Int) (es : List TimerEv) (s : TimerSys) : Prop :=
  ∃ deadline, s.queue.timerfd = some deadline ∧ deadline ≤ T s.tick ∧
    (∃ es1 es2 s1, es = es1 ++ .poll true :: es2 ∧ (machine T).run new es1 = some s1 ∧
      s1.queue.timerfd = some deadline ∧ deadline ≤ T s1.tick) ∧
    ∀ es1 es2 s1, es = es1 ++ es2 → (machine T).run new es1 = some s1 → deadline ≤ T s1.tick →
      s1.queue.resets = s.queue.resets

/-- The poll that reported the kernel timer which is to be handled. -/
theorem reported_by_poll (hT : Monotone T) {es : List TimerEv} (hfit : (machine T).Meets (StampsFit T) new es)
    (hshort : ∀ e ∈ es, Short e) (h : (machine T).run new es = some s) (hpc : s.pc = .dispatch true) :
    ∃ es1 es2 s1, es = es1 ++ .poll true :: es2 ∧ (machine T).run new es1 = some s1 ∧
      s1.queue.timerfd = s.queue.timerfd ∧ s1.queue.timerfd.readable (T s1.tick) = true := by
  refine (machine T).run_induction (P := fun es s => (machine T).Meets (StampsFit T) new es → (∀ e ∈ es, Short e) →
    s.pc = .dispatch true → ∃ es1 es2 s1, es = es1 ++ .poll true :: es2 ∧ (machine T).run new es1 = some s1 ∧
      s1.queue.timerfd = s.queue.timerfd ∧ s1.queue.timerfd.readable (T s1.tick) = true) ?_ ?_ es s h hfit hshort hpc
  · intro _ _ hpc
    cases hpc
  · intro es e s1 s2 hrun ih hstep hfit hshort hpc
    obtain ⟨hbefore, hlast⟩ := (machine T).meets_append.mp hfit
    have hshort' : ∀ e ∈ es, Short e := fun e he => hshort e (List.mem_append_left _ he)
    have hs1 := guarded_run hT hbefore hshort' hrun
    cases step_cases hstep with
    | @poll timerfd hwait hready =>
      cases hpc
      exact ⟨es, [], s1, rfl, hrun, rfl, hready rfl⟩
    | addTimer hadds hfresh haddr =>
      obtain ⟨es1, es2, s0, rfl, hrun0, hfd, hready⟩ := ih hbefore hshort' hpc
      refine ⟨es1, es2 ++ [_], s0, by rw [List.append_assoc]; rfl, hrun0, hfd.trans ?_, hready⟩
      exact (hs1.addTimer_kept hfresh (hlast s1 hrun).1 hpc).1.symm
    | _ => cases hpc

/-- **The assertion of `handleTimerfd` holds**: over any run on one nondecreasing clock, with delays and intervals in
the range of `resetTimerfd`, the handler is dispatched only with the reported expiration still unread, and its read
succeeds. -/
theorem read_assertion (T : Nat → Int) (hT : Monotone T) (es : List TimerEv) (s : TimerSys)
    (hshort : ∀ e ∈ es, Short e) (hfit : (machine T).Meets (StampsFit T) new es)
    (h : (machine T).run new es = some s) : s.pc ≠ .aborted ∧ (s.pc = .dispatch true → Unread T es s) := by
  have hs := guarded_run hT hfit hshort h
  refine ⟨hs.intact, ?_⟩
  intro hpc
  obtain ⟨es1, es2, s1, hsplit, hrun1, hfd, hready⟩ := reported_by_poll hT hfit hshort h hpc
  obtain ⟨deadline, hdeadline, hle⟩ := readable_iff.mp (hs.reported hpc)
  have hdeadline1 := hfd.trans hdeadline
  obtain ⟨deadline1, hsame, hle1⟩ := readable_iff.mp hready
  rw [hdeadline1, Option.some.injEq] at hsame
  subst hsame
  refine ⟨deadline, hdeadline, hle, ⟨es1, es2, s1, hsplit, hrun1, hdeadline1, hle1⟩, ?_⟩
  intro fs gs t hfs hrunt hlet
  rw [hfs] at h
  obtain ⟨t', ht', hrest⟩ := (machine T).run_append_some h
  rw [hrunt, Option.some.injEq] at ht'
  exact resets_since hT hlet hdeadline (ht' ▸ hrest)

/-- A handler adds a timer that is due at once, between the report of the kernel timer and its handling. -/
def addedInBetween : List TimerEv := [.addTimer 8 1000 0, .iterationEnd, .poll true, .addTimer 16 0 1000]

theorem read_assertion_addedInBetween :
    ∃ s, (machine fun i => i * 1000000000).run new addedInBetween = some s ∧
      Unread (fun i => i * 1000000000) addedInBetween s := by
  have hT : Monotone fun i : Nat => (i : Int) * 1000000000 := fun i j hij => by simp only; omega
  have hrun : ((machine fun i => i * 1000000000).run new addedInBetween).map TimerSys.pc = some (.dispatch true) := by
    decide +kernel
  have hshort : ∀ e ∈ addedInBetween, Short e := by
    simp only [addedInBetween, List.forall_mem_cons, Short, List.not_mem_nil, false_imp_iff, implies_true, and_true,
      true_and]
    decide
  obtain ⟨s, hs, hpc⟩ := Option.map_eq_some_iff.mp hrun
  exact ⟨s, hs, (read_assertion _ hT addedInBetween s hshort (by decide +kernel) hs).2 hpc⟩

end TimerSys

end NetImitate
