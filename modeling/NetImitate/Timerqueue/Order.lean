import NetImitate.Timerqueue.Ownership

/-!
# Timers run in the order of their deadlines

* `runs` : the timers that have run; `Moved` : how a step moves the entries that wait to run;
* `ServesBatches` : a batch is what has expired at the sentry, and it runs to its end in order;
* `InOrder` : of two timers in the set, the one due first runs first;
* `NeverEarly`, `Spaced` : when a callback starts, and how far apart two runs of a repeating timer start;
* `Punctual` : the invariant; `deadline_order` : all of it, over any run.
-/

namespace NetImitate

def TimerLog.started : TimerLog → Option Nat
  | .run serial _ _ => some serial
  | .delete _ => none

namespace TimerSys

/-- The timers that have run, in order, by the number of their allocation. -/
def runs (s : TimerSys) : List Nat := s.log.filterMap TimerLog.started

/-- The entries that wait to run, those of the batch first. -/
def pending (s : TimerSys) : List Entry := s.pc.todo ++ s.queue.timerList.toList

variable {s s' : TimerSys} {T : Nat → Int}

/-! ## How a step moves the entries that wait -/

theorem mem_held_of_pending {e : Entry} (he : e ∈ s.pending) : e ∈ s.held := by
  rcases List.mem_append.mp he with he | he
  · exact List.mem_append_right _ (List.mem_append_right _ he)
  · exact List.mem_append_left _ he

/-- The first entry that waits is the only one of its timer. -/
theorem serialAt_ne (hs : s.Owned) {val : Entry} {rest : List Entry} (hpending : s.pending = val :: rest) :
    ∀ e ∈ rest, s.serialAt e ≠ s.serialAt val := by
  have hheld : s.held.Perm (val :: (rest ++ s.pc.ran)) := by
    rw [← List.cons_append, ← hpending, held, pending, List.append_assoc]
    refine List.perm_append_comm.trans ?_
    rw [List.append_assoc]
    exact List.perm_append_comm.trans (by rw [List.append_assoc])
  intro e he
  exact hs.others hheld e (List.mem_append_left _ he)

/-- A timer that waits to run is not touched by any step. -/
theorem heap_of_pending (hs : s.Owned) {ev : TimerEv} (h : (machine T).step s ev = some s') {e : Entry}
    (he : e ∈ s.pending) : s'.queue.heap e.second = s.queue.heap e.second := by
  have hother : ∀ {todo : List Entry} {val : Entry}, s.pc = .resetting (val :: todo) → e.second ≠ val.second := by
    intro todo val hpc
    refine hs.others_second (held_resetting hpc) e (List.mem_append_left _ ?_)
    simpa [pending, hpc, TimerPc.todo] using he
  cases step_cases h with
  | addTimer hpc hfresh haddr =>
    have hne : e.second ≠ _ := fun heq => hs.live (mem_held_of_pending he) (heq ▸ hfresh)
    simp only [TimerSys.next, Timerqueue.addTimer, Timerqueue.insert_heap]
    exact Function.update_of_ne hne _ _
  | restart hpc hcell hrepeat =>
    simp only [TimerSys.next, Timerqueue.resetOne, if_pos hrepeat, Timerqueue.insert_heap]
    exact Function.update_of_ne (hother hpc) _ _
  | delete hpc hcell hrepeat =>
    simp only [TimerSys.next, Timerqueue.resetOne, hrepeat, Bool.false_eq_true, if_false]
    exact Function.update_of_ne (hother hpc) _ _
  | resetEnd hpc => simp only [TimerSys.next, Timerqueue.rearm_heap]
  | _ => rfl

/-- How a step moves the entries that wait to run. -/
inductive Moved (T : Nat → Int) (s : TimerSys) : TimerEv → TimerSys → Prop
  | quiet {e : TimerEv} {s' : TimerSys} (htodo : s'.pc.todo = s.pc.todo) (hruns : s'.runs = s.runs)
      (hlist : s.queue.timerList.toList.Sublist s'.queue.timerList.toList) : Moved T s e s'
  | started {e : TimerEv} {s' : TimerSys} {todo : List Entry} {val : Entry} {c : Cell}
      (htodo : s.pc.todo = val :: todo) (hcell : s.queue.heap val.second = some c) (htodo' : s'.pc.todo = todo)
      (hruns : s'.runs = s.runs ++ [c.serial]) (hqueue : s'.queue = s.queue) : Moved T s e s'
  | looked {s' : TimerSys} (htodo : s.pc.todo = [])
      (hpc : s'.pc = .running [] (s.queue.timerList.below ⟨T (s.tick + 1), uintptrMax⟩)) (hruns : s'.runs = s.runs)
      (hlist : s'.queue.timerList = s.queue.timerList.lowerBound ⟨T (s.tick + 1), uintptrMax⟩) :
      Moved T s .handleTimerfd s'

theorem moved_of_step (hs : s.Owned) {ev : TimerEv} (h : (machine T).step s ev = some s') : Moved T s ev s' := by
  cases step_cases h with
  | poll hpc hready => exact .quiet (by rw [hpc]; rfl) rfl (List.Sublist.refl _)
  | addTimer hpc hfresh haddr =>
    refine .quiet rfl rfl ?_
    simp only [TimerSys.next, Timerqueue.addTimer, Timerqueue.insert_timerList]
    exact s.queue.timerList.sublist_emplace _
  | expire hpc hready => exact .looked (by rw [hpc]; rfl) rfl rfl rfl
  | abort hpc hready => exact .quiet (by rw [hpc]; rfl) rfl (List.Sublist.refl _)
  | runTimer hpc hcell =>
    refine .started (by rw [hpc]; rfl) hcell rfl ?_ rfl
    simp only [runs, List.filterMap_append]
    rfl
  | @runFault ran todo val hpc hcell =>
    exact absurd hcell (hs.waiting val (List.mem_append_right _ (by rw [hpc]; exact List.mem_cons_self))).live
  | runReturn hpc => exact .quiet (by rw [hpc]; rfl) rfl (List.Sublist.refl _)
  | reset hpc => exact .quiet (by rw [hpc]; rfl) rfl (List.Sublist.refl _)
  | restart hpc hcell hrepeat =>
    refine .quiet (by rw [hpc]; rfl) rfl ?_
    simp only [TimerSys.next, Timerqueue.resetOne, if_pos hrepeat, Timerqueue.insert_timerList]
    exact s.queue.timerList.sublist_emplace _
  | delete hpc hcell hrepeat =>
    refine .quiet (by rw [hpc]; rfl) ?_ ?_
    · simp only [runs, List.filterMap_append]
      exact List.append_nil _
    · simp only [TimerSys.next, Timerqueue.resetOne, hrepeat, Bool.false_eq_true, if_false]
      exact List.Sublist.refl _
  | resetFault hpc hcell => exact .quiet (by rw [hpc]; rfl) rfl (List.Sublist.refl _)
  | resetEnd hpc =>
    refine .quiet (by rw [hpc]; rfl) rfl ?_
    simp only [TimerSys.next, Timerqueue.rearm_timerList]
    exact List.Sublist.refl _
  | iterationEnd hpc => exact .quiet (by rw [hpc]; rfl) rfl (List.Sublist.refl _)

/-! ## A batch runs to its end -/

/-- From `s` on, a first part of `batch` has run and the rest is still to run. -/
def Serving (s : TimerSys) (batch : List Entry) (t : TimerSys) : Prop :=
  ∃ ran, batch = ran ++ t.pc.todo ∧ t.runs.map some = s.runs.map some ++ ran.map s.serialAt

/-- Unless it aborts, `handleTimerfd` takes the timers whose expiration is at or before the sentry's time stamp, in the
order of their expirations, and until the next time it is called these run, one after the other, and no others. -/
def ServesBatches (T : Nat → Int) (s : TimerSys) : Prop :=
  ∀ s', (machine T).step s .handleTimerfd = some s' → s'.pc ≠ .aborted →
    ∃ batch, s'.pc = .running [] batch ∧
      batch = s.queue.timerList.toList.filter (fun e => e.first ≤ T (s.tick + 1)) ∧
      batch.Pairwise (fun e e' => e.first ≤ e'.first) ∧
      ∀ fs t, (∀ f ∈ fs, f ≠ .handleTimerfd) → (machine T).run s' fs = some t → Serving s batch t

theorem serving_step {batch : List Entry} {t t' : TimerSys} {ev : TimerEv} (ht : t.Owned)
    (hserving : Serving s batch t) (hsame : ∀ e ∈ t.pc.todo, t.serialAt e = s.serialAt e) (hev : ev ≠ .handleTimerfd)
    (h : (machine T).step t ev = some t') :
    Serving s batch t' ∧ ∀ e ∈ t'.pc.todo, t'.serialAt e = s.serialAt e := by
  have hkept : ∀ e ∈ t.pc.todo, t'.serialAt e = s.serialAt e := by
    intro e he
    rw [serialAt, heap_of_pending ht h (List.mem_append_left _ he)]
    exact hsame e he
  obtain ⟨ran, hbatch, hruns⟩ := hserving
  cases moved_of_step ht h with
  | quiet htodo hruns' _ =>
    rw [Serving, htodo, hruns']
    exact ⟨⟨ran, hbatch, hruns⟩, hkept⟩
  | @started _ _ todo val c htodo hcell htodo' hruns' _ =>
    rw [htodo] at hkept hsame hbatch
    refine ⟨⟨ran ++ [val], ?_, ?_⟩, fun e he => hkept e (List.mem_cons_of_mem _ (htodo' ▸ he))⟩
    · rw [hbatch, htodo', List.append_assoc]
      rfl
    · have hval : s.serialAt val = some c.serial := by
        rw [← hsame val List.mem_cons_self]
        exact serialAt_eq hcell
      rw [hruns', List.map_append, List.map_append, hruns, List.append_assoc]
      simp only [List.map_cons, List.map_nil, hval]
  | looked => exact absurd rfl hev

theorem serving_run {batch : List Entry} (hs' : s'.Owned) (hserving : Serving s batch s')
    (hsame : ∀ e ∈ s'.pc.todo, s'.serialAt e = s.serialAt e) {fs : List TimerEv} {t : TimerSys}
    (hfs : ∀ f ∈ fs, f ≠ .handleTimerfd) (h : (machine T).run s' fs = some t) : Serving s batch t := by
  have hinv : t.Owned ∧ Serving s batch t ∧ ∀ e ∈ t.pc.todo, t.serialAt e = s.serialAt e := by
    refine (machine T).run_invariant_of_meets (C := fun _ f => f ≠ .handleTimerfd)
      (I := fun u => u.Owned ∧ Serving s batch u ∧ ∀ e ∈ u.pc.todo, u.serialAt e = s.serialAt e) ?_ fs s' t
      ⟨hs', hserving, hsame⟩ ((machine T).meets_of_forall (fun _ f hf => hfs f hf) s') h
    rintro u f u' ⟨hu, hserving, hsame⟩ hf hstep
    exact ⟨hu.step hstep, serving_step hu hserving hsame hf hstep⟩
  exact hinv.2.1

theorem servesBatches (hs : s.Owned) (haddr : ∀ e ∈ s.queue.timerList.toList, e.second < uintptrMax) :
    s.ServesBatches T := by
  intro s' hstep hpc
  have hs' := hs.step hstep
  cases step_cases hstep with
  | abort _ _ => exact absurd rfl hpc
  | expire hdispatch hready =>
    refine ⟨_, rfl, ?_, ?_, ?_⟩
    · refine (OrdSet.below_eq_filter _ _).trans (List.filter_congr ?_)
      intro e he
      have hlt : e < ⟨T (s.tick + 1), uintptrMax⟩ ↔ e.first ≤ T (s.tick + 1) := by
        rw [Entry.lt_iff, le_iff_lt_or_eq]
        exact or_congr_right (and_iff_left (haddr e he))
      exact decide_eq_decide.mpr hlt
    · refine (s.queue.timerList.below_sorted _).imp fun hlt => ?_
      rcases Entry.lt_iff.mp hlt with hlt | ⟨heq, -⟩
      · exact le_of_lt hlt
      · exact le_of_eq heq
    · intro fs t hfs h
      refine serving_run hs' ⟨[], rfl, (List.append_nil _).symm⟩ ?_ hfs h
      intro e _
      rfl

/-! ## Which of two timers runs first -/

/-- Before each run of `n₂` there is one of `n₁`. -/
def Ordered (n₁ n₂ : Nat) (runs : List Nat) : Prop := ∀ pre post, runs = pre ++ n₂ :: post → n₁ ∈ pre

/-- Of two timers that are in the set with different expirations, the one due first runs first. -/
def InOrder (T : Nat → Int) (s : TimerSys) : Prop :=
  ∀ e₁ ∈ s.queue.timerList.toList, ∀ e₂ ∈ s.queue.timerList.toList, e₁.first < e₂.first →
    ∀ n₁ n₂, s.serialAt e₁ = some n₁ → s.serialAt e₂ = some n₂ →
      ∀ fs s' later, (machine T).run s fs = some s' → s'.runs = s.runs ++ later → Ordered n₁ n₂ later

theorem ordered_of_not_mem {n₁ n₂ : Nat} {runs : List Nat} (h : n₂ ∉ runs) : Ordered n₁ n₂ runs := by
  intro pre post heq
  rw [heq] at h
  exact absurd (List.mem_append_right _ List.mem_cons_self) h

theorem Ordered.snoc {n₁ n₂ n : Nat} {runs : List Nat} (h : Ordered n₁ n₂ runs) (hrun : n₁ ∈ runs ∨ n ≠ n₂) :
    Ordered n₁ n₂ (runs ++ [n]) := by
  intro pre post heq
  rcases List.eq_nil_or_concat post with rfl | ⟨init, last, rfl⟩
  · obtain ⟨rfl, hn⟩ := List.append_inj' heq rfl
    rw [List.cons.injEq] at hn
    exact hrun.resolve_right (fun hne => hne hn.1)
  · rw [List.concat_eq_append, ← List.cons_append, ← List.append_assoc] at heq
    exact h pre init (List.append_inj' heq rfl).1

/-- The first timer has run, or neither has and they wait in their order. -/
structure Queued (e₁ e₂ : Entry) (n₁ n₂ : Nat) (later : List Nat) (t : TimerSys) : Prop where
  ordered : Ordered n₁ n₂ later
  place : n₁ ∈ later ∨ t.serialAt e₁ = some n₁ ∧ t.serialAt e₂ = some n₂ ∧ [e₁, e₂].Sublist t.pending

theorem Queued.step {e₁ e₂ : Entry} {n₁ n₂ : Nat} {later : List Nat} {t t' : TimerSys} {ev : TimerEv} (ht : t.Owned)
    (hq : Queued e₁ e₂ n₁ n₂ later t) (h : (machine T).step t ev = some t') :
    ∃ more, t'.runs = t.runs ++ more ∧ Queued e₁ e₂ n₁ n₂ (later ++ more) t' := by
  -- both timers stay what they are as long as they wait
  have hkept : ∀ e n, t.serialAt e = some n → e ∈ t.pending → t'.serialAt e = some n := by
    intro e n hn he
    rw [serialAt, heap_of_pending ht h he]
    exact hn
  have hwait : ∀ {l : List Entry}, [e₁, e₂].Sublist l → e₁ ∈ l ∧ e₂ ∈ l :=
    fun hsub => ⟨hsub.subset List.mem_cons_self, hsub.subset (List.mem_cons_of_mem _ List.mem_cons_self)⟩
  cases moved_of_step ht h with
  | quiet htodo hruns hlist =>
    refine ⟨[], by rw [hruns, List.append_nil], ?_⟩
    rw [List.append_nil]
    refine ⟨hq.ordered, hq.place.imp_right ?_⟩
    rintro ⟨h₁, h₂, hsub⟩
    obtain ⟨hm₁, hm₂⟩ := hwait hsub
    refine ⟨hkept e₁ n₁ h₁ hm₁, hkept e₂ n₂ h₂ hm₂, hsub.trans ?_⟩
    rw [pending, pending, htodo]
    exact hlist.append_left t.pc.todo
  | @started _ _ todo val c htodo hcell htodo' hruns hqueue =>
    refine ⟨[c.serial], hruns, ?_⟩
    rcases hq.place with hrun | ⟨h₁, h₂, hsub⟩
    · exact ⟨hq.ordered.snoc (Or.inl hrun), Or.inl (List.mem_append_left _ hrun)⟩
    obtain ⟨hm₁, hm₂⟩ := hwait hsub
    have hpending : t.pending = val :: t'.pending := by
      rw [pending, pending, htodo, htodo', hqueue]
      rfl
    have hval : t.serialAt val = some c.serial := serialAt_eq hcell
    rw [hpending] at hsub
    have hsecond : c.serial ≠ n₂ := by
      intro heq
      have hne := serialAt_ne ht hpending e₂ (hsub.tail.subset List.mem_cons_self)
      rw [h₂, hval, heq] at hne
      exact hne rfl
    refine ⟨hq.ordered.snoc (Or.inr hsecond), ?_⟩
    cases hsub with
    | cons _ hsub =>
      exact Or.inr ⟨hkept e₁ n₁ h₁ hm₁, hkept e₂ n₂ h₂ hm₂, hsub⟩
    | cons_cons _ hsub =>
      rw [hval, Option.some.injEq] at h₁
      exact Or.inl (List.mem_append_right _ (h₁ ▸ List.mem_cons_self))
  | looked htodo hpc hruns hlist =>
    refine ⟨[], by rw [hruns, List.append_nil], ?_⟩
    rw [List.append_nil]
    refine ⟨hq.ordered, hq.place.imp_right ?_⟩
    rintro ⟨h₁, h₂, hsub⟩
    obtain ⟨hm₁, hm₂⟩ := hwait hsub
    have hsame : t'.pending = t.pending := by
      rw [pending, pending, htodo, hpc, hlist]
      exact t.queue.timerList.below_append_lowerBound _
    exact ⟨hkept e₁ n₁ h₁ hm₁, hkept e₂ n₂ h₂ hm₂, hsame ▸ hsub⟩

theorem inOrder (hs : s.Owned) : s.InOrder T := by
  intro e₁ he₁ e₂ he₂ hlt n₁ n₂ h₁ h₂ fs s' later h hruns
  have hsub : [e₁, e₂].Sublist s.pending :=
    (OrdSet.pair_sublist he₁ he₂ (Entry.lt_iff.mpr (Or.inl hlt))).trans (List.sublist_append_right _ _)
  have hinv : s'.Owned ∧ ∃ more, s'.runs = s.runs ++ more ∧ Queued e₁ e₂ n₁ n₂ more s' := by
    refine (machine T).run_invariant
      (I := fun t => t.Owned ∧ ∃ more, t.runs = s.runs ++ more ∧ Queued e₁ e₂ n₁ n₂ more t) ?_ fs s s' ⟨hs, [], ?_⟩ h
    · rintro t f t' ⟨ht, more, hmore, hq⟩ hstep
      obtain ⟨next, hnext, hq'⟩ := hq.step ht hstep
      exact ⟨ht.step hstep, more ++ next, by rw [hnext, hmore, List.append_assoc], hq'⟩
    · exact ⟨(List.append_nil _).symm, ordered_of_not_mem List.not_mem_nil, Or.inr ⟨h₁, h₂, hsub⟩⟩
  obtain ⟨-, more, hmore, hq⟩ := hinv
  rw [hmore] at hruns
  exact List.append_cancel_left hruns ▸ hq.ordered

/-! ## When a callback starts -/

/-- No callback starts before the expiration of its timer. -/
def NeverEarly (s : TimerSys) : Prop := ∀ n expiration start, .run n expiration start ∈ s.log → expiration ≤ start

/-- Two runs of one timer start at least its interval apart. -/
def Apart (allocated : List Timer) (l l' : TimerLog) : Prop :=
  ∀ n expiration expiration' start start' timer, l = .run n expiration start → l' = .run n expiration' start' →
    allocated[n]? = some timer → start + timer.interval.toNat * TimeStamp.nanosPerMilli ≤ start'

def Spaced (s : TimerSys) : Prop := s.log.Pairwise (Apart s.allocated)

/-- A live timer has an address below the sentry's, and the interval it was constructed with. -/
def Kept (s : TimerSys) : Prop :=
  ∀ timer c, s.queue.heap timer = some c →
    timer < uintptrMax ∧ ∃ t, s.allocated[c.serial]? = some t ∧ t.interval = c.timer.interval

/-- The runs of the timer at `e` so far started an interval before it is due again. -/
def Rested (s : TimerSys) (e : Entry) : Prop :=
  ∀ c, s.queue.heap e.second = some c → ∀ expiration start, .run c.serial expiration start ∈ s.log →
    start + c.timer.interval.toNat * TimeStamp.nanosPerMilli ≤ c.timer.expiration

structure Punctual (T : Nat → Int) (s : TimerSys) : Prop where
  owned : s.Owned
  kept : s.Kept
  due : ∀ e ∈ s.pc.todo, e.first ≤ T s.tick ∧ ∃ c, s.queue.heap e.second = some c ∧ c.timer.expiration = e.first
  past : ∀ n expiration start, .run n expiration start ∈ s.log → start ≤ T s.tick
  early : s.NeverEarly
  rested : ∀ e ∈ s.pending, s.Rested e
  spaced : s.Spaced

theorem punctual_new : new.Punctual T where
  owned := owned_new
  kept := fun _ _ h => by cases h
  due := fun _ he => (List.not_mem_nil he).elim
  past := fun _ _ _ h => (List.not_mem_nil h).elim
  early := fun _ _ _ h => (List.not_mem_nil h).elim
  rested := fun _ he => (List.not_mem_nil he).elim
  spaced := List.Pairwise.nil

theorem kept_update (timer : Ptr) (c : Option Cell) (hs : s.Kept)
    (hheap : s'.queue.heap = Function.update s.queue.heap timer c)
    (halloc : ∀ (n : Nat) (t : Timer), s.allocated[n]? = some t → s'.allocated[n]? = some t)
    (hc : ∀ c', c = some c' → timer < uintptrMax ∧
      ∃ t, s'.allocated[c'.serial]? = some t ∧ t.interval = c'.timer.interval) : s'.Kept := by
  intro timer' c' hc'
  rw [hheap] at hc'
  by_cases heq : timer' = timer
  · subst heq
    rw [Function.update_self] at hc'
    exact hc c' hc'
  · rw [Function.update_of_ne heq] at hc'
    obtain ⟨haddr, t, ht, hinterval⟩ := hs timer' c' hc'
    exact ⟨haddr, t, halloc _ _ ht, hinterval⟩

theorem kept_step (hkept : s.Kept) {ev : TimerEv} (h : (machine T).step s ev = some s') : s'.Kept := by
  cases step_cases h with
  | addTimer hpc hfresh haddr =>
    refine kept_update _ _ hkept (Timerqueue.insert_heap _ _ _ _ _) ?_ ?_
    · intro n t ht
      exact (List.getElem?_append_left (List.getElem?_eq_some_iff.mp ht).1).trans ht
    · rintro c' hc'
      cases hc'
      exact ⟨haddr, _, List.getElem?_concat_length, rfl⟩
  | @restart todo val c hpc hcell hrepeat =>
    refine kept_update val.second (some { c with timer := c.timer.restart (T s.tick) }) hkept ?_
      (fun _ _ ht => ht) ?_
    · simp only [TimerSys.next, Timerqueue.resetOne, if_pos hrepeat, Timerqueue.insert_heap]
    · rintro c' hc'
      cases hc'
      exact hkept val.second c hcell
  | @delete todo val c hpc hcell hrepeat =>
    refine kept_update val.second none hkept ?_ (fun _ _ ht => ht) (fun _ h => by cases h)
    simp only [TimerSys.next, Timerqueue.resetOne, hrepeat, Bool.false_eq_true, if_false]
  | resetEnd hpc =>
    intro timer c hc
    simp only [TimerSys.next, Timerqueue.rearm_heap] at hc
    exact hkept timer c hc
  | _ => exact hkept

/-- A timer that has been waiting is still rested when the log has not changed. -/
theorem Rested.frame {e : Entry} (h : s.Rested e) (hheap : s'.queue.heap e.second = s.queue.heap e.second)
    (hlog : ∀ n x t, .run n x t ∈ s'.log → .run n x t ∈ s.log) : s'.Rested e := by
  intro c hc x t hrun
  rw [hheap] at hc
  exact h c hc x t (hlog c.serial x t hrun)

/-- Steps in which no callback starts and no batch is taken. -/
theorem Punctual.quiet (hs : s.Punctual T) (hT : Monotone T) {ev : TimerEv} (h : (machine T).step s ev = some s')
    (htick : s'.tick = s.tick + 3) (htodo : s'.pc.todo = s.pc.todo)
    (hlog : ∀ n x t, .run n x t ∈ s'.log → .run n x t ∈ s.log) (hspaced : s'.Spaced)
    (hnew : ∀ e ∈ s'.pending, e ∈ s.pending ∨ s'.Rested e) : s'.Punctual T where
  owned := hs.owned.step h
  kept := kept_step hs.kept h
  due := by
    intro e he
    rw [htodo] at he
    obtain ⟨hle, c, hc, hkey⟩ := hs.due e he
    refine ⟨?_, c, ?_, hkey⟩
    · rw [htick]
      exact le_trans hle (hT (Nat.le_add_right _ 3))
    · rw [heap_of_pending hs.owned h (List.mem_append_left _ he)]
      exact hc
  past := by
    intro n x t hrun
    rw [htick]
    exact le_trans (hs.past n x t (hlog n x t hrun)) (hT (Nat.le_add_right _ 3))
  early := fun n x t hrun => hs.early n x t (hlog n x t hrun)
  rested := by
    intro e he
    rcases hnew e he with he | hrested
    · exact (hs.rested e he).frame (heap_of_pending hs.owned h he) hlog
    · exact hrested
  spaced := hspaced

/-- Steps that leave the log and the set alone as well. -/
theorem Punctual.same (hs : s.Punctual T) (hT : Monotone T) {ev : TimerEv} (h : (machine T).step s ev = some s')
    (htick : s'.tick = s.tick + 3) (htodo : s'.pc.todo = s.pc.todo) (hlog : s'.log = s.log)
    (halloc : s'.allocated = s.allocated) (hlist : s'.queue.timerList = s.queue.timerList) : s'.Punctual T := by
  refine hs.quiet hT h htick htodo (fun _ _ _ hrun => hlog ▸ hrun) ?_ ?_
  · rw [Spaced, hlog, halloc]
    exact hs.spaced
  · intro e he
    rw [pending, htodo, hlist] at he
    exact Or.inl he

/-- Two runs stay apart when a timer is allocated. -/
theorem Spaced.mono (hs : s.Owned) (hspaced : s.Spaced) {more : List Timer} :
    s.log.Pairwise (Apart (s.allocated ++ more)) := by
  refine hspaced.imp_of_mem ?_
  intro l l' hl hl' hapart n x y t u timer hl1 hl2 hget
  subst hl1
  have hlt : n < s.allocated.length := hs.logged _ hl
  rw [List.getElem?_append_left hlt] at hget
  exact hapart n x y t u timer rfl hl2 hget

/-! ## The steps that enter a timer -/

theorem Punctual.addTimer (hs : s.Punctual T) (hT : Monotone T) {timer : Ptr} {timeDelay interval : UInt64}
    {timeStamp : TimeStamp} {now clock : Int}
    (h : (machine T).step s (.addTimer timer timeDelay interval) = some
      { s.next (s.queue.addTimer s.allocated.length timer timeStamp interval now clock) s.pc with
        allocated := s.allocated ++ [Timer.new timeStamp interval] }) :
    Punctual T { s.next (s.queue.addTimer s.allocated.length timer timeStamp interval now clock) s.pc with
      allocated := s.allocated ++ [Timer.new timeStamp interval] } := by
  refine hs.quiet hT h rfl rfl (fun _ _ _ hrun => hrun) (hs.spaced.mono hs.owned) ?_
  intro e he
  simp only [pending, TimerSys.next, Timerqueue.addTimer, Timerqueue.insert_timerList, List.mem_append,
    OrdSet.mem_emplace] at he
  rcases he with he | rfl | he
  · exact Or.inl (List.mem_append_left _ he)
  · -- no run is logged for an allocation that has only now been made
    refine Or.inr fun c hc x t hrun => ?_
    simp only [TimerSys.next, Timerqueue.addTimer, Timerqueue.insert_heap, Function.update_self,
      Option.some.injEq] at hc
    subst hc
    exact absurd (hs.owned.logged _ hrun) (lt_irrefl _)
  · exact Or.inl (List.mem_append_right _ he)

theorem Punctual.restart (hs : s.Punctual T) (hT : Monotone T) {todo : List Entry} {val : Entry} {c : Cell}
    (hpc : s.pc = .resetting (val :: todo)) (hcell : s.queue.heap val.second = some c)
    (hrepeat : c.timer.isRepeat = true) (hfit : StampsFit T s .resetOne) {now clock : Int}
    (h : (machine T).step s .resetOne = some
      (s.next (s.queue.resetOne val c (T s.tick) now clock) (.resetting todo))) :
    (s.next (s.queue.resetOne val c (T s.tick) now clock) (.resetting todo)).Punctual T := by
  have hcurrent : s.current = some c.timer := by simp only [current, hpc, hcell, Option.map_some]
  refine hs.quiet hT h rfl (by rw [hpc]; rfl) (fun _ _ _ hrun => hrun) hs.spaced ?_
  intro e he
  simp only [pending, TimerSys.next, TimerPc.todo, Timerqueue.resetOne, if_pos hrepeat, Timerqueue.insert_timerList,
    List.nil_append, OrdSet.mem_emplace] at he
  rcases he with rfl | he
  · -- the new expiration is an interval after a reading that no run so far has started after
    refine Or.inr fun c' hc' x t hrun => ?_
    simp only [TimerSys.next, Timerqueue.resetOne, if_pos hrepeat, Timerqueue.insert_heap, Function.update_self,
      Option.some.injEq] at hc'
    subst hc'
    have hexpiration : (c.timer.restart (T s.tick)).expiration =
        (T s.tick + c.timer.interval.toNat * TimeStamp.nanosPerMilli : Int) := TimeStamp.addTime_eq (hfit _ hcurrent)
    rw [hexpiration]
    exact Int.add_le_add_right (hs.past _ x t hrun) _
  · exact Or.inl (List.mem_append_right _ he)

/-! ## The steps that take a batch and run it -/

theorem Punctual.expire (hs : s.Punctual T) (hT : Monotone T) {ev : TimerEv} {now : Int} (hpc : s.pc.todo = [])
    (hnow : now ≤ T (s.tick + 3))
    (h : (machine T).step s ev = some (s.next ({ s.queue with timerfd := none }.expired now).2
      (.running [] ({ s.queue with timerfd := none }.expired now).1))) :
    (s.next ({ s.queue with timerfd := none }.expired now).2
      (.running [] ({ s.queue with timerfd := none }.expired now).1)).Punctual T := by
  have happend := s.queue.timerList.below_append_lowerBound ⟨now, uintptrMax⟩
  have hmem : ∀ e ∈ s.queue.timerList.below ⟨now, uintptrMax⟩, e ∈ s.queue.timerList.toList :=
    fun e he => happend ▸ List.mem_append_left _ he
  refine ⟨hs.owned.step h, hs.kept, ?_, ?_, hs.early, ?_, hs.spaced⟩
  · intro e he
    refine ⟨le_trans ?_ hnow, hs.owned.key e (hmem e he)⟩
    rcases Entry.lt_iff.mp (OrdSet.lt_of_mem_below he) with hlt | ⟨heq, -⟩
    · exact le_of_lt hlt
    · exact le_of_eq heq
  · intro n x t hrun
    exact le_trans (hs.past n x t hrun) (hT (Nat.le_add_right _ 3))
  · intro e he
    refine hs.rested e ?_
    rw [pending, hpc, List.nil_append, ← happend]
    exact he

theorem Punctual.runTimer (hs : s.Punctual T) (hT : Monotone T) {ev : TimerEv} {ran todo : List Entry} {val : Entry}
    {c : Cell} (hpc : s.pc = .running ran (val :: todo)) (hcell : s.queue.heap val.second = some c)
    (h : (machine T).step s ev = some { s.next s.queue (.callback (ran ++ [val]) todo) with
      log := s.log ++ [.run c.serial c.timer.expiration (T s.tick)] }) :
    Punctual T { s.next s.queue (.callback (ran ++ [val]) todo) with
      log := s.log ++ [.run c.serial c.timer.expiration (T s.tick)] } := by
  have hpending : s.pending = val :: (todo ++ s.queue.timerList.toList) := by
    rw [pending, hpc]
    rfl
  have hle := hT (Nat.le_add_right s.tick 3)
  obtain ⟨hdue, c', hc', hkey⟩ := hs.due val (by rw [hpc]; exact List.mem_cons_self)
  rw [hcell, Option.some.injEq] at hc'
  subst hc'
  have hexpired : c.timer.expiration ≤ T s.tick := hkey ▸ hdue
  have hmem : ∀ n x t, TimerLog.run n x t ∈ s.log ++ [.run c.serial c.timer.expiration (T s.tick)] →
      .run n x t ∈ s.log ∨ n = c.serial ∧ x = c.timer.expiration ∧ t = T s.tick := by
    intro n x t hrun
    simpa using hrun
  refine ⟨hs.owned.step h, hs.kept, ?_, ?_, ?_, ?_, ?_⟩
  · intro e he
    obtain ⟨hdue, hcell⟩ := hs.due e (by rw [hpc]; exact List.mem_cons_of_mem _ he)
    exact ⟨le_trans hdue hle, hcell⟩
  · intro n x t hrun
    rcases hmem n x t hrun with hrun | ⟨-, -, rfl⟩
    · exact le_trans (hs.past n x t hrun) hle
    · exact hle
  · intro n x t hrun
    rcases hmem n x t hrun with hrun | ⟨-, rfl, rfl⟩
    · exact hs.early n x t hrun
    · exact hexpired
  · intro e he c' hc' x t hrun
    have hold : e ∈ s.pending := by
      rw [hpending]
      exact List.mem_cons_of_mem _ he
    rcases hmem c'.serial x t hrun with hrun | ⟨hserial, -, -⟩
    · exact hs.rested e hold c' hc' x t hrun
    · have hne := serialAt_ne hs.owned hpending e he
      rw [serialAt_eq (s := s) hc', serialAt_eq hcell, hserial] at hne
      exact absurd rfl hne
  · rw [Spaced, List.pairwise_append]
    refine ⟨hs.spaced, List.pairwise_singleton _ _, ?_⟩
    rintro l hl l' hl' n x y t u timer rfl hl'' hget
    rw [List.mem_singleton.mp hl', TimerLog.run.injEq] at hl''
    obtain ⟨hserial, -, hstart⟩ := hl''
    subst hserial
    obtain ⟨-, timer', hget', hinterval⟩ := hs.kept val.second c hcell
    have htimer : timer = timer' := Option.some.inj (hget.symm.trans hget')
    have hrest := hs.rested val (by rw [hpending]; exact List.mem_cons_self) c hcell x t hl
    rw [htimer, hinterval, ← hstart]
    exact le_trans hrest hexpired

/-! ## Steps and runs -/

theorem Punctual.step (hs : s.Punctual T) (hT : Monotone T) {ev : TimerEv} (hfit : StampsFit T s ev)
    (h : (machine T).step s ev = some s') : s'.Punctual T := by
  have hstep := h
  cases step_cases h with
  | poll hpc hready => exact hs.same hT hstep rfl (by rw [hpc]; rfl) rfl rfl rfl
  | addTimer hpc hfresh haddr => exact hs.addTimer hT hstep
  | expire hpc hready => exact hs.expire hT (by rw [hpc]; rfl) (hT (Nat.add_le_add_left (by decide) _)) hstep
  | abort hpc hready => exact hs.same hT hstep rfl (by rw [hpc]; rfl) rfl rfl rfl
  | runTimer hpc hcell => exact hs.runTimer hT hpc hcell hstep
  | @runFault ran todo val hpc hcell =>
    exact absurd hcell (hs.owned.waiting val (List.mem_append_right _ (by rw [hpc]; exact List.mem_cons_self))).live
  | runReturn hpc => exact hs.same hT hstep rfl (by rw [hpc]; rfl) rfl rfl rfl
  | reset hpc => exact hs.same hT hstep rfl (by rw [hpc]; rfl) rfl rfl rfl
  | restart hpc hcell hrepeat => exact hs.restart hT hpc hcell hrepeat hfit hstep
  | @delete todo val c hpc hcell hrepeat =>
    have hlist : (s.queue.resetOne val c (T s.tick) (T (s.tick + 1)) (T (s.tick + 2))).timerList =
        s.queue.timerList := by
      simp only [Timerqueue.resetOne, hrepeat, Bool.false_eq_true, if_false]
    refine hs.quiet hT hstep rfl (by rw [hpc]; rfl) ?_ ?_ ?_
    · intro n x t hrun
      simpa using hrun
    · refine List.pairwise_append.mpr ⟨hs.spaced, List.pairwise_singleton _ _, ?_⟩
      rintro l - l' hl' n x y t u timer - rfl
      cases List.mem_singleton.mp hl'
    · intro e he
      simp only [pending, TimerSys.next, TimerPc.todo, List.nil_append, hlist] at he
      exact Or.inl (List.mem_append_right _ he)
  | resetFault hpc hcell => exact hs.same hT hstep rfl (by rw [hpc]; rfl) rfl rfl rfl
  | resetEnd hpc => exact hs.same hT hstep rfl (by rw [hpc]; rfl) rfl rfl (Timerqueue.rearm_timerList _ _ _ _)
  | iterationEnd hpc => exact hs.same hT hstep rfl (by rw [hpc]; rfl) rfl rfl rfl

/-- **Deadline order**: over any run on one nondecreasing clock whose time stamps can be represented, each batch is what
has expired at the sentry and runs to its end in order, no callback starts early, of two timers in the set the one due
first runs first, and two runs of a repeating timer start its interval apart. -/
theorem deadline_order (T : Nat → Int) (hT : Monotone T) (es : List TimerEv) (s : TimerSys)
    (hfit : (machine T).Meets (StampsFit T) new es) (h : (machine T).run new es = some s) :
    s.ServesBatches T ∧ s.NeverEarly ∧ s.InOrder T ∧ s.Spaced := by
  have hs : s.Punctual T := (machine T).run_invariant_of_meets (fun _ _ _ hs hC h => hs.step hT hC h) es new s
    punctual_new hfit h
  refine ⟨servesBatches hs.owned ?_, hs.early, inOrder hs.owned, hs.spaced⟩
  intro e he
  obtain ⟨c, hc, -⟩ := hs.owned.key e he
  exact (hs.kept e.second c hc).1

/-- Two timers due at different times, the kernel timer reported. -/
def twoDeadlines : List TimerEv := [.addTimer 8 1000 0, .addTimer 16 4000 1000, .iterationEnd, .poll true]

theorem deadline_order_twoDeadlines :
    ∃ s, (machine fun i => i * 1000000000).run new twoDeadlines = some s ∧ s.pc = .dispatch true ∧
      s.queue.timerList.toList.map s.serialAt = [some 0, some 1] ∧ s.ServesBatches (fun i => i * 1000000000) ∧
      s.NeverEarly ∧ s.InOrder (fun i => i * 1000000000) ∧ s.Spaced := by
  have hT : Monotone fun i : Nat => (i : Int) * 1000000000 := fun i j hij => by simp only; omega
  have hrun : ((machine fun i => i * 1000000000).run new twoDeadlines).map
      (fun s => (s.pc, s.queue.timerList.toList.map s.serialAt)) = some (.dispatch true, [some 0, some 1]) := by
    decide +kernel
  obtain ⟨s, hs, heq⟩ := Option.map_eq_some_iff.mp hrun
  rw [Prod.mk.injEq] at heq
  exact ⟨s, hs, heq.1, heq.2, deadline_order _ hT twoDeadlines s (by decide +kernel) hs⟩

end TimerSys

end NetImitate
