import NetImitate.Timerqueue.Run

/-!
# Timers are owned once

* `held` : the entries of `timerList` and of the expired batch; `serialAt` : the allocation an entry points to;
* `Owned` : every allocation is held or deleted, exactly once, and has run as often as its place says;
* `Owned.next`, `Owned.runTimer`, `Owned.restart`, `Owned.delete`, `Owned.addTimer`, `Owned.step`;
* `timer_ownership` : no timer is lost, duplicated or used after its deletion, over any run.
-/

namespace NetImitate

namespace TimerSys

/-- The allocation an entry points to. -/
def serialAt (s : TimerSys) (e : Entry) : Option Nat := (s.queue.heap e.second).map Cell.serial

def logOf (s : TimerSys) (n : Nat) : List TimerLog := s.log.filter fun l => l.serial = n

/-- The entries of `timerList` and of the expired batch. -/
def held (s : TimerSys) : List Entry := s.queue.timerList.toList ++ (s.pc.ran ++ s.pc.todo)

def Unrun (_ : Nat) (l : List TimerLog) : Prop := l = []

def RunOnce (n : Nat) (l : List TimerLog) : Prop := ∃ expiration start, l = [.run n expiration start]

def RunThenDeleted (n : Nat) (l : List TimerLog) : Prop := ∃ expiration start, l = [.run n expiration start, .delete n]

/-- The entry points to a live timer; if that is a one-shot timer, `P` holds of what has happened to it. -/
def Stands (s : TimerSys) (P : Nat → List TimerLog → Prop) (e : Entry) : Prop :=
  ∃ c t, s.queue.heap e.second = some c ∧ s.allocated[c.serial]? = some t ∧ c.timer.isRepeat = t.isRepeat ∧
    (t.isRepeat = false → P c.serial (s.logOf c.serial))

structure Owned (s : TimerSys) : Prop where
  places : (s.held.map s.serialAt ++ s.deleted.map some).Perm ((List.range s.allocated.length).map some)
  key : ∀ e ∈ s.queue.timerList.toList, ∃ c, s.queue.heap e.second = some c ∧ c.timer.expiration = e.first
  waiting : ∀ e ∈ s.queue.timerList.toList ++ s.pc.todo, s.Stands Unrun e
  ran : ∀ e ∈ s.pc.ran, s.Stands RunOnce e
  gone : ∀ n ∈ s.deleted, ∃ t, s.allocated[n]? = some t ∧ t.isRepeat = false ∧ RunThenDeleted n (s.logOf n)
  logged : ∀ l ∈ s.log, l.serial < s.allocated.length
  safe : s.pc ≠ .fault

theorem owned_new : new.Owned where
  places := List.Perm.refl _
  key := fun _ he => (List.not_mem_nil he).elim
  waiting := fun _ he => (List.not_mem_nil he).elim
  ran := fun _ he => (List.not_mem_nil he).elim
  gone := fun _ hn => (List.not_mem_nil hn).elim
  logged := fun _ hl => (List.not_mem_nil hl).elim
  safe := by simp [new]

/-! ## What the places say -/

variable {s : TimerSys}

theorem serialAt_eq {e : Entry} {c : Cell} (h : s.queue.heap e.second = some c) : s.serialAt e = some c.serial := by
  rw [serialAt, h, Option.map_some]

theorem Stands.live {P : Nat → List TimerLog → Prop} {e : Entry} (h : s.Stands P e) :
    s.queue.heap e.second ≠ none := by
  obtain ⟨c, -, hcell, -⟩ := h
  rw [hcell]
  exact Option.some_ne_none c

theorem Stands.of_cell {P : Nat → List TimerLog → Prop} {e : Entry} {c : Cell} (h : s.Stands P e)
    (hcell : s.queue.heap e.second = some c) :
    ∃ t, s.allocated[c.serial]? = some t ∧ c.timer.isRepeat = t.isRepeat ∧
      (t.isRepeat = false → P c.serial (s.logOf c.serial)) := by
  obtain ⟨c', t, hcell', h⟩ := h
  rw [hcell, Option.some.injEq] at hcell'
  exact ⟨t, hcell' ▸ h⟩

theorem Stands.serial_lt {P : Nat → List TimerLog → Prop} {e : Entry} {c : Cell} (h : s.Stands P e)
    (hcell : s.queue.heap e.second = some c) : c.serial < s.allocated.length := by
  obtain ⟨t, ht, -⟩ := h.of_cell hcell
  exact (List.getElem?_eq_some_iff.mp ht).1

theorem Owned.live (hs : s.Owned) {e : Entry} (he : e ∈ s.held) : s.queue.heap e.second ≠ none := by
  simp only [held, List.mem_append] at he
  rcases he with he | he | he
  · exact (hs.waiting e (List.mem_append_left _ he)).live
  · exact (hs.ran e he).live
  · exact (hs.waiting e (List.mem_append_right _ he)).live

theorem Owned.nodup (hs : s.Owned) : (s.held.map s.serialAt ++ s.deleted.map some).Nodup :=
  hs.places.nodup_iff.mpr ((List.nodup_range).map (Option.some_injective _))

/-- No two places point to the same timer. -/
theorem Owned.others (hs : s.Owned) {e : Entry} {rest : List Entry} (hheld : s.held.Perm (e :: rest)) :
    ∀ e' ∈ rest, s.serialAt e' ≠ s.serialAt e := by
  intro e' he' heq
  have hnodup := (hheld.map s.serialAt).nodup_iff.mp (List.nodup_append.mp hs.nodup).1
  rw [List.map_cons, List.nodup_cons] at hnodup
  exact hnodup.1 (heq ▸ List.mem_map_of_mem he')

theorem Owned.others_second (hs : s.Owned) {e : Entry} {rest : List Entry} (hheld : s.held.Perm (e :: rest)) :
    ∀ e' ∈ rest, e'.second ≠ e.second := by
  intro e' he' heq
  exact hs.others hheld e' he' (by rw [serialAt, heq, serialAt])

/-- A deleted timer is not held. -/
theorem Owned.not_deleted (hs : s.Owned) {e : Entry} {c : Cell} (he : e ∈ s.held)
    (hcell : s.queue.heap e.second = some c) : c.serial ∉ s.deleted := by
  intro hdel
  have hdisj := (List.nodup_append.mp hs.nodup).2.2
  exact hdisj _ (List.mem_map_of_mem he) _ (List.mem_map_of_mem hdel) (serialAt_eq hcell)

/-- A new entry of the log may be about any timer that a place points to. -/
theorem Owned.logged_append (hs : s.Owned) {l : TimerLog} (hl : l.serial < s.allocated.length) :
    ∀ l' ∈ s.log ++ [l], l'.serial < s.allocated.length := by
  intro l' hl'
  rcases List.mem_append.mp hl' with hl' | hl'
  · exact hs.logged l' hl'
  · rw [List.mem_singleton] at hl'
    rw [hl']
    exact hl

theorem logOf_append {s' : TimerSys} {l : TimerLog} {n : Nat} (hlog : s'.log = s.log ++ [l]) (hn : l.serial ≠ n) :
    s'.logOf n = s.logOf n := by
  simp only [logOf, hlog, List.filter_append, List.filter_cons, List.filter_nil, decide_eq_true_eq, if_neg hn,
    List.append_nil]

/-- A new entry of the log about a timer that is not deleted leaves the deleted ones as they were. -/
theorem Owned.gone_append (hs : s.Owned) {s' : TimerSys} {l : TimerLog} (hlog : s'.log = s.log ++ [l])
    (hl : l.serial ∉ s.deleted) :
    ∀ n ∈ s.deleted, ∃ t, s.allocated[n]? = some t ∧ t.isRepeat = false ∧ RunThenDeleted n (s'.logOf n) := by
  intro n hn
  have hne : l.serial ≠ n := fun heq => hl (heq ▸ hn)
  rw [logOf_append hlog hne]
  exact hs.gone n hn

theorem logOf_append_self {s' : TimerSys} {l : TimerLog} (hlog : s'.log = s.log ++ [l]) :
    s'.logOf l.serial = s.logOf l.serial ++ [l] := by
  simp only [logOf, hlog, List.filter_append, List.filter_cons, List.filter_nil, decide_true, if_true]

/-- Entries whose timers are not touched point to the allocations they pointed to. -/
theorem map_serialAt_congr {s' : TimerSys} {l : List Entry}
    (hheap : ∀ e ∈ l, s'.queue.heap e.second = s.queue.heap e.second) : l.map s'.serialAt = l.map s.serialAt :=
  List.map_congr_left fun e he => congrArg (Option.map Cell.serial) (hheap e he)

/-- What stands is not touched by what happens to other timers. -/
theorem Stands.frame {s' : TimerSys} {P : Nat → List TimerLog → Prop} {e : Entry} (h : s.Stands P e)
    (hheap : s'.queue.heap e.second = s.queue.heap e.second)
    (halloc : ∀ (n : Nat) (t : Timer), s.allocated[n]? = some t → s'.allocated[n]? = some t)
    (hlog : ∀ n, s.serialAt e = some n → s'.logOf n = s.logOf n) : s'.Stands P e := by
  obtain ⟨c, t, hcell, ht, hrepeat, hP⟩ := h
  refine ⟨c, t, hheap.trans hcell, halloc _ _ ht, hrepeat, ?_⟩
  intro hone
  rw [hlog _ (serialAt_eq hcell)]
  exact hP hone

/-! ## The steps that move entries -/

/-- Steps that leave the timers alone and move entries between the places where a timer has not been run. -/
theorem Owned.next (hs : s.Owned) {queue : Timerqueue} {pc : TimerPc} (hheap : queue.heap = s.queue.heap)
    (hheld : (queue.timerList.toList ++ (pc.ran ++ pc.todo)).Perm s.held)
    (hlist : ∀ e ∈ queue.timerList.toList, e ∈ s.queue.timerList.toList)
    (hwaiting : ∀ e ∈ pc.todo, e ∈ s.queue.timerList.toList ++ s.pc.todo) (hran : ∀ e ∈ pc.ran, e ∈ s.pc.ran)
    (hpc : pc ≠ .fault) : (s.next queue pc).Owned where
  places := by
    have hserial : (s.next queue pc).serialAt = s.serialAt := by
      funext e
      simp only [serialAt, TimerSys.next, hheap]
    rw [hserial]
    exact ((hheld.map _).append_right _).trans hs.places
  key := fun e he => by
    simp only [TimerSys.next, hheap]
    exact hs.key e (hlist e he)
  waiting := fun e he => by
    have he' : e ∈ s.queue.timerList.toList ++ s.pc.todo :=
      (List.mem_append.mp he).elim (fun he => List.mem_append_left _ (hlist e he)) (hwaiting e)
    exact (hs.waiting e he').frame (congrFun hheap _) (fun _ _ h => h) (fun _ _ => rfl)
  ran := fun e he => (hs.ran e (hran e he)).frame (congrFun hheap _) (fun _ _ h => h) (fun _ _ => rfl)
  gone := hs.gone
  logged := hs.logged
  safe := hpc

/-- Steps that change nothing but the place of the thread. -/
theorem Owned.next_same (hs : s.Owned) {queue : Timerqueue} {pc : TimerPc} (hheap : queue.heap = s.queue.heap)
    (hlist : queue.timerList = s.queue.timerList) (hran : pc.ran = s.pc.ran) (htodo : pc.todo = s.pc.todo)
    (hpc : pc ≠ .fault) : (s.next queue pc).Owned := by
  refine hs.next hheap ?_ (fun e he => hlist ▸ he) ?_ (fun e he => hran ▸ he) hpc
  · rw [hlist, hran, htodo]
    exact List.Perm.refl _
  · intro e he
    rw [htodo] at he
    exact List.mem_append_right _ he

/-- `handleTimerfd` copies a range of the set and erases it there. -/
theorem Owned.expire (hs : s.Owned) (hpc : s.pc = .dispatch true) (now : TimeStamp) :
    (s.next ({ s.queue with timerfd := none }.expired now).2
      (.running [] ({ s.queue with timerfd := none }.expired now).1)).Owned := by
  have happend := s.queue.timerList.below_append_lowerBound ⟨now, uintptrMax⟩
  refine hs.next rfl ?_ ?_ (fun e he => List.mem_append_left _ ?_) ?_ (by simp)
  · simp only [Timerqueue.expired, held, hpc, TimerPc.ran, TimerPc.todo, List.nil_append, List.append_nil]
    exact List.perm_append_comm.trans (happend ▸ List.Perm.refl _)
  · intro e he
    exact happend ▸ List.mem_append_right _ he
  · exact happend ▸ List.mem_append_left _ he
  · intro e he
    exact (List.not_mem_nil he).elim

/-! ## The steps that run, restart and delete -/

theorem Owned.runTimer (hs : s.Owned) {ran todo : List Entry} {val : Entry} {c : Cell}
    (hpc : s.pc = .running ran (val :: todo)) (hcell : s.queue.heap val.second = some c) (start : TimeStamp) :
    Owned { s.next s.queue (.callback (ran ++ [val]) todo) with
      log := s.log ++ [.run c.serial c.timer.expiration start] } := by
  have hheld : s.held.Perm (val :: (s.queue.timerList.toList ++ (ran ++ todo))) := by
    simp only [held, hpc, TimerPc.ran, TimerPc.todo]
    rw [← List.append_assoc, ← List.append_assoc]
    exact List.perm_middle
  have hval : s.Stands Unrun val := hs.waiting val (List.mem_append_right _ (by rw [hpc]; exact List.mem_cons_self))
  have hother : ∀ e ∈ s.queue.timerList.toList ++ (ran ++ todo), ∀ n, s.serialAt e = some n → c.serial ≠ n := by
    intro e he n hn heq
    refine hs.others hheld e he ?_
    rw [hn, serialAt_eq hcell, heq]
  have hframe : ∀ P, ∀ e ∈ s.queue.timerList.toList ++ (ran ++ todo), s.Stands P e →
      Stands { s.next s.queue (.callback (ran ++ [val]) todo) with
        log := s.log ++ [.run c.serial c.timer.expiration start] } P e :=
    fun P e he h => h.frame rfl (fun _ _ h => h) (fun n hn => logOf_append rfl (hother e he n hn))
  refine ⟨?_, hs.key, ?_, ?_, ?_, ?_, by simp [TimerSys.next]⟩
  · have hsame : s.queue.timerList.toList ++ ((ran ++ [val]) ++ todo) = s.held := by
      simp only [held, hpc, TimerPc.ran, TimerPc.todo, List.append_assoc, List.cons_append, List.nil_append]
    have hplaces := hs.places
    rw [← hsame] at hplaces
    exact hplaces
  · intro e he
    rcases List.mem_append.mp he with he | he
    · exact hframe _ e (List.mem_append_left _ he) (hs.waiting e (List.mem_append_left _ he))
    · have htodo : e ∈ s.pc.todo := by
        rw [hpc]
        exact List.mem_cons_of_mem _ he
      exact hframe _ e (List.mem_append_right _ (List.mem_append_right _ he))
        (hs.waiting e (List.mem_append_right _ htodo))
  · intro e he
    rcases List.mem_append.mp he with he | he
    · have hran : e ∈ s.pc.ran := by
        rw [hpc]
        exact he
      exact hframe _ e (List.mem_append_right _ (List.mem_append_left _ he)) (hs.ran e hran)
    · rw [List.mem_singleton] at he
      subst he
      -- the timer that runs now had not been run
      obtain ⟨t, ht, hrepeat, hunrun⟩ := hval.of_cell hcell
      refine ⟨c, t, hcell, ht, hrepeat, fun hone => ⟨c.timer.expiration, start, ?_⟩⟩
      rw [show c.serial = (TimerLog.run c.serial c.timer.expiration start).serial from rfl, logOf_append_self rfl]
      exact congrArg (· ++ _) (hunrun hone)
  · have hmem : val ∈ s.held := hheld.mem_iff.mpr List.mem_cons_self
    exact hs.gone_append (l := .run c.serial c.timer.expiration start) rfl (hs.not_deleted hmem hcell)
  · exact hs.logged_append (hval.serial_lt hcell)

/-- What the heap holds elsewhere stays when the timer of an entry is written. -/
theorem Owned.update_others (hs : s.Owned) {e : Entry} {rest : List Entry} (hheld : s.held.Perm (e :: rest))
    (c : Option Cell) :
    ∀ e' ∈ rest, Function.update s.queue.heap e.second c e'.second = s.queue.heap e'.second := by
  intro e' he'
  rw [Function.update_of_ne (hs.others_second hheld e' he')]

/-- In `reset` the first entry of the batch is one place, the set and the rest of the batch are the others. -/
theorem held_resetting {todo : List Entry} {val : Entry} (hpc : s.pc = .resetting (val :: todo)) :
    s.held.Perm (val :: (s.queue.timerList.toList ++ todo)) := by
  simp only [held, hpc, TimerPc.ran, TimerPc.todo, List.append_nil]
  exact List.perm_middle

theorem Owned.restart (hs : s.Owned) {todo : List Entry} {val : Entry} {c : Cell}
    (hpc : s.pc = .resetting (val :: todo)) (hcell : s.queue.heap val.second = some c)
    (hrepeat : c.timer.isRepeat = true) (restartAt now clock : Int) :
    (s.next (s.queue.resetOne val c restartAt now clock) (.resetting todo)).Owned := by
  set timer := c.timer.restart restartAt with htimer
  set entry : Entry := ⟨timer.expiration, val.second⟩ with hentry
  set queue := s.queue.resetOne val c restartAt now clock with hqueue
  have hheap : queue.heap = Function.update s.queue.heap val.second (some { c with timer := timer }) := by
    rw [hqueue, Timerqueue.resetOne, if_pos hrepeat, Timerqueue.insert_heap]
  have hlist : queue.timerList = s.queue.timerList.emplace entry := by
    rw [hqueue, Timerqueue.resetOne, if_pos hrepeat, Timerqueue.insert_timerList]
  have hheld := held_resetting hpc
  have hnew : entry ∉ s.queue.timerList.toList :=
    fun hmem => hs.others_second hheld entry (List.mem_append_left _ hmem) rfl
  -- a restarted timer keeps the number of its allocation
  have hserial : (s.next queue (.resetting todo)).serialAt = s.serialAt := by
    funext e
    simp only [serialAt, TimerSys.next, hheap]
    by_cases heq : e.second = val.second
    · rw [heq, Function.update_self, hcell]
      rfl
    · rw [Function.update_of_ne heq]
  have hframe : ∀ e ∈ s.queue.timerList.toList ++ todo, queue.heap e.second = s.queue.heap e.second := by
    rw [hheap]
    exact hs.update_others hheld _
  have hstand : ∀ P, ∀ e ∈ s.queue.timerList.toList ++ todo, s.Stands P e →
      (s.next queue (.resetting todo)).Stands P e :=
    fun P e he h => h.frame (hframe e he) (fun _ _ h => h) (fun _ _ => rfl)
  have hmem : ∀ e ∈ queue.timerList.toList, e = entry ∨ e ∈ s.queue.timerList.toList := by
    intro e he
    rw [hlist] at he
    exact OrdSet.mem_emplace.mp he
  have hval : queue.heap val.second = some { c with timer := timer } := by rw [hheap, Function.update_self]
  refine ⟨?_, ?_, ?_, ?_, hs.gone, hs.logged, by simp [TimerSys.next]⟩
  · rw [hserial]
    have hperm : (queue.timerList.toList ++ todo).Perm (entry :: (s.queue.timerList.toList ++ todo)) := by
      rw [hlist]
      exact (OrdSet.emplace_perm hnew).append_right todo
    have hheld' : (s.next queue (.resetting todo)).held = queue.timerList.toList ++ todo := by
      simp only [held, TimerSys.next, TimerPc.ran, TimerPc.todo, List.append_nil]
    rw [hheld']
    exact (((hperm.map s.serialAt).trans ((hheld.map s.serialAt).symm)).append_right _).trans hs.places
  · intro e he
    rcases hmem e he with rfl | he
    · exact ⟨_, hval, rfl⟩
    · obtain ⟨c', hcell', hkey⟩ := hs.key e he
      exact ⟨c', (hframe e (List.mem_append_left _ he)).trans hcell', hkey⟩
  · intro e he
    simp only [TimerSys.next, TimerPc.todo, List.append_nil] at he
    rcases hmem e he with rfl | he
    · obtain ⟨t, ht, hsame, -⟩ := (hs.ran val (by rw [hpc]; exact List.mem_cons_self)).of_cell hcell
      refine ⟨_, t, hval, ht, hsame, ?_⟩
      intro hone
      rw [← hsame, hrepeat] at hone
      cases hone
    · exact hstand _ e (List.mem_append_left _ he) (hs.waiting e (List.mem_append_left _ he))
  · intro e he
    have hbatch : e ∈ s.pc.ran := by
      rw [hpc]
      exact List.mem_cons_of_mem _ he
    exact hstand _ e (List.mem_append_right _ he) (hs.ran e hbatch)

theorem Owned.delete (hs : s.Owned) {todo : List Entry} {val : Entry} {c : Cell}
    (hpc : s.pc = .resetting (val :: todo)) (hcell : s.queue.heap val.second = some c)
    (hrepeat : c.timer.isRepeat = false) (restartAt now clock : Int) :
    Owned { s.next (s.queue.resetOne val c restartAt now clock) (.resetting todo) with
      deleted := s.deleted ++ [c.serial], log := s.log ++ [.delete c.serial] } := by
  set queue := s.queue.resetOne val c restartAt now clock with hqueue
  have hheap : queue.heap = Function.update s.queue.heap val.second none := by
    rw [hqueue, Timerqueue.resetOne, if_neg (by rw [hrepeat]; exact Bool.false_ne_true)]
  have hlist : queue.timerList = s.queue.timerList := by
    rw [hqueue, Timerqueue.resetOne, if_neg (by rw [hrepeat]; exact Bool.false_ne_true)]
  have hheld := held_resetting hpc
  have hran : s.Stands RunOnce val := hs.ran val (by rw [hpc]; exact List.mem_cons_self)
  have hframe : ∀ e ∈ s.queue.timerList.toList ++ todo, queue.heap e.second = s.queue.heap e.second := by
    rw [hheap]
    exact hs.update_others hheld _
  set s' : TimerSys := { s.next queue (.resetting todo) with
    deleted := s.deleted ++ [c.serial], log := s.log ++ [.delete c.serial] } with hs'
  have hlog : ∀ n, c.serial ≠ n → s'.logOf n = s.logOf n := fun n hn => logOf_append (l := .delete c.serial) rfl hn
  have hstand : ∀ P, ∀ e ∈ s.queue.timerList.toList ++ todo, s.Stands P e → s'.Stands P e := by
    refine fun P e he h => h.frame (hframe e he) (fun _ _ h => h) (fun n hn => hlog n ?_)
    intro heq
    exact hs.others hheld e he (by rw [hn, serialAt_eq hcell, heq])
  refine ⟨?_, ?_, ?_, ?_, ?_, ?_, by simp [hs', TimerSys.next]⟩
  · have hserial : (s.queue.timerList.toList ++ todo).map s'.serialAt =
        (s.queue.timerList.toList ++ todo).map s.serialAt := map_serialAt_congr hframe
    have hheld' : s'.held = s.queue.timerList.toList ++ todo := by
      simp only [held, hs', TimerSys.next, hlist, TimerPc.ran, TimerPc.todo, List.append_nil]
    rw [hheld', hserial]
    refine List.Perm.trans ?_ (((hheld.map s.serialAt).symm.append_right _).trans hs.places)
    simp only [hs', List.map_cons, List.map_append, List.map_nil, serialAt_eq hcell]
    rw [← List.append_assoc]
    exact List.perm_append_singleton _ _
  · intro e he
    obtain ⟨c', hcell', hkey⟩ := hs.key e (hlist ▸ he)
    exact ⟨c', (hframe e (List.mem_append_left _ (hlist ▸ he))).trans hcell', hkey⟩
  · intro e he
    simp only [hs', TimerSys.next, TimerPc.todo, List.append_nil, hlist] at he
    exact hstand _ e (List.mem_append_left _ he) (hs.waiting e (List.mem_append_left _ he))
  · intro e he
    have hbatch : e ∈ s.pc.ran := by
      rw [hpc]
      exact List.mem_cons_of_mem _ he
    exact hstand _ e (List.mem_append_right _ he) (hs.ran e hbatch)
  · intro n hn
    have hval : val ∈ s.held := hheld.mem_iff.mpr List.mem_cons_self
    rcases List.mem_append.mp hn with hn | hn
    · exact hs.gone_append (l := .delete c.serial) rfl (hs.not_deleted hval hcell) n hn
    · rw [List.mem_singleton] at hn
      subst hn
      obtain ⟨t, ht, hsame, honce⟩ := hran.of_cell hcell
      have hone : t.isRepeat = false := hsame.symm.trans hrepeat
      obtain ⟨x, y, hrun⟩ := honce hone
      refine ⟨t, ht, hone, x, y, (logOf_append_self (l := .delete c.serial) rfl).trans ?_⟩
      exact congrArg (· ++ _) hrun
  · exact hs.logged_append (hran.serial_lt hcell)

/-! ## The step that adds -/

theorem Owned.addTimer (hs : s.Owned) {timer : Ptr} (hfresh : s.queue.heap timer = none)
    (timeStamp : TimeStamp) (interval : UInt64) (now clock : Int) :
    Owned { s.next (s.queue.addTimer s.allocated.length timer timeStamp interval now clock) s.pc with
      allocated := s.allocated ++ [Timer.new timeStamp interval] } := by
  set queue := s.queue.addTimer s.allocated.length timer timeStamp interval now clock with hqueue
  set cell : Cell := ⟨s.allocated.length, Timer.new timeStamp interval⟩ with hcell
  have hheap : queue.heap = Function.update s.queue.heap timer (some cell) := by
    rw [hqueue, Timerqueue.addTimer, Timerqueue.insert_heap]
  have hlist : queue.timerList = s.queue.timerList.emplace ⟨timeStamp, timer⟩ := by
    rw [hqueue, Timerqueue.addTimer, Timerqueue.insert_timerList]
  set s' : TimerSys := { s.next queue s.pc with allocated := s.allocated ++ [Timer.new timeStamp interval] } with hs'
  -- the address is new, so no entry that is held points to it
  have hframe : ∀ e ∈ s.held, queue.heap e.second = s.queue.heap e.second := by
    intro e he
    rw [hheap, Function.update_of_ne]
    exact fun heq => hs.live he (heq ▸ hfresh)
  have hnew : (⟨timeStamp, timer⟩ : Entry) ∉ s.queue.timerList.toList :=
    fun hmem => hs.live (List.mem_append_left _ hmem) hfresh
  have halloc : ∀ (n : Nat) (t : Timer), s.allocated[n]? = some t → s'.allocated[n]? = some t := by
    intro n t ht
    obtain ⟨hn, -⟩ := List.getElem?_eq_some_iff.mp ht
    exact (List.getElem?_append_left hn).trans ht
  have hstand : ∀ P, ∀ e ∈ s.held, s.Stands P e → s'.Stands P e :=
    fun P e he h => h.frame (hframe e he) halloc (fun _ _ => rfl)
  have hmem : ∀ e ∈ queue.timerList.toList, e = ⟨timeStamp, timer⟩ ∨ e ∈ s.queue.timerList.toList := by
    intro e he
    rw [hlist] at he
    exact OrdSet.mem_emplace.mp he
  have hself : queue.heap timer = some cell := by rw [hheap, Function.update_self]
  have hlast : s'.allocated[s.allocated.length]? = some (Timer.new timeStamp interval) := List.getElem?_concat_length
  refine ⟨?_, ?_, ?_, ?_, ?_, ?_, ?_⟩
  · have hperm : s'.held.Perm (⟨timeStamp, timer⟩ :: s.held) := by
      simp only [held, hs', TimerSys.next, hlist]
      exact (OrdSet.emplace_perm hnew).append_right _
    have hserial : s.held.map s'.serialAt = s.held.map s.serialAt := map_serialAt_congr hframe
    have hnum : s'.serialAt ⟨timeStamp, timer⟩ = some s.allocated.length :=
      serialAt_eq (s := s') (e := ⟨timeStamp, timer⟩) hself
    have hlen : s'.allocated.length = s.allocated.length + 1 := List.length_append
    rw [hlen, List.range_succ, List.map_append]
    refine ((hperm.map _).append_right _).trans ?_
    rw [List.map_cons, hserial, hnum, List.cons_append]
    exact (hs.places.cons _).trans (List.perm_append_singleton _ _).symm
  · intro e he
    rcases hmem e he with rfl | he
    · exact ⟨cell, hself, rfl⟩
    · obtain ⟨c, hc, hkey⟩ := hs.key e he
      exact ⟨c, (hframe e (List.mem_append_left _ he)).trans hc, hkey⟩
  · intro e he
    have hold : e ∈ s.queue.timerList.toList ++ s.pc.todo → s'.Stands Unrun e := by
      intro he
      refine hstand _ e ?_ (hs.waiting e he)
      rcases List.mem_append.mp he with he | he
      · exact List.mem_append_left _ he
      · exact List.mem_append_right _ (List.mem_append_right _ he)
    rcases List.mem_append.mp he with he | he
    · rcases hmem e he with rfl | he
      · refine ⟨cell, _, hself, hlast, rfl, ?_⟩
        intro _
        -- nothing has happened yet to the number of this allocation
        refine List.filter_eq_nil_iff.mpr ?_
        intro l hl
        have hlt := hs.logged l hl
        simp only [hcell, decide_eq_true_eq]
        omega
      · exact hold (List.mem_append_left _ he)
    · exact hold (List.mem_append_right _ he)
  · intro e he
    exact hstand _ e (List.mem_append_right _ (List.mem_append_left _ he)) (hs.ran e he)
  · intro n hn
    obtain ⟨t, ht, h⟩ := hs.gone n hn
    exact ⟨t, halloc n t ht, h⟩
  · intro l hl
    have hlt := hs.logged l hl
    have hlen : s'.allocated.length = s.allocated.length + 1 := List.length_append
    omega
  · exact hs.safe

/-! ## Runs -/

theorem Owned.step {T : Nat → Int} {s' : TimerSys} {e : TimerEv} (hs : s.Owned)
    (h : (machine T).step s e = some s') : s'.Owned := by
  cases step_cases h with
  | poll hpc hready => exact hs.next_same rfl rfl (by rw [hpc]; rfl) (by rw [hpc]; rfl) (by simp)
  | addTimer hpc hfresh haddr => exact hs.addTimer hfresh _ _ _ _
  | expire hpc hready => exact hs.expire hpc _
  | abort hpc hready => exact hs.next_same rfl rfl (by rw [hpc]; rfl) (by rw [hpc]; rfl) (by simp)
  | runTimer hpc hcell => exact hs.runTimer hpc hcell _
  | @runFault ran todo val hpc hcell =>
    exact absurd hcell (hs.waiting val (List.mem_append_right _ (by rw [hpc]; exact List.mem_cons_self))).live
  | runReturn hpc => exact hs.next_same rfl rfl (by rw [hpc]; rfl) (by rw [hpc]; rfl) (by simp)
  | reset hpc => exact hs.next_same rfl rfl (by rw [hpc]; rfl) (by rw [hpc]; rfl) (by simp)
  | restart hpc hcell hrepeat => exact hs.restart hpc hcell hrepeat _ _ _
  | delete hpc hcell hrepeat => exact hs.delete hpc hcell hrepeat _ _ _
  | @resetFault todo val hpc hcell =>
    exact absurd hcell (hs.ran val (by rw [hpc]; exact List.mem_cons_self)).live
  | resetEnd hpc =>
    exact hs.next_same (Timerqueue.rearm_heap _ _ _ _) (Timerqueue.rearm_timerList _ _ _ _) (by rw [hpc]; rfl)
      (by rw [hpc]; rfl) (by simp)
  | iterationEnd hpc => exact hs.next_same rfl rfl (by rw [hpc]; rfl) (by rw [hpc]; rfl) (by simp)

/-- How often an allocation stands in `timerList`. -/
def listed (s : TimerSys) (n : Nat) : Nat := (s.queue.timerList.toList.map s.serialAt).count (some n)

/-- How often an allocation stands in the expired batch. -/
def batched (s : TimerSys) (n : Nat) : Nat := ((s.pc.ran ++ s.pc.todo).map s.serialAt).count (some n)

theorem Owned.once (hs : s.Owned) {n : Nat} (hn : n < s.allocated.length) :
    s.listed n + s.batched n + s.deleted.count n = 1 := by
  have hcount := hs.places.count_eq (some n)
  rw [List.count_append, List.count_map_of_injective _ _ (Option.some_injective _),
    List.count_map_of_injective _ _ (Option.some_injective _), held, List.map_append, List.count_append,
    (List.nodup_range).count, if_pos (List.mem_range.mpr hn)] at hcount
  exact hcount

theorem Stands.of_serial {P : Nat → List TimerLog → Prop} {e : Entry} {n : Nat} {t : Timer} (h : s.Stands P e)
    (hn : s.serialAt e = some n) (ht : s.allocated[n]? = some t) (hone : t.isRepeat = false) : P n (s.logOf n) := by
  obtain ⟨c, t', hcell, ht', -, hP⟩ := h
  rw [serialAt_eq hcell, Option.some.injEq] at hn
  subst hn
  rw [ht, Option.some.injEq] at ht'
  exact hP (ht' ▸ hone)

/-- What has happened to a one-shot timer, by its place. -/
structure OneShot (s : TimerSys) (n : Nat) : Prop where
  listed : 0 < s.listed n → Unrun n (s.logOf n)
  batched : 0 < s.batched n → Unrun n (s.logOf n) ∨ RunOnce n (s.logOf n)
  deleted : n ∈ s.deleted → RunThenDeleted n (s.logOf n)

theorem Owned.oneShot (hs : s.Owned) {n : Nat} {t : Timer} (ht : s.allocated[n]? = some t)
    (hone : t.isRepeat = false) : s.OneShot n where
  listed := fun hpos => by
    obtain ⟨e, he, hn⟩ := List.mem_map.mp (List.count_pos_iff.mp hpos)
    exact (hs.waiting e (List.mem_append_left _ he)).of_serial hn ht hone
  batched := fun hpos => by
    obtain ⟨e, he, hn⟩ := List.mem_map.mp (List.count_pos_iff.mp hpos)
    rcases List.mem_append.mp he with he | he
    · exact Or.inr ((hs.ran e he).of_serial hn ht hone)
    · exact Or.inl ((hs.waiting e (List.mem_append_right _ he)).of_serial hn ht hone)
  deleted := fun hn => by
    obtain ⟨t', -, -, h⟩ := hs.gone n hn
    exact h

/-- A repeating timer is in the set whenever no batch is being processed. -/
structure Repeating (s : TimerSys) (n : Nat) : Prop where
  kept : n ∉ s.deleted
  listed : s.pc.ran ++ s.pc.todo = [] → s.listed n = 1

theorem Owned.repeating (hs : s.Owned) {n : Nat} {t : Timer} (ht : s.allocated[n]? = some t)
    (hrepeat : t.isRepeat = true) : s.Repeating n := by
  have hkept : n ∉ s.deleted := by
    intro hn
    obtain ⟨t', ht', hone, -⟩ := hs.gone n hn
    rw [ht, Option.some.injEq] at ht'
    rw [← ht', hrepeat] at hone
    cases hone
  refine ⟨hkept, ?_⟩
  intro hbatch
  have honce := hs.once (List.getElem?_eq_some_iff.mp ht).1
  rw [batched, hbatch, List.map_nil, List.count_nil, List.count_eq_zero.mpr hkept] at honce
  exact honce

/-- **Timer ownership**: no deleted timer is used; the key of an entry is the expiration of its live timer; each
allocation is in `timerList`, in the batch or deleted, exactly once; a one-shot timer runs once and then is deleted,
a repeating one returns to the set. -/
theorem timer_ownership (T : Nat → Int) (es : List TimerEv) (s : TimerSys) (h : (machine T).run new es = some s) :
    s.pc ≠ .fault ∧
      (∀ e ∈ s.queue.timerList.toList, ∃ c, s.queue.heap e.second = some c ∧ c.timer.expiration = e.first) ∧
      ∀ n t, s.allocated[n]? = some t →
        s.listed n + s.batched n + s.deleted.count n = 1 ∧ (t.isRepeat = false → s.OneShot n) ∧
          (t.isRepeat = true → s.Repeating n) := by
  have hs : s.Owned := (machine T).run_invariant (fun _ _ _ hs h => hs.step h) es new s owned_new h
  refine ⟨hs.safe, hs.key, fun n t ht => ⟨?_, hs.oneShot ht, hs.repeating ht⟩⟩
  exact hs.once (List.getElem?_eq_some_iff.mp ht).1

/-- A one-shot timer and a repeating one, both due in the batch of 12 s. -/
def twoTimers : List TimerEv :=
  [.addTimer 8 1000 0, .addTimer 16 1000 1000, .iterationEnd, .poll true, .handleTimerfd, .runTimer, .runReturn,
    .runTimer, .runReturn, .reset, .resetOne, .resetOne, .resetEnd]

theorem timer_ownership_twoTimers :
    ∃ s, (machine fun i => i * 1000000000).run new twoTimers = some s ∧ s.OneShot 0 ∧ s.Repeating 1 ∧
      s.deleted = [0] := by
  have hrun : ((machine fun i => i * 1000000000).run new twoTimers).map
      (fun s => (s.allocated[0]?.map Timer.isRepeat, s.allocated[1]?.map Timer.isRepeat, s.deleted)) =
      some (some false, some true, [0]) := by decide +kernel
  obtain ⟨s, hs, heq⟩ := Option.map_eq_some_iff.mp hrun
  simp only [Prod.mk.injEq] at heq
  obtain ⟨t0, ht0, hone⟩ := Option.map_eq_some_iff.mp heq.1
  obtain ⟨t1, ht1, hrepeat⟩ := Option.map_eq_some_iff.mp heq.2.1
  have howned := (timer_ownership _ twoTimers s hs).2.2
  exact ⟨s, hs, (howned 0 t0 ht0).2.1 hone, (howned 1 t1 ht1).2.2 hrepeat, heq.2.2⟩

end TimerSys

end NetImitate
