import NetImitate.Eventloop.Quit

/-!
# Every queued task is started in the end

* `Sys.Waits` : fewer than `T` tasks have been started, and there are as many;
* `toStart` : how far the thread is from the start of the next task;
* `tasks_start` : in a run without end of a loop that goes on, every task that gets queued is started.
-/

namespace NetImitate

/-- The legs of the way to the start of the next task: what is left of a batch that is empty, the test of `isLoop`,
`epoll_wait`, the handlers, and a batch that is not. -/
def Pc.leg {Task : Type} : Pc Task → Nat
  | .check => 3
  | .epollWait => 2
  | .dispatch _ | .handler _ => 1
  | .stopped => 0
  | .swapped rest | .drain rest | .task rest => if rest = [] then 4 else 0

namespace Sys
variable {Task : Type}

/-- The tasks that wait to be started. -/
def waiting (s : Sys Task) : List Task := s.pc.batch ++ s.loop.pendingList

theorem conserved_run {tid : Tid} {es : List (LoopEv Task)} {s : Sys Task} (h : machine.run (new tid) es = some s) :
    s.started ++ s.waiting = s.enqueued := by
  obtain ⟨ops, hops⟩ := run_fifo h
  exact Fifo.run_conserved (q := (new tid : Sys Task).toFifo) rfl hops

/-- How far the thread is from having started `T` tasks. -/
def toStart (T : Nat) (s : Sys Task) : ℕ ×ₗ ℕ ×ₗ ℕ := toLex (T - s.started.length, toLex (s.pc.leg, s.pc.todo))

/-- Some task still waits to be one of the first `T` started, and the thread is in `loop()`. -/
structure Short (T : Nat) (s : Sys Task) : Prop where
  started : s.started.length < T
  waits : s.waiting ≠ []
  going : s.pc ≠ .stopped

theorem toStart_step {T : Nat} {s s' : Sys Task} {e : LoopEv Task} (hs : s.Short T) (hs' : s'.Short T)
    (h : machine.step s e = some s') : toStart T s' ≤ toStart T s ∧ (e.isOwn = true → toStart T s' < toStart T s) := by
  have hstarted := hs.started
  have hwaits := hs.waits
  have hwaits' := hs'.waits
  simp only [toStart, Prod.Lex.toLex_le_toLex, Prod.Lex.toLex_lt_toLex]
  cases step_cases h with
  | stop hpc hloop => exact absurd rfl hs'.going
  | queInLoop hpc | quitClear | quitWakeUp hq =>
    exact ⟨Or.inr ⟨rfl, Or.inr ⟨rfl, le_rfl⟩⟩, fun h => by cases h⟩
  | check hpc _ | epollReturn hpc _ | leave hpc =>
    rw [hpc]
    exact ⟨Or.inr ⟨rfl, Or.inl (Nat.lt_succ_self _)⟩, fun _ => Or.inr ⟨rfl, Or.inl (Nat.lt_succ_self _)⟩⟩
  | swap hpc =>
    -- something waits, and before the swap it waits in `pendingList`
    rw [waiting, hpc] at hwaits
    have hpending : s.loop.pendingList ≠ [] := hwaits
    have hleg : s.swaps.pc.leg < s.pc.leg := by
      rw [hpc]
      show (if s.loop.pendingList = [] then 4 else 0) < 1
      rw [if_neg hpending]
      exact Nat.one_pos
    exact ⟨Or.inr ⟨rfl, Or.inl hleg⟩, fun _ => Or.inr ⟨rfl, Or.inl hleg⟩⟩
  | wakeup hpc | handler hpc | handlerReturn hpc | enter hpc | taskReturn hpc =>
    rw [hpc]
    refine ⟨Or.inr ⟨rfl, Or.inr ⟨rfl, ?_⟩⟩, fun _ => Or.inr ⟨rfl, Or.inr ⟨rfl, ?_⟩⟩⟩ <;>
      simp only [Pc.todo, Pc.left, List.length_cons] <;> omega
  | @startTask task rest hpc =>
    have hlt : T - (s.started ++ [task]).length < T - s.started.length := by
      rw [List.length_append]
      simp only [List.length_singleton]
      omega
    exact ⟨Or.inl hlt, fun _ => Or.inl hlt⟩

theorem enqueued_step {s s' : Sys Task} {e : LoopEv Task} (h : machine.step s e = some s') :
    s.enqueued <+: s'.enqueued := by
  cases step_cases h with
  | queInLoop hpc => exact List.prefix_append _ _
  | _ => exact List.prefix_rfl

theorem enqueued_mono {t : ℕ → Sys Task} {ev : ℕ → LoopEv Task} (h : machine.Execution t ev) (n k : ℕ) :
    (t n).enqueued <+: (t (n + k)).enqueued :=
  (h.drop n).invariant (I := fun s => (t n).enqueued <+: s.enqueued) (fun _ _ _ hs h => hs.trans (enqueued_step h))
    List.prefix_rfl k

/-- **Every queued task is started in the end**: in a run without end in which the thread stays in `loop()` and goes on
but for an `epoll_wait` with nothing to report of the wakeup descriptor. -/
theorem tasks_start (tid : Tid) (t : ℕ → Sys Task) (ev : ℕ → LoopEv Task) (h0 : t 0 = new tid)
    (h : machine.Execution t ev) (hgoing : ∀ n, (t n).pc ≠ .stopped)
    (hfair : ∀ n, ((t n).pc = .epollWait → 0 < (t n).loop.wakeupFd) → ∃ m ≥ n, (ev m).isOwn = true) (n : ℕ) :
    ∃ m ≥ n, (t n).enqueued <+: (t m).started := by
  by_contra hnever
  push Not at hnever
  have hrun := fun m => h0 ▸ h.run m
  -- from `n` on, some of the tasks queued by then have still to be started
  have hshort : ∀ k, (t (n + k)).Short (t n).enqueued.length := by
    intro k
    have hconserved := conserved_run (hrun (n + k))
    have hlt : (t (n + k)).started.length < (t n).enqueued.length := by
      by_contra hle
      apply hnever (n + k) (Nat.le_add_right n k)
      exact List.prefix_of_prefix_length_le (enqueued_mono h n k) (hconserved ▸ List.prefix_append _ _) (not_lt.mp hle)
    refine ⟨hlt, ?_, hgoing (n + k)⟩
    intro hwaiting
    rw [hwaiting, List.append_nil] at hconserved
    exact absurd (enqueued_mono h n k).length_le (by rw [← hconserved]; omega)
  obtain ⟨N, hN⟩ := (h.drop n).finitely_often (E := fun e => e.isOwn = true) hshort
    fun s e s' hs hs' h => toStart_step hs hs' h
  -- the thread would be left at an `epoll_wait`, but what waits has woken it
  obtain ⟨m, hm, hown⟩ := hfair (n + N) fun hpc => by
    have hwaits := (hshort N).waits
    have hat := (awake_run (hrun (n + N))).at_pc
    rw [waiting, hpc] at hwaits
    rw [hpc] at hat
    exact hat.1 hwaits
  obtain ⟨k, rfl⟩ := Nat.exists_eq_add_of_le (Nat.le_trans (Nat.le_add_right n N) hm)
  exact hN k (by omega) hown

/-- A turn whose handler queues a task, again and again. -/
def turnEv (n : Nat) : LoopEv Nat :=
  match n % 10 with
  | 0 => .checkLoop
  | 1 => .epollReturn [.other]
  | 2 => .handle
  | 3 => .queInLoop 7
  | 4 => .handlerReturn
  | 5 => .swap
  | 6 => .enter
  | 7 => .startTask
  | 8 => .taskReturn
  | _ => .leave

def turns : Nat → Sys Nat
  | 0 => new 1
  | n + 1 => (machine.step (turns n) (turnEv n)).getD (turns n)

/-- The place of the thread and the pending list between the steps of such a turn. -/
def turnAt (n : Nat) : Pc Nat × List Nat :=
  match n % 10 with
  | 0 => (.check, [])
  | 1 => (.epollWait, [])
  | 2 => (.dispatch [.other], [])
  | 3 => (.handler [], [])
  | 4 => (.handler [], [7])
  | 5 => (.dispatch [], [7])
  | 6 => (.swapped [7], [])
  | 7 => (.drain [7], [])
  | 8 => (.task [], [])
  | _ => (.drain [], [])

theorem turn_step {s : Sys Nat} {n : Nat} (hat : (s.pc, s.loop.pendingList) = turnAt n) (hloop : s.loop.isLoop = true) :
    ∃ s', machine.step s (turnEv n) = some s' ∧ (s'.pc, s'.loop.pendingList) = turnAt (n + 1) ∧
      s'.loop.isLoop = true := by
  unfold turnEv
  unfold turnAt at hat ⊢
  rw [Nat.add_mod n 1 10]
  have hlt := Nat.mod_lt n (show 0 < 10 by decide)
  generalize n % 10 = r at hat hlt ⊢
  interval_cases r <;> obtain ⟨hpc, hpending⟩ := Prod.mk.inj hat
  case «0» =>
    exact ⟨{ s with pc := .epollWait }, by simp only [machine, step, hpc, hloop, if_true], Prod.ext rfl hpending, hloop⟩
  case «1» =>
    have hrep : s.Reported [.other] := ⟨List.cons_ne_nil _ _, Nat.zero_le 1, fun h => by cases h; contradiction⟩
    exact ⟨{ s with pc := .dispatch [.other] }, by simp only [machine, step, hpc, if_pos hrep],
      Prod.ext rfl hpending, hloop⟩
  case «3» =>
    refine ⟨s.queued 7 (s.queuedLoop 7), ?_, Prod.ext hpc ?_, (isLoop_queuedLoop s 7).trans hloop⟩
    · simp only [machine, step, hpc, queueStep, Eventloop.queInLoop_self]
      rfl
    · show (s.queuedLoop 7).pendingList = [7]
      rw [pendingList_queuedLoop, hpending]
      rfl
  case «5» =>
    exact ⟨s.swaps, by simp only [machine, step, hpc], Prod.ext (congrArg Pc.swapped hpending) rfl, hloop⟩
  all_goals
    refine ⟨_, by simp only [machine, step, hpc]; rfl, ?_, ?_⟩
    · exact Prod.ext rfl hpending
    · exact hloop

theorem turns_at : ∀ n, ((turns n).pc, (turns n).loop.pendingList) = turnAt n ∧ (turns n).loop.isLoop = true
  | 0 => ⟨rfl, rfl⟩
  | n + 1 => by
    obtain ⟨s', hs', hat⟩ := turn_step (turns_at n).1 (turns_at n).2
    rw [turns, hs']
    exact hat

theorem tasks_start_turns : ∃ m ≥ 4, [7] <+: (turns m).started := by
  refine tasks_start 1 turns turnEv rfl (fun n => ?_) (fun n hpc => ?_) (fun n _ => ?_) 4
  · obtain ⟨s', hs', -⟩ := turn_step (turns_at n).1 (turns_at n).2
    rw [turns, hs']
    rfl
  · have hat := (turns_at n).1
    rw [hpc] at hat
    unfold turnAt at hat
    split at hat <;> cases hat
  · -- every tenth step is a test of `isLoop`
    refine ⟨10 * n, by omega, ?_⟩
    rw [turnEv, Nat.mul_mod_right]
    rfl

end Sys

end NetImitate
