import NetImitate.Tcpserver.Lifetime

/-!
# When a connection is closed once

* `ClosedOnce` : at most one `handleClose` waits, on an open connection, and no connection was closed twice;
* `ClosedOnce.step` : operations that close once keep it;
* `closed_once` : in a run whose steps trigger each close once, the closing callbacks are called once at most;
* `closed_twice` : a message callback that answers the end of the stream with `ConnectDestroyed`.
-/

namespace NetImitate

namespace Lifecycle
variable {l : Lifecycle}

structure ClosedOnce (l : Lifecycle) : Prop where
  inv : l.Inv
  waiting_le : ∀ c, l.queue.count (.handleClose c) ≤ 1
  waiting_open : ∀ c, .handleClose c ∈ l.queue → l.state c = some .kConnected
  closed_lt : ∀ c ∈ l.closed, c < l.next ∧ l.state c ≠ some .kConnected
  closed_nodup : l.closed.Nodup
  finished_le : ∀ c, l.finished.count c + (if l.closing = some c then 1 else 0) ≤ l.closed.count c

theorem ClosedOnce.closes (hl : l.ClosedOnce) {c : ConnId} (hopen : l.state c = some .kConnected)
    (hwaiting : .handleClose c ∉ l.queue) (hclosing : l.closing = none) : (l.closes c).ClosedOnce := by
  have hother : ∀ c', c' ≠ c → (l.closes c).state c' = l.state c' := fun c' hc' => Function.update_of_ne hc' _ _
  have hlive : l.state c ≠ none := by rw [hopen]; exact Option.some_ne_none _
  have hfresh : c ∉ l.closed := fun hc => (hl.closed_lt c hc).2 hopen
  refine ⟨hl.inv.closes hlive, hl.waiting_le, ?_, ?_, ?_, ?_⟩
  · intro c' hc'
    rw [hother c' (fun heq => hwaiting (heq ▸ hc'))]
    exact hl.waiting_open c' hc'
  · intro c' hc'
    by_cases heq : c' = c
    · exact ⟨heq ▸ hl.inv.live_lt c hlive, by simp [Lifecycle.closes, heq]⟩
    · rw [hother c' heq]
      rcases List.mem_append.mp hc' with hc' | hc'
      · exact hl.closed_lt c' hc'
      · exact absurd (List.mem_singleton.mp hc') heq
  · exact List.nodup_append.mpr ⟨hl.closed_nodup, List.nodup_singleton c, fun a ha b hb heq =>
      hfresh (List.mem_singleton.mp hb ▸ heq ▸ ha)⟩
  · intro c'
    have hle := hl.finished_le c'
    simp only [hclosing, reduceCtorEq, if_false] at hle
    simp only [Lifecycle.closes, Option.some.injEq, List.count_append, List.count_singleton, beq_iff_eq]
    split <;> omega

/-- Tasks are taken out. -/
theorem ClosedOnce.sublist (hl : l.ClosedOnce) {rest : List ServerTask} (hq : rest.Sublist l.queue) :
    ClosedOnce { l with queue := rest } where
  inv := hl.inv.sublist hq
  waiting_le := fun c => (hq.count_le _).trans (hl.waiting_le c)
  waiting_open := fun c hc => hl.waiting_open c (hq.subset hc)
  closed_lt := hl.closed_lt
  closed_nodup := hl.closed_nodup
  finished_le := hl.finished_le

/-- A task enters at the end; a second `handleClose` of a connection does not. -/
theorem ClosedOnce.enqueue (hl : l.ClosedOnce) {t : ServerTask} (hinv : Inv { l with queue := l.queue ++ [t] })
    (hclose : ∀ c, t = .handleClose c → l.state c = some .kConnected ∧ .handleClose c ∉ l.queue) :
    ClosedOnce { l with queue := l.queue ++ [t] } := by
  refine ⟨hinv, ?_, ?_, hl.closed_lt, hl.closed_nodup, hl.finished_le⟩
  · intro c
    rw [List.count_append, List.count_singleton]
    by_cases heq : t = .handleClose c
    · rw [List.count_eq_zero.mpr (hclose c heq).2, heq]
      simp
    · have hle := hl.waiting_le c
      simpa [heq] using hle
  · intro c hc
    rcases List.mem_append.mp hc with hc | hc
    · exact hl.waiting_open c hc
    · exact (hclose c (List.mem_singleton.mp hc).symm).1

theorem ClosedOnce.accepts (hl : l.ClosedOnce) : l.accepts.ClosedOnce := by
  have hstate : ∀ c, c ≠ l.next → l.accepts.state c = l.state c := fun c hc => Function.update_of_ne hc _ _
  refine ⟨hl.inv.accepts, hl.waiting_le, ?_, ?_, hl.closed_nodup, hl.finished_le⟩
  · intro c hc
    have hopen := hl.waiting_open c hc
    have hlt : c < l.next := hl.inv.live_lt c (by rw [hopen]; exact Option.some_ne_none _)
    exact (hstate c (Nat.ne_of_lt hlt)).trans hopen
  · intro c hc
    obtain ⟨hlt, hclosed⟩ := hl.closed_lt c hc
    exact ⟨Nat.lt_succ_of_lt hlt, by rwa [hstate c (Nat.ne_of_lt hlt)]⟩

theorem ClosedOnce.destroys (hl : l.ClosedOnce) {c : ConnId} (hc : c ∉ l.tcpconnList) : (l.destroys c).ClosedOnce := by
  refine ⟨hl.inv.destroys hc, hl.waiting_le, ?_, ?_, hl.closed_nodup, hl.finished_le⟩
  · intro c' hc'
    -- a connection with a close waiting is in the list
    have hne : c' ≠ c := fun heq => hc (heq ▸ hl.inv.close_listed c' hc')
    exact (Function.update_of_ne hne _ _).trans (hl.waiting_open c' hc')
  · intro c' hc'
    obtain ⟨hlt, hclosed⟩ := hl.closed_lt c' hc'
    refine ⟨hlt, ?_⟩
    by_cases heq : c' = c
    · simp [Lifecycle.destroys, heq]
    · simpa [Lifecycle.destroys, heq] using hclosed

/-- The close that was under way is finished. -/
theorem ClosedOnce.finish (hl : l.ClosedOnce) {c : ConnId} (hc : l.closing = some c) :
    ClosedOnce { l with closing := none, finished := l.finished ++ [c] } := by
  refine ⟨hl.inv.idle _, hl.waiting_le, hl.waiting_open, hl.closed_lt, hl.closed_nodup, ?_⟩
  intro c'
  have hle := hl.finished_le c'
  simp only [hc, Option.some.injEq] at hle
  simp only [List.count_append, List.count_singleton, beq_iff_eq, reduceCtorEq, if_false, Nat.add_zero]
  exact hle

theorem ClosedOnce.step {l' : Lifecycle} {op : LifeOp} (hl : l.ClosedOnce) (honce : l.Once op)
    (h : machine.step l op = some l') : l'.ClosedOnce := by
  have hinv := hl.inv.step h
  cases step_cases h with
  | accept => exact hl.accepts
  | close hlive hclosing => exact hl.closes honce.1 honce.2 hclosing
  | @finish c remove hc =>
    cases remove with
    | true => exact (hl.finish hc).enqueue hinv (fun _ h => by cases h)
    | false => simpa using hl.finish hc
  | defer hopen => exact hl.enqueue hinv (fun _ h => by cases h; exact ⟨hopen, honce⟩)
  | functor => exact hl.enqueue hinv (fun _ h => by cases h)
  | @functorTask rest hq => exact hl.sublist (hq ▸ List.sublist_cons_self _ rest)
  | @removeTask c rest hq =>
    have hrest : ClosedOnce { l with queue := rest } := hl.sublist (hq ▸ List.sublist_cons_self _ rest)
    exact ⟨hinv, hrest.waiting_le, hrest.waiting_open, hrest.closed_lt, hrest.closed_nodup, hrest.finished_le⟩
  | @closeTask c rest hq hlive hclosing =>
    have hrest : ClosedOnce { l with queue := rest } := hl.sublist (hq ▸ List.sublist_cons_self _ rest)
    have hopen : l.state c = some .kConnected := hl.waiting_open c (hq ▸ List.mem_cons_self)
    -- the task that runs was the only one of its connection
    have hcount := hl.waiting_le c
    rw [hq, List.count_cons_self] at hcount
    have hnone : rest.count (.handleClose c) = 0 := by omega
    exact hrest.closes hopen (List.count_eq_zero.mp hnone) hclosing
  | destroy hlist => exact hl.destroys hlist
  | @abandon batch =>
    have hrest := hl.sublist (List.drop_sublist batch l.queue)
    refine ⟨hinv, hrest.waiting_le, hrest.waiting_open, hrest.closed_lt, hrest.closed_nodup, ?_⟩
    intro c
    exact (Nat.le_add_right _ _).trans (hl.finished_le c)

end Lifecycle

namespace Server

theorem closedOnce_new (base : BaseFds) (tid : Tid) (cb : CloseCallBack) : (new base tid cb).lifecycle.ClosedOnce where
  inv := inv_new base tid cb
  waiting_le := fun _ => Nat.zero_le _
  waiting_open := fun _ hc => (List.not_mem_nil hc).elim
  closed_lt := fun _ hc => (List.not_mem_nil hc).elim
  closed_nodup := List.nodup_nil
  finished_le := fun _ => Nat.zero_le _

theorem ClosedOnce.step (s : Server) (e : ServerEv) (s' : Server) (hs : s.lifecycle.ClosedOnce)
    (honce : s.TriggersOnce e) (h : machine.step s e = some s') : s'.lifecycle.ClosedOnce := by
  obtain ⟨ops, hrun, hmeets⟩ := lifecycle_step h
  exact Lifecycle.machine.run_invariant_of_meets (fun _ _ _ hl honce hstep => hl.step honce hstep) ops s.lifecycle
    s'.lifecycle hs (hmeets honce) hrun

/-- A callback of a kind is called as often as it is in what the kind picks out of the log. -/
theorem count_filterMap {f : Callback → Option ConnId} {cb : Callback} {c : ConnId}
    (hf : ∀ cb', f cb' = some c ↔ cb' = cb) (log : List Callback) : (log.filterMap f).count c = log.count cb := by
  induction log with
  | nil => rfl
  | cons cb' log ih =>
    rw [List.count_cons, ← ih]
    cases hcb : f cb' with
    | none =>
      have hne : cb' ≠ cb := fun heq => by rw [(hf cb').mpr heq] at hcb; cases hcb
      simp [hcb, hne]
    | some c' =>
      rw [List.filterMap_cons_some hcb, List.count_cons]
      by_cases heq : cb' = cb
      · rw [(hf cb').mpr heq, Option.some.injEq] at hcb
        simp [heq, hcb]
      · have hne : c' ≠ c := fun hc => heq ((hf cb').mp (hc ▸ hcb))
        simp [heq, hne]

theorem count_closed (s : Server) (c : ConnId) :
    s.lifecycle.closed.count c = s.log.count (.connectionCallBack c .kClosed) := by
  refine count_filterMap ?_ s.log
  intro cb
  cases cb with
  | connectionCallBack c' state => cases state <;> simp [Callback.closed]
  | msgCallBack c' => simp [Callback.closed]
  | closeCallback c' => simp [Callback.closed]

theorem count_finished (s : Server) (c : ConnId) : s.lifecycle.finished.count c = s.log.count (.closeCallback c) := by
  refine count_filterMap ?_ s.log
  intro cb
  cases cb <;> simp [Callback.finished]

/-- **A connection is closed at most once** in a run that never triggers a close of a connection while a `handleClose`
of it waits, nor closes a closed one at once. -/
theorem closed_once (base : BaseFds) (tid : Tid) (cb : CloseCallBack) (es : List ServerEv) (s : Server)
    (h : machine.run (new base tid cb) es = some s) (honce : machine.Meets TriggersOnce (new base tid cb) es)
    (c : ConnId) : s.log.count (.connectionCallBack c .kClosed) ≤ 1 ∧ s.log.count (.closeCallback c) ≤ 1 := by
  have hs : s.lifecycle.ClosedOnce :=
    machine.run_invariant_of_meets ClosedOnce.step es (new base tid cb) s (closedOnce_new base tid cb) honce h
  have hclosed : s.lifecycle.closed.count c ≤ 1 := List.nodup_iff_count_le_one.mp hs.closed_nodup c
  rw [← count_closed, ← count_finished]
  exact ⟨hclosed, (Nat.le_add_right _ _).trans ((hs.finished_le c).trans hclosed)⟩

/-- The peer shuts down its side, and the connection is closed and removed. -/
def closeByPeer : List ServerEv :=
  acceptSeven ++ [.poll [(.conn 0, closeEvent)], .handle ⟨none, none, 0⟩, .ret, .doPendingFunc, .runTask,
    .endPendingFunc]

theorem closed_once_closeByPeer :
    ∃ s, machine.run (new smallBase 1 .removeTcpConnInloop) closeByPeer = some s ∧ s.tcpconnList = ∅ ∧
      s.log.count (.connectionCallBack 0 .kClosed) ≤ 1 ∧ s.log.count (.closeCallback 0) ≤ 1 := by
  have hrun : (machine.run (new smallBase 1 .removeTcpConnInloop) closeByPeer).map (fun s => s.tcpconnList) =
      some ∅ := by decide +kernel
  have honce : machine.Meets TriggersOnce (new smallBase 1 .removeTcpConnInloop) closeByPeer := by decide +kernel
  obtain ⟨s, hs, hlist⟩ := Option.map_eq_some_iff.mp hrun
  exact ⟨s, hs, hlist, closed_once smallBase 1 .removeTcpConnInloop closeByPeer s hs honce 0⟩

/-- Both `handleClose` tasks of `closeInCallback` run. -/
def bothTasks : List ServerEv := closeInCallback ++ [.runTask, .ret, .runTask, .ret]

/-- The end of the stream and one call of `ConnectDestroyed` close the connection twice. -/
theorem closed_twice :
    ∃ s, machine.run (new smallBase 1 .removeTcpConnInloop) bothTasks = some s ∧
      s.log.count (.connectionCallBack 0 .kClosed) = 2 ∧ s.log.count (.closeCallback 0) = 2 := by
  have hrun : (machine.run (new smallBase 1 .removeTcpConnInloop) bothTasks).map
      (fun s => (s.log.count (.connectionCallBack 0 .kClosed), s.log.count (.closeCallback 0))) = some (2, 2) := by
    decide +kernel
  obtain ⟨s, hs, heq⟩ := Option.map_eq_some_iff.mp hrun
  rw [Prod.mk.injEq] at heq
  exact ⟨s, hs, heq⟩

end Server

end NetImitate
