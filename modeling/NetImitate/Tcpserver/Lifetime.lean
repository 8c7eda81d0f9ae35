import NetImitate.Tcpserver.Lifecycle

/-!
# Deferred closes and removals

* `run_lifecycle` : what every operation of the lifecycle keeps, every run of the server keeps;
* `close_task_alive` : a `handleClose` task finds its connection in `tcpconnList`; the first `RemoveTcpConn` of a
  connection erases it and no other, a later one changes nothing.
-/

namespace NetImitate

namespace Server

/-! ## Runs and lifecycles -/

/-- What every operation of the lifecycle keeps, every step of the server keeps. -/
theorem step_lifecycle {I : Lifecycle → Prop}
    (hI : ∀ l op l', I l → Lifecycle.machine.step l op = some l' → I l') {s s' : Server} {e : ServerEv}
    (hs : I s.lifecycle) (h : machine.step s e = some s') : I s'.lifecycle := by
  obtain ⟨ops, hops, -⟩ := lifecycle_step h
  exact Lifecycle.machine.run_invariant hI ops s.lifecycle s'.lifecycle hs hops

theorem run_lifecycle {I : Lifecycle → Prop}
    (hI : ∀ l op l', I l → Lifecycle.machine.step l op = some l' → I l') {s s' : Server} {es : List ServerEv}
    (hs : I s.lifecycle) (h : machine.run s es = some s') : I s'.lifecycle :=
  machine.run_invariant (I := fun s => I s.lifecycle) (fun _ _ _ ht hstep => step_lifecycle hI ht hstep) es s s' hs h

theorem inv_new (base : BaseFds) (tid : Tid) (cb : CloseCallBack) : (new base tid cb).lifecycle.Inv where
  listed_live := fun _ hc => absurd hc (Finset.notMem_empty _)
  live_lt := fun _ hc => absurd rfl hc
  connected_listed := fun _ hc => by cases hc
  close_listed := fun _ hc => (List.not_mem_nil hc).elim
  ordered := fun _ => List.Pairwise.nil
  remove_closed := fun _ hc => (List.not_mem_nil hc).elim
  closing_closed := fun _ hc => by cases hc

theorem inv_run {base : BaseFds} {tid : Tid} {cb : CloseCallBack} {es : List ServerEv} {s : Server}
    (h : machine.run (new base tid cb) es = some s) : s.lifecycle.Inv :=
  run_lifecycle (fun _ _ _ hl hstep => hl.step hstep) (inv_new base tid cb) h

/-! ## Connections that have left the list -/

/-- A connection that was made and is no longer in `tcpconnList`. -/
def Gone (c : ConnId) (l : Lifecycle) : Prop := c < l.next ∧ c ∉ l.tcpconnList

theorem Gone.step {c : ConnId} {l l' : Lifecycle} {op : LifeOp} (hl : Gone c l)
    (h : Lifecycle.machine.step l op = some l') : Gone c l' := by
  obtain ⟨hlt, hmem⟩ := hl
  cases Lifecycle.step_cases h with
  | accept =>
    refine ⟨Nat.lt_succ_of_lt hlt, ?_⟩
    intro hc
    rcases Finset.mem_insert.mp hc with rfl | hc
    · exact Nat.lt_irrefl _ hlt
    · exact hmem hc
  | removeTask hq => exact ⟨hlt, fun hc => hmem (Finset.mem_of_mem_erase hc)⟩
  | close | finish | defer | functor | functorTask | closeTask | destroy | abandon => exact ⟨hlt, hmem⟩

/-! ## The tasks -/

theorem step_removeTask {s : Server} {c : ConnId} {rest : List ServerTask}
    (hpc : s.pc = .between (.drain (.removeTcpConn c :: rest))) :
    machine.step s .runTask = some { s.removeTcpConn c with pc := .between (.drain rest) } := by
  simp only [machine, step, hpc, runTask]

/-- **Deferred close tasks never outlive their connection**, and removals are each connection's own. -/
theorem close_task_alive (base : BaseFds) (tid : Tid) (es : List ServerEv) (s : Server)
    (h : machine.run (new base tid .removeTcpConnInloop) es = some s) :
    (∀ c rest, s.pc = .between (.drain (.handleClose c :: rest)) →
      c ∈ s.tcpconnList ∧ ∃ conn, s.conns c = some conn) ∧
    ∀ c rest, s.pc = .between (.drain (.removeTcpConn c :: rest)) →
      ∃ s', machine.step s .runTask = some s' ∧ s'.tcpconnList = s.tcpconnList.erase c ∧
        ∀ fs s'' rest', machine.run s' fs = some s'' → s''.pc = .between (.drain (.removeTcpConn c :: rest')) →
          machine.step s'' .runTask = some { s'' with pc := .between (.drain rest') } := by
  constructor
  · intro c rest hpc
    have hs := inv_run h
    have hmem : .handleClose c ∈ s.lifecycle.queue := by
      simp only [lifecycle, queue_drain hpc]
      exact List.mem_cons_self
    have hlisted : c ∈ s.tcpconnList := hs.close_listed c hmem
    refine ⟨hlisted, Option.ne_none_iff_exists'.mp fun hnone => hs.listed_live c hlisted ?_⟩
    simp only [lifecycle, stateOf, hnone, Option.map_none]
  · intro c rest hpc
    have hs := inv_run h
    have hmem : .removeTcpConn c ∈ s.lifecycle.queue := by
      simp only [lifecycle, queue_drain hpc]
      exact List.mem_cons_self
    refine ⟨_, step_removeTask hpc, rfl, ?_⟩
    intro fs s'' rest' hrun hpc''
    have hstart : Gone c { s.removeTcpConn c with pc := .between (.drain rest) }.lifecycle :=
      ⟨(hs.remove_closed c hmem).1, Finset.notMem_erase c _⟩
    have hgone : Gone c s''.lifecycle :=
      run_lifecycle (fun _ _ _ hl hstep => hl.step hstep) hstart hrun
    have herase : s''.tcpconnList.erase c = s''.tcpconnList := Finset.erase_eq_of_notMem hgone.2
    rw [step_removeTask hpc'', removeTcpConn, herase]

/-- A server on descriptors 3, 4 and 5. -/
def smallBase : BaseFds := ⟨3, 4, 5, by decide⟩

/-- A connection is accepted on descriptor 7. -/
def acceptSeven : List ServerEv :=
  [.poll [(.acceptor, readEvent)], .handle ⟨some (7, "peer", 0), none, 0⟩, .ret, .doPendingFunc, .endPendingFunc]

/-- Its stream ends, and the message callback calls `ConnectDestroyed` once more. -/
def closeInCallback : List ServerEv :=
  acceptSeven ++ [.poll [(.conn 0, readEvent)], .handle ⟨none, some [], 0⟩, .connectDestroyed 0, .ret, .doPendingFunc]

theorem close_task_alive_closeInCallback :
    ∃ s, machine.run (new smallBase 1 .removeTcpConnInloop) closeInCallback = some s ∧
      s.pc = .between (.drain [.handleClose 0, .handleClose 0]) ∧ 0 ∈ s.tcpconnList := by
  have hrun : (machine.run (new smallBase 1 .removeTcpConnInloop) closeInCallback).map (fun s => s.pc) =
      some (.between (.drain [.handleClose 0, .handleClose 0])) := by decide +kernel
  obtain ⟨s, hs, hpc⟩ := Option.map_eq_some_iff.mp hrun
  exact ⟨s, hs, hpc, ((close_task_alive smallBase 1 closeInCallback s hs).1 0 _ hpc).1⟩

end Server

end NetImitate
