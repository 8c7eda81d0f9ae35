import NetImitate.Tcpserver.Callbacks

/-!
# Closed connections are collected

With the default close callback a closed connection leaves `tcpconnList` through a task.

* `Tidy` : every connection in `tcpconnList` is open, or its `RemoveTcpConn` waits, or its `handleClose` is under way;
* `idle_keeps_open` : an idle server has in memory the open connections and those the user's code holds;
-/

namespace NetImitate

namespace Server
variable {s s' t : Server} {c : ConnId}

/-- The connection is open, or is to leave `tcpconnList`. -/
def Accounted (s : Server) (c : ConnId) : Prop :=
  s.stateOf c = some .kConnected ∨ .removeTcpConn c ∈ s.queue ∨ s.pc.closing = some c

structure Tidy (s : Server) : Prop where
  tcpCloseCallBack : s.tcpCloseCallBack = .removeTcpConnInloop
  accounted : s.pc ≠ .fault → ∀ c ∈ s.tcpconnList, s.Accounted c

theorem tidy_new (base : BaseFds) (tid : Tid) : (new base tid .removeTcpConnInloop).Tidy :=
  ⟨rfl, fun _ c hc => absurd hc (Finset.notMem_empty c)⟩

theorem Accounted.mono (h : s.Accounted c) (hstate : s.stateOf c = some .kConnected → s'.stateOf c = some .kConnected)
    (hqueue : .removeTcpConn c ∈ s.queue → .removeTcpConn c ∈ s'.queue)
    (hclosing : s.pc.closing = some c → s'.pc.closing = some c) : s'.Accounted c :=
  h.imp hstate (Or.imp hqueue hclosing)

/-- A step that closes and removes no connection. -/
theorem Tidy.goOn (hs : s.Tidy) (hpc : s.pc ≠ .fault) (hcb : s'.tcpCloseCallBack = s.tcpCloseCallBack)
    (hlist : s'.tcpconnList = s.tcpconnList) (hstate : s'.stateOf = s.stateOf)
    (hqueue : ∀ c, .removeTcpConn c ∈ s.queue → .removeTcpConn c ∈ s'.queue)
    (hclosing : s'.pc.closing = s.pc.closing) : s'.Tidy where
  tcpCloseCallBack := hcb.trans hs.tcpCloseCallBack
  accounted := fun _ c hc => (hs.accounted hpc c (hlist ▸ hc)).mono (fun h => by rw [hstate]; exact h) (hqueue c)
    fun h => by rw [hclosing]; exact h

theorem Tidy.fault (hs : s.Tidy) : Tidy { s with pc := .fault } :=
  ⟨hs.tcpCloseCallBack, fun h => absurd rfl h⟩

theorem Tidy.sweep (hs : s.Tidy) (hlt : ∀ c, s.conns c ≠ none → c < s.next)
    (hlisted : ∀ c, s.stateOf c = some .kConnected → c ∈ s.tcpconnList) : s.sweep.Tidy := by
  have hstate := stateOf_sweep hlt hlisted
  obtain ⟨conns, openFds, epfd, h⟩ := s.sweep_eq
  rw [h] at hstate ⊢
  exact ⟨hs.tcpCloseCallBack, fun hpc c hc => (hs.accounted hpc c hc).mono (hstate c).mpr id id⟩

/-- The first part of `handleClose`. -/
theorem Tidy.handleClose {conn : Tcpconn Chan} {p : Place} (hs : s.Tidy) (hpc : s.pc ≠ .fault)
    (hclosing : s.pc.closing = none) (hcb : t.tcpCloseCallBack = s.tcpCloseCallBack)
    (hlist : t.tcpconnList = s.tcpconnList) (hstate : t.stateOf = s.stateOf)
    (hqueue : ∀ c, .removeTcpConn c ∈ s.queue → .removeTcpConn c ∈ p.batch ++ t.loop.pendingList) :
    (t.handleClose c conn p).Tidy where
  tcpCloseCallBack := hcb.trans hs.tcpCloseCallBack
  accounted := fun _ c' hc' => by
    by_cases heq : c' = c
    · exact Or.inr (Or.inr (heq ▸ rfl))
    · refine (hs.accounted hpc c' (hlist ▸ hc')).mono (fun h => ?_) (hqueue c') fun h => ?_
      · rw [stateOf_handleClose, Function.update_of_ne heq, hstate]
        exact h
      · rw [hclosing] at h
        cases h

/-- The rest of `handleClose` queues the removal. -/
theorem Tidy.closed (hs : s.Tidy) {p : Place} {conn : Tcpconn Chan} (hcall : s.Called c (.handleClose c) p conn) :
    (s.handleCloseRest c conn p).Tidy := by
  have hset : (s.unregister c conn).stateOf = s.stateOf := stateOf_setConn (s := s) hcall.conn rfl
  have hpending := pendingList_queInLoop (s.unregister c conn) (.removeTcpConn c)
  have hqueue : ∀ u : ServerTask, u ∈ s.queue ∨ u = .removeTcpConn c →
      u ∈ (s.handleCloseRest c conn p).queue := by
    intro u hu
    simp only [handleCloseRest, hs.tcpCloseCallBack, queue, hpending, ServerPc.batch]
    rw [queue, hcall.pc] at hu
    rw [← List.append_assoc, List.mem_append, List.mem_singleton]
    exact hu
  have hrest : s.handleCloseRest c conn p =
      { (s.unregister c conn).queInLoop (.removeTcpConn c) with pc := .between p } := by
    simp only [handleCloseRest, hs.tcpCloseCallBack]
  refine ⟨?_, fun _ c' hc' => ?_⟩
  · rw [hrest]
    exact hs.tcpCloseCallBack
  · by_cases heq : c' = c
    · exact Or.inr (Or.inl (hqueue _ (Or.inr (by rw [heq]))))
    · have hmem : c' ∈ s.tcpconnList := by
        rw [hrest] at hc'
        exact hc'
      refine (hs.accounted (by rw [hcall.pc]; exact fun h => by cases h) c' hmem).mono (fun h => ?_)
        (fun h => hqueue _ (Or.inl h)) fun h => ?_
      · rw [hrest]
        exact (congrFun hset c').trans h
      · rw [hcall.pc] at h
        exact absurd (Option.some.inj h).symm heq

/-- The tasks that wait where the thread is at `pc`. -/
theorem queue_at {pc : ServerPc} (hpc : s.pc = pc) : s.queue = pc.batch ++ s.loop.pendingList := by
  rw [queue, hpc]

/-- The task that is taken out, or one that is left. -/
theorem mem_queue_cons {u v : ServerTask} {rest : List ServerTask} (hpc : s.pc = .between (.drain (v :: rest)))
    (h : u ∈ s.queue) : u = v ∨ u ∈ rest ++ s.loop.pendingList := by
  rw [queue_drain hpc, List.cons_append] at h
  exact List.mem_cons.mp h

theorem Tidy.handleRead {revent : Events} {rest : List (Chan × Events)} {conn : Tcpconn Chan}
    {read : Option (List UInt8)} (hs : s.Tidy) (hh : s.Handles c revent rest conn)
    (hread : s.handleRead c conn read (.dispatch rest) = some s') : s'.Tidy := by
  obtain ⟨r, -, rfl⟩ := Option.map_eq_some_iff.mp hread
  have hset : (s.setConn c { conn with inBuffer := r.2 }).stateOf = s.stateOf := stateOf_setConn hh.conn rfl
  have hpc : s.pc ≠ .fault := by rw [hh.pc]; exact fun h => by cases h
  have hqueue := queue_at hh.pc
  by_cases hfail : r.1 = -1
  · simp only [if_pos hfail]
    exact hs.handleClose hpc (by rw [hh.pc]; rfl) rfl rfl hset fun c' h => by rw [hqueue] at h; exact h
  · simp only [if_neg hfail]
    by_cases heof : r.1 = 0
    · simp only [if_pos heof]
      obtain ⟨loop, hloop, -⟩ := connectDestroyed_eq (s.setConn c { conn with inBuffer := r.2 }) c
        { conn with inBuffer := r.2 }
      have hpending := fun c' => (pending_connectDestroyed (s.setConn c { conn with inBuffer := r.2 }) c
        { conn with inBuffer := r.2 } c').mpr
      rw [hloop] at hpending ⊢
      exact hs.goOn hpc rfl rfl hset (fun c' h => by rw [hqueue] at h; exact hpending c' h) (by rw [hh.pc]; rfl)
    · simp only [if_neg heof]
      exact hs.goOn hpc rfl rfl hset (fun c' h => by rw [hqueue] at h; exact h) (by rw [hh.pc]; rfl)

theorem Tidy.accept {ch : Chan × Events} {rest : List (Chan × Events)} {fd : Nat} {address : String}
    {event : Events} (hs : s.Tidy) (hpc : s.pc = .between (.dispatch (ch :: rest)))
    (haccept : s.tcpserverConnection fd address event (.dispatch rest) = some s') : s'.Tidy := by
  obtain ⟨-, heq⟩ := Option.ite_none_left_eq_some.mp haccept
  cases heq
  have hstate := stateOf_update s s.next (some (Tcpconn.new (.conn s.next) fd address event))
  refine ⟨hs.tcpCloseCallBack, fun _ c hc => ?_⟩
  by_cases heq : c = s.next
  · refine Or.inl ((congrFun hstate c).trans ?_)
    rw [heq, Function.update_self]
    rfl
  · have hmem : c ∈ s.tcpconnList := (Finset.mem_insert.mp hc).resolve_left heq
    refine (hs.accounted (by rw [hpc]; exact fun h => by cases h) c hmem).mono (fun h => ?_) (fun h => ?_) fun h => ?_
    · exact (congrFun hstate c).trans ((Function.update_of_ne heq _ _).trans h)
    · rw [queue_at hpc] at h
      exact h
    · rw [hpc] at h
      cases h

theorem Tidy.step {e : ServerEv} (hs : s.Tidy) (hinv : s.lifecycle.Inv) (h : machine.step s e = some s') : s'.Tidy := by
  have hlt : ∀ c, s.conns c ≠ none → c < s.next :=
    fun c hc => hinv.live_lt c fun hnone => hc (Option.map_eq_none_iff.mp hnone)
  have hnot : ∀ pc, s.pc = pc → pc ≠ .fault → s.pc ≠ .fault := fun pc hpc hne => hpc ▸ hne
  cases step_cases h with
  | poll hpc hrep | wakeup hpc | timerfd hpc | acceptFailed hpc hio =>
    exact hs.goOn (hnot _ hpc (fun h => by cases h)) rfl rfl rfl (fun c h => by rw [queue_at hpc] at h; exact h)
      (by rw [hpc]; rfl)
  | accept hpc hio haccept => exact hs.accept hpc haccept
  | handleFault | closeFault | retFault => exact hs.fault
  | closeEvent hh hev =>
    exact hs.handleClose (hnot _ hh.pc (fun h => by cases h)) (by rw [hh.pc]; rfl) rfl rfl rfl
      fun c h => by rw [queue_at hh.pc] at h; exact h
  | read hh hev hread => exact hs.handleRead hh hread
  | write hh hev hwrite =>
    obtain ⟨w, hw, rfl⟩ := Option.map_eq_some_iff.mp hwrite
    obtain ⟨-, hstate, -⟩ := Tcpconn.handleWrite_frame hw
    exact hs.goOn (hnot _ hh.pc (fun h => by cases h)) rfl rfl (stateOf_setConn hh.conn hstate)
      (fun c h => by rw [queue_at hh.pc] at h; exact h) (by rw [hh.pc]; rfl)
  | noCallBack hh hev =>
    exact hs.goOn (hnot _ hh.pc (fun h => by cases h)) rfl rfl rfl (fun c h => by rw [queue_at hh.pc] at h; exact h)
      (by rw [hh.pc]; rfl)
  | doPendingFunc hpc =>
    refine hs.goOn (hnot _ hpc (fun h => by cases h)) rfl rfl rfl (fun c h => ?_) (by rw [hpc]; rfl)
    rw [queue_at hpc] at h
    exact List.mem_append_left _ h
  | functorTask hpc =>
    exact hs.goOn (hnot _ hpc (fun h => by cases h)) rfl rfl rfl
      (fun c h => (mem_queue_cons hpc h).resolve_left fun h => by cases h) (by rw [hpc]; rfl)
  | @removeTask c rest hpc =>
    refine ⟨hs.tcpCloseCallBack, fun _ c' hc' => ?_⟩
    obtain ⟨hne, hmem⟩ := Finset.mem_erase.mp hc'
    refine (hs.accounted (hnot _ hpc (fun h => by cases h)) c' hmem).mono id (fun h => ?_) fun h => ?_
    · exact (mem_queue_cons hpc h).resolve_left fun heq => hne (ServerTask.removeTcpConn.inj heq)
    · rw [hpc] at h
      cases h
  | closeTask hpc hconn =>
    exact hs.handleClose (hnot _ hpc (fun h => by cases h)) (by rw [hpc]; rfl) rfl rfl rfl
      fun c h => (mem_queue_cons hpc h).resolve_left fun h => by cases h
  | endPendingFunc hpc =>
    have hidle : Tidy { s with
        loop := { s.loop with callingPendingFunc := false }
        funcList := []
        pc := .wait } :=
      hs.goOn (hnot _ hpc (fun h => by cases h)) rfl rfl rfl (fun c h => by rw [queue_at hpc] at h; exact h)
        (by rw [hpc]; rfl)
    exact hidle.sweep hlt hinv.connected_listed
  | @connectDestroyed c k p conn hcall =>
    obtain ⟨loop, hloop, -⟩ := s.connectDestroyed_eq c conn
    have hpending := fun c' => (pending_connectDestroyed s c conn c').mpr
    rw [hloop] at hpending ⊢
    refine hs.goOn (hnot _ hcall.pc (fun h => by cases h)) rfl rfl rfl (fun c' h => ?_) rfl
    rcases List.mem_append.mp h with h | h
    · exact List.mem_append_left _ h
    · exact List.mem_append_right _ (hpending c' h)
  | send hcall hholds hsend =>
    obtain ⟨w, hw, rfl⟩ := Option.map_eq_some_iff.mp hsend
    exact hs.goOn (hnot _ hcall.pc (fun h => by cases h)) rfl rfl
      (stateOf_setConn hcall.conn (Tcpconn.state_sendInLoop hw)) (fun c h => h) rfl
  | shutdown hcall hholds =>
    exact hs.goOn (hnot _ hcall.pc (fun h => by cases h)) rfl rfl (stateOf_setConn (s := s) hcall.conn rfl)
      (fun c h => h) rfl
  | queInLoop hpc =>
    refine hs.goOn (hnot _ hpc (fun h => by cases h)) rfl rfl rfl (fun c h => ?_) rfl
    rw [queue_queInLoop]
    exact List.mem_append_left _ h
  | @drop c k p hpc =>
    have hdropped : Tidy { s with held := s.held.erase c } :=
      hs.goOn (hnot _ hpc (fun h => by cases h)) rfl rfl rfl (fun c h => h) rfl
    exact hdropped.sweep hlt hinv.connected_listed
  | @back arg p hpc =>
    have hbetween : Tidy { s with pc := .between p } :=
      hs.goOn (hnot _ hpc (fun h => by cases h)) rfl rfl rfl (fun c h => by rw [queue_at hpc] at h; exact h)
        (by rw [hpc]; rfl)
    exact hbetween.sweep hlt hinv.connected_listed
  | @established c p conn hcall =>
    have hset : (s.setConn c (conn.connectEstablished s.poll).1).stateOf = s.stateOf := stateOf_setConn hcall.conn rfl
    exact hs.goOn (hnot _ hcall.pc (fun h => by cases h)) rfl rfl hset
      (fun c h => by rw [queue_at hcall.pc] at h; exact h) (by rw [hcall.pc]; rfl)
  | closed hcall => exact hs.closed hcall

/-! ## An idle server -/

theorem tidy_run {base : BaseFds} {tid : Tid} {es : List ServerEv}
    (h : machine.run (new base tid .removeTcpConnInloop) es = some s) : s.Tidy := by
  refine (machine.run_invariant (I := fun s => s.lifecycle.Inv ∧ s.Tidy) ?_ es _ s
    ⟨inv_new base tid .removeTcpConnInloop, tidy_new base tid⟩ h).2
  rintro t e t' ⟨hinv, ht⟩ hstep
  exact ⟨step_lifecycle (fun _ _ _ hl hop => hl.step hop) hinv hstep, ht.step hinv hstep⟩

/-- **An idle server keeps nothing of a closed connection**: at `epoll_wait` with no task pending, `tcpconnList` has the
open connections, and in memory, with their descriptors open, are these and the ones the user's code holds. -/
theorem idle_keeps_open (base : BaseFds) (tid : Tid) (es : List ServerEv) (s : Server)
    (h : machine.run (new base tid .removeTcpConnInloop) es = some s) (hpc : s.pc = .wait)
    (hidle : s.loop.pendingList = []) :
    (∀ c, c ∈ s.tcpconnList ↔ s.stateOf c = some .kConnected) ∧
    (∀ c, s.conns c ≠ none ↔ s.stateOf c = some .kConnected ∨ c ∈ s.held) ∧
    ∀ fd, fd ∈ s.openFds ↔ fd ∈ base.fds ∨ ∃ c conn, s.conns c = some conn ∧ conn.connectSocket.socketfd = fd ∧
      (conn.state = .kConnected ∨ c ∈ s.held) := by
  have hinv := inv_run h
  obtain ⟨hkept, hexact⟩ := exact_run h
  have hlisted : ∀ c, c ∈ s.tcpconnList ↔ s.stateOf c = some .kConnected := by
    intro c
    refine ⟨fun hc => ?_, hinv.connected_listed c⟩
    rcases (tidy_run h).accounted (by rw [hpc]; exact fun h => by cases h) c hc with hopen | hwait | hclosing
    · exact hopen
    · rw [queue_at hpc, hidle] at hwait
      exact (List.not_mem_nil hwait).elim
    · rw [hpc] at hclosing
      cases hclosing
  have hlive : ∀ c, s.conns c ≠ none ↔ s.stateOf c = some .kConnected ∨ c ∈ s.held := by
    intro c
    rw [← connFd_ne_none, ← hlisted c]
    refine (hexact.live_iff c).trans ((referenced_iff s c).trans ?_)
    rw [hidle, hkept.idle (by rw [hpc]; rfl), hpc]
    simp only [List.not_mem_nil, ServerPc.arg, reduceCtorEq, or_false]
  refine ⟨hlisted, hlive, fun fd => (hexact.used_iff fd).trans (or_congr Iff.rfl ?_)⟩
  constructor
  · rintro ⟨c, hc⟩
    obtain ⟨conn, hconn, hfd⟩ := (connFd_eq_some s c fd).mp hc
    refine ⟨c, conn, hconn, hfd, ?_⟩
    have hkeeps := (hlive c).mp (by rw [hconn]; exact Option.some_ne_none _)
    rwa [stateOf_eq hconn, Option.some.injEq] at hkeeps
  · rintro ⟨c, conn, hconn, hfd, -⟩
    exact ⟨c, (connFd_eq_some s c fd).mpr ⟨conn, hconn, hfd⟩⟩

theorem idle_keeps_open_closeByPeer :
    ∃ s, machine.run (new smallBase 1 .removeTcpConnInloop) closeByPeer = some s ∧ s.next = 1 ∧ s.conns 0 = none := by
  have hrun : (machine.run (new smallBase 1 .removeTcpConnInloop) closeByPeer).map
      (fun s => (s.pc, s.loop.pendingList, s.next, decide (0 ∈ s.held), s.stateOf 0)) =
      some (.wait, [], 1, false, none) := by decide +kernel
  obtain ⟨s, hs, heq⟩ := Option.map_eq_some_iff.mp hrun
  simp only [Prod.mk.injEq, decide_eq_false_iff_not] at heq
  obtain ⟨hpc, hidle, hnext, hheld, hstate⟩ := heq
  refine ⟨s, hs, hnext, ?_⟩
  by_contra hlive
  rcases ((idle_keeps_open smallBase 1 closeByPeer s hs hpc hidle).2.1 0).mp hlive with hopen | hmem
  · rw [hstate] at hopen
    cases hopen
  · exact hheld hmem

end Server

end NetImitate
