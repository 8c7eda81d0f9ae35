import NetImitate.Tcpserver.Wakeup

/-!
# A closed connection goes within three rounds

A task that is not queued any more is run, and out of memory, when the next whole round of the loop ends. A connection
that is closed queues no `handleClose`, and once the last of these has run it queues no removal.

* `QueueStep`, `queue_step` : what a step does to `pendingList` and to the batch;
* `Spending`, `Spent` : a task that is not queued any more, before and after the end of a round;
* `Phase`, `Phase.step` : the closed connection from round to round;
* `closed_goes` : it is not in `tcpconnList`, and in memory only as long as the user's code holds it.
-/

namespace NetImitate

/-- In `DoPendingFunc`. -/
def ServerPc.draining : ServerPc → Bool
  | .between (.drain _) | .user _ (.drain _) => true
  | _ => false

/-- The end of `DoPendingFunc` ends a round of the loop. -/
def ServerEv.endsRound : ServerEv → Bool
  | .endPendingFunc => true
  | _ => false

namespace Server
variable {s s' : Server} {e : ServerEv} {c : ConnId} {u : ServerTask}

/-! ## The queue from step to step -/

/-- A step queues tasks, swaps `pendingList` out, or ends the round. -/
inductive QueueStep (s : Server) (e : ServerEv) (s' : Server) : Prop
  | submit (he : e.endsRound = false) (hpending : s'.loop.pendingList = s.loop.pendingList ++ s.submits e)
      (hfunc : s'.funcList = s.funcList) (hdrain : s'.pc.draining = true → s.pc.draining = true)
  | swap (he : e.endsRound = false) (hpending : s'.loop.pendingList = []) (hfunc : s'.funcList = s.loop.pendingList)
  | finish (he : e.endsRound = true) (hdrain : s.pc.draining = true) (hpc : s'.pc = .wait)
      (hpending : s'.loop.pendingList = s.loop.pendingList) (hfunc : s'.funcList = [])

/-- A step that queues nothing. -/
theorem QueueStep.quiet (he : e.endsRound = false) (hloop : s'.loop.pendingList = s.loop.pendingList)
    (hq : s.submits e = []) (hfunc : s'.funcList = s.funcList) (hdrain : s'.pc.draining = true → s.pc.draining = true) :
    QueueStep s e s' := .submit he (by rw [hloop, hq, List.append_nil]) hfunc hdrain

theorem QueueStep.sweep (h : QueueStep s e s') : QueueStep s e s'.sweep := by
  obtain ⟨conns, openFds, epfd, heq⟩ := s'.sweep_eq
  rw [heq]
  cases h with
  | submit he hpending hfunc hdrain => exact .submit he hpending hfunc hdrain
  | swap he hpending hfunc => exact .swap he hpending hfunc
  | finish he hdrain hpc hpending hfunc => exact .finish he hdrain hpc hpending hfunc

/-- `ConnectDestroyed` queues a `handleClose` where the connection is open. -/
theorem pendingList_connectDestroyed (s : Server) (c : ConnId) (conn : Tcpconn Chan) :
    (s.connectDestroyed c conn).loop.pendingList =
      s.loop.pendingList ++ if conn.state = .kConnected then [.handleClose c] else [] := by
  unfold connectDestroyed
  cases conn.state with
  | kClosed => exact (List.append_nil _).symm
  | kConnected => exact pendingList_queInLoop s (.handleClose c)

theorem queue_handleRead {revent : Events} {rest : List (Chan × Events)} {io : Io} {conn : Tcpconn Chan}
    (hh : s.Handles c revent rest conn) (hev : Channel.handleEvent revent = some .cbRead)
    (hread : s.handleRead c conn io.read (.dispatch rest) = some s') : QueueStep s (.handle io) s' := by
  obtain ⟨r, hr, rfl⟩ := Option.map_eq_some_iff.mp hread
  have hret := readToBuf_ret hr
  have hdefers : s.defersAt (.handle io) = if r.1 = 0 then some c else none := by
    simp only [defersAt, hh.pc, hev, true_and, hret]
  by_cases hfail : r.1 = -1
  · simp only [if_pos hfail]
    exact .quiet rfl rfl (by simp [submits, hdefers, hfail]) rfl fun h => by cases h
  · simp only [if_neg hfail]
    by_cases heof : r.1 = 0
    · simp only [if_pos heof]
      have hq : s.submits (.handle io) = if conn.state = .kConnected then [.handleClose c] else [] := by
        simp only [submits, hdefers, if_pos heof, stateOf_eq hh.conn, Option.some.injEq]
      refine .submit rfl ?_ ?_ fun h => by cases h
      · rw [hq]
        exact pendingList_connectDestroyed (s.setConn c { conn with inBuffer := r.2 }) c { conn with inBuffer := r.2 }
      · obtain ⟨loop, hloop, -⟩ := connectDestroyed_eq (s.setConn c { conn with inBuffer := r.2 }) c
          { conn with inBuffer := r.2 }
        rw [hloop]
        rfl
    · simp only [if_neg heof]
      exact .quiet rfl rfl (by simp [submits, hdefers, heof]) rfl fun h => by cases h

theorem queue_closed {p : Place} {conn : Tcpconn Chan} (hcall : s.Called c (.handleClose c) p conn) :
    QueueStep s .ret (s.handleCloseRest c conn p) := by
  have hlive : s.conns c ≠ none := by rw [hcall.conn]; exact Option.some_ne_none _
  have hdrain : ∀ k, (ServerPc.user k p).draining = true → s.pc.draining = true := by
    intro k h
    rw [hcall.pc]
    cases p with
    | dispatch channelList => cases h
    | drain rest => rfl
  cases hcb : s.tcpCloseCallBack with
  | removeTcpConnInloop =>
    have hq : s.submits .ret = [.removeTcpConn c] := by simp [submits, hcall.pc, hlive, hcb]
    simp only [handleCloseRest, hcb]
    refine .submit rfl ?_ rfl ?_
    · rw [hq]
      exact pendingList_queInLoop (s.unregister c conn) (.removeTcpConn c)
    · cases p with
      | dispatch channelList => exact fun h => by cases h
      | drain rest => exact fun _ => hdrain (.back none) rfl
  | user =>
    simp only [handleCloseRest, hcb]
    exact .quiet rfl rfl (by simp [submits, hcall.pc, hlive, hcb]) rfl (hdrain _)

theorem queue_step (h : machine.step s e = some s') : QueueStep s e s' := by
  have hback : ∀ {k : Cont} {p : Place}, s.pc = .user k p → (ServerPc.between p).draining = true →
      s.pc.draining = true := by
    intro k p hpc hp
    rw [hpc]
    cases p with
    | dispatch channelList => cases hp
    | drain rest => rfl
  cases step_cases h with
  | poll hpc hrep => exact .quiet rfl rfl rfl rfl fun h => by cases h
  | wakeup hpc | timerfd hpc | acceptFailed hpc hio =>
    exact .quiet rfl rfl (by simp [submits, defersAt, hpc]) rfl fun h => by cases h
  | accept hpc hio haccept =>
    obtain ⟨-, heq⟩ := Option.ite_none_left_eq_some.mp haccept
    cases heq
    exact .quiet rfl rfl (by simp [submits, defersAt, hpc]) rfl fun h => by cases h
  | handleFault hpc hconn => exact .quiet rfl rfl (submits_handleFault hpc hconn) rfl fun h => by cases h
  | closeEvent hh hev | noCallBack hh hev =>
    exact .quiet rfl rfl (by simp [submits, defersAt, hh.pc, hev]) rfl fun h => by cases h
  | read hh hev hread => exact queue_handleRead hh hev hread
  | write hh hev hwrite =>
    obtain ⟨w, hw, rfl⟩ := Option.map_eq_some_iff.mp hwrite
    exact .quiet rfl rfl (by simp [submits, defersAt, hh.pc, hev]) rfl fun h => by cases h
  | doPendingFunc hpc => exact .swap rfl rfl rfl
  | functorTask hpc | removeTask hpc | closeTask hpc => exact .quiet rfl rfl rfl rfl fun _ => by rw [hpc]; rfl
  | closeFault hpc => exact .quiet rfl rfl rfl rfl fun h => by cases h
  | endPendingFunc hpc =>
    apply QueueStep.sweep
    exact .finish rfl (by rw [hpc]; rfl) rfl rfl rfl
  | @connectDestroyed c k p conn hcall =>
    have hq : s.submits (.connectDestroyed c) = if conn.state = .kConnected then [.handleClose c] else [] := by
      simp only [submits, defersAt, stateOf_eq hcall.conn, Option.some.injEq]
    have hpending := s.pendingList_connectDestroyed c conn
    obtain ⟨loop, hloop, -⟩ := s.connectDestroyed_eq c conn
    rw [hloop] at hpending ⊢
    exact .submit rfl (by rw [hq]; exact hpending) rfl id
  | send hcall hholds hsend =>
    obtain ⟨w, hw, rfl⟩ := Option.map_eq_some_iff.mp hsend
    exact .quiet rfl rfl rfl rfl id
  | shutdown hcall hholds => exact .quiet rfl rfl rfl rfl id
  | queInLoop hpc => exact .submit rfl (pendingList_queInLoop s .functor) rfl id
  | drop hpc =>
    apply QueueStep.sweep
    exact .quiet rfl rfl rfl rfl id
  | back hpc =>
    apply QueueStep.sweep
    exact .quiet rfl rfl (by simp [submits, hpc]) rfl (hback hpc)
  | established hcall => exact .quiet rfl rfl (by simp [submits, hcall.pc]) rfl (hback hcall.pc)
  | closed hcall => exact queue_closed hcall
  | retFault hpc hk hconn => exact .quiet rfl rfl (submits_retFault hpc hk hconn) rfl fun h => by cases h

/-! ## A task that is not queued any more -/

/-- No copy of `u` waits that would outlive the round. -/
def Spending (u : ServerTask) (s : Server) : Prop := s.pc.draining = true → u ∉ s.loop.pendingList

/-- No copy of `u` is left. -/
structure Spent (u : ServerTask) (s : Server) : Prop where
  pending : u ∉ s.loop.pendingList
  batch : u ∉ s.funcList

theorem Spending.step (hs : s.Spending u) (h : QueueStep s e s') (hu : u ∉ s.submits e) : s'.Spending u := by
  intro hdrain'
  cases h with
  | submit he hpending hfunc hdrain =>
    rw [hpending]
    exact List.not_mem_append (hs (hdrain hdrain')) hu
  | swap he hpending hfunc =>
    rw [hpending]
    exact List.not_mem_nil
  | finish he hdrain hpc hpending hfunc =>
    rw [hpc] at hdrain'
    cases hdrain'

theorem Spent.step (hs : s.Spent u) (h : QueueStep s e s') (hu : u ∉ s.submits e) : s'.Spent u := by
  cases h with
  | submit he hpending hfunc hdrain =>
    exact ⟨by rw [hpending]; exact List.not_mem_append hs.pending hu, by rw [hfunc]; exact hs.batch⟩
  | swap he hpending hfunc => exact ⟨by rw [hpending]; exact List.not_mem_nil, by rw [hfunc]; exact hs.pending⟩
  | finish he hdrain hpc hpending hfunc =>
    exact ⟨by rw [hpending]; exact hs.pending, by rw [hfunc]; exact List.not_mem_nil⟩

/-- The end of the round. -/
theorem Spending.finish (hs : s.Spending u) (h : QueueStep s e s') (he : e.endsRound = true) : s'.Spent u := by
  cases h with
  | submit hne | swap hne =>
    rw [he] at hne
    cases hne
  | finish _ hdrain hpc hpending hfunc =>
    exact ⟨by rw [hpending]; exact hs hdrain, by rw [hfunc]; exact List.not_mem_nil⟩

theorem spending_of_wait (hpc : s.pc = .wait) : s.Spending u := by
  intro hdrain
  rw [hpc] at hdrain
  cases hdrain

theorem wait_of_endsRound (h : QueueStep s e s') (he : e.endsRound = true) : s'.pc = .wait := by
  cases h with
  | submit hne | swap hne =>
    rw [he] at hne
    cases hne
  | finish _ hdrain hpc hpending hfunc => exact hpc

/-! ## A closed connection -/

/-- Only an open connection has a `handleClose` queued. -/
theorem submits_handleClose (h : .handleClose c ∈ s.submits e) : s.stateOf c = some .kConnected := by
  unfold submits at h
  split at h
  · simp at h
  · split at h
    · simp at h
    · simp at h
  · split at h
    · cases h
    · simp only [List.mem_ite_nil_right, List.mem_singleton, ServerTask.handleClose.injEq] at h
      exact h.2 ▸ h.1

/-- Only the rest of a `handleClose` queues a removal. -/
theorem submits_removeTcpConn (h : .removeTcpConn c ∈ s.submits e) : s.pc.closing = some c := by
  unfold submits at h
  split at h
  · simp at h
  · split at h
    · rename_i c' p hpc
      simp only [List.mem_ite_nil_right, List.mem_singleton, ServerTask.removeTcpConn.injEq] at h
      rw [hpc, h.2]
      rfl
    · simp at h
  · split at h
    · cases h
    · simp at h

/-- A `handleClose` gets under way from a reported channel or from the batch. -/
theorem closing_step (h : machine.step s e = some s') (hclosing : s'.pc.closing = some c) :
    s.pc.closing = some c ∨ (∃ revent, (.conn c, revent) ∈ s.pc.channelList) ∨ .handleClose c ∈ s.pc.batch := by
  have hnone : ∀ {t : Server}, t.pc.closing = none → t.sweep.pc.closing ≠ some c := by
    intro t ht
    obtain ⟨conns, openFds, epfd, heq⟩ := t.sweep_eq
    rw [heq, ht]
    exact fun h => by cases h
  cases step_cases h with
  | poll | wakeup | timerfd | acceptFailed | handleFault | noCallBack | doPendingFunc | functorTask | removeTask
  | closeFault | established | retFault => cases hclosing
  | accept hpc hio haccept =>
    obtain ⟨-, heq⟩ := Option.ite_none_left_eq_some.mp haccept
    cases heq
    cases hclosing
  | write hh hev hwrite =>
    obtain ⟨w, -, rfl⟩ := Option.map_eq_some_iff.mp hwrite
    cases hclosing
  | closeEvent hh hev =>
    cases hclosing
    exact Or.inr (Or.inl ⟨_, by rw [hh.pc]; exact List.mem_cons_self⟩)
  | read hh hev hread =>
    obtain ⟨r, -, rfl⟩ := Option.map_eq_some_iff.mp hread
    by_cases hfail : r.1 = -1
    · simp only [if_pos hfail] at hclosing
      cases hclosing
      exact Or.inr (Or.inl ⟨_, by rw [hh.pc]; exact List.mem_cons_self⟩)
    · simp only [if_neg hfail] at hclosing
      split at hclosing <;> cases hclosing
  | closeTask hpc hconn =>
    cases hclosing
    exact Or.inr (Or.inr (by rw [hpc]; exact List.mem_cons_self))
  | endPendingFunc hpc => exact absurd hclosing (hnone rfl)
  | back hpc => exact absurd hclosing (hnone rfl)
  | connectDestroyed hcall => exact Or.inl (by rwa [pc_connectDestroyed] at hclosing)
  | send hcall hholds hsend =>
    obtain ⟨w, -, rfl⟩ := Option.map_eq_some_iff.mp hsend
    exact Or.inl hclosing
  | shutdown | queInLoop => exact Or.inl hclosing
  | @drop c' k p hpc =>
    obtain ⟨conns, openFds, epfd, heq⟩ := sweep_eq { s with held := s.held.erase c' }
    rw [heq] at hclosing
    exact Or.inl hclosing
  | @closed c' p conn hcall =>
    cases hcb : s.tcpCloseCallBack <;> simp only [handleCloseRest, hcb] at hclosing <;> cases hclosing

/-- What holds of a server with the default close callback while no short write registers a closed connection again. -/
structure Settled (s : Server) : Prop where
  orderly : s.Orderly
  kept : s.Kept
  tidy : s.Tidy

theorem settled_new (base : BaseFds) (tid : Tid) : (new base tid .removeTcpConnInloop).Settled :=
  ⟨orderly_new base tid .removeTcpConnInloop, kept_new base tid .removeTcpConnInloop, tidy_new base tid⟩

theorem Settled.step (hs : s.Settled) (hopen : s.OpenWrites e) (h : machine.step s e = some s') : s'.Settled :=
  ⟨hs.orderly.step hopen h, hs.kept.step h, hs.tidy.step hs.orderly.inv h⟩

/-- The closed connection after its last `handleClose` has run. -/
structure Closed (c : ConnId) (s : Server) : Prop where
  spent : s.Spent (.handleClose c)
  closing : s.pc.closing ≠ some c

/-- The closed connection, by the ends of rounds since. -/
def After (c : ConnId) : Nat → Server → Prop
  | 0, _ => True
  | 1, s => s.Spending (.handleClose c)
  | 2, s => s.Closed c ∧ s.Spending (.removeTcpConn c)
  | _ + 3, s => s.Closed c ∧ s.Spent (.removeTcpConn c) ∧ c ∉ s.tcpconnList

structure Phase (c : ConnId) (n : Nat) (s : Server) : Prop where
  settled : s.Settled
  shut : Shut c s.lifecycle
  after : s.After c n

/-- Nothing closes the connection again. -/
theorem Closed.step (hs : s.Closed c) (hsettled : s.Settled) (hshut : Shut c s.lifecycle)
    (h : machine.step s e = some s') : s'.Closed c where
  spent := hs.spent.step (queue_step h) fun hu => hshut.2 (submits_handleClose hu)
  closing := fun hclosing => by
    rcases closing_step h hclosing with hc | ⟨revent, hmem⟩ | hmem
    · exact hs.closing hc
    · exact hshut.2 (hsettled.orderly.dispatched.connected c revent hmem)
    · exact hs.spent.batch (hsettled.kept.batch hmem)

/-- With no removal waiting the connection is not in `tcpconnList`. -/
theorem Closed.unlisted (hs : s.Closed c) (hsettled : s.Settled) (hshut : Shut c s.lifecycle)
    (hspent : s.Spent (.removeTcpConn c)) (hpc : s.pc = .wait) : c ∉ s.tcpconnList := by
  intro hc
  rcases hsettled.tidy.accounted (by rw [hpc]; exact fun h => by cases h) c hc with hopen | hwait | hclosing
  · exact hshut.2 hopen
  · rw [queue_at hpc] at hwait
    exact hspent.pending hwait
  · exact hs.closing hclosing

theorem Phase.step {n : Nat} (hs : Phase c n s) (hopen : s.OpenWrites e) (h : machine.step s e = some s') :
    Phase c (if e.endsRound then n + 1 else n) s' := by
  obtain ⟨hsettled, hshut, hafter⟩ := hs
  have hsettled' := hsettled.step hopen h
  have hshut' : Shut c s'.lifecycle := step_lifecycle (fun _ _ _ hl hop => hl.step hop) hshut h
  refine ⟨hsettled', hshut', ?_⟩
  have hqueue := queue_step h
  have hclose : .handleClose c ∉ s.submits e := fun hu => hshut.2 (submits_handleClose hu)
  have hremove : s.Closed c → .removeTcpConn c ∉ s.submits e := fun hc hu => hc.closing (submits_removeTcpConn hu)
  have hgone : c ∉ s.tcpconnList → c ∉ s'.tcpconnList := fun hc =>
    (step_lifecycle (I := Gone c) (fun _ _ _ hl hop => hl.step hop) ⟨hshut.1, hc⟩ h).2
  by_cases he : e.endsRound = true
  · rw [if_pos he]
    have hwait := wait_of_endsRound hqueue he
    match n, hafter with
    | 0, _ => exact spending_of_wait hwait
    | 1, hspending =>
      have hspent := hspending.finish hqueue he
      exact ⟨⟨hspent, by rw [hwait]; exact fun h => by cases h⟩, spending_of_wait hwait⟩
    | 2, ⟨hclosed, hspending⟩ =>
      have hspent := hspending.finish hqueue he
      have hclosed' := hclosed.step hsettled hshut h
      exact ⟨hclosed', hspent, hclosed'.unlisted hsettled' hshut' hspent hwait⟩
    | n + 3, ⟨hclosed, hspent, hlist⟩ =>
      exact ⟨hclosed.step hsettled hshut h, hspent.step hqueue (hremove hclosed), hgone hlist⟩
  · rw [if_neg he]
    match n, hafter with
    | 0, _ => trivial
    | 1, hspending => exact hspending.step hqueue hclose
    | 2, ⟨hclosed, hspending⟩ =>
      exact ⟨hclosed.step hsettled hshut h, hspending.step hqueue (hremove hclosed)⟩
    | n + 3, ⟨hclosed, hspent, hlist⟩ =>
      exact ⟨hclosed.step hsettled hshut h, hspent.step hqueue (hremove hclosed), hgone hlist⟩

theorem settled_run {base : BaseFds} {tid : Tid} {es : List ServerEv}
    (h : machine.run (new base tid .removeTcpConnInloop) es = some s)
    (hopen : machine.Meets OpenWrites (new base tid .removeTcpConnInloop) es) : s.Settled :=
  machine.run_invariant_of_meets (fun _ _ _ hs ho hstep => hs.step ho hstep) es _ s (settled_new base tid) hopen h

/-- **A closed connection goes.** With the default close callback, once a connection is closed it is out of
`tcpconnList` after two more rounds of the loop, three where one is under way, and from then on it is in memory, and
its descriptor open, exactly as long as the user's code holds it. -/
theorem closed_goes (base : BaseFds) (tid : Tid) (es fs : List ServerEv) (s s' : Server)
    (h : machine.run (new base tid .removeTcpConnInloop) es = some s) (h' : machine.run s fs = some s')
    (hopen : machine.Meets OpenWrites (new base tid .removeTcpConnInloop) (es ++ fs)) (c : ConnId) (hc : c < s.next)
    (hclosed : s.stateOf c ≠ some .kConnected)
    (hrounds : (if s.pc = .wait then 2 else 3) ≤ fs.countP ServerEv.endsRound) :
    c ∉ s'.tcpconnList ∧ (s'.conns c ≠ none ↔ s'.Holds c) := by
  obtain ⟨hes, hfs⟩ := machine.meets_append.mp hopen
  have hsettled := settled_run h hes
  have hstart : Phase c (if s.pc = .wait then 1 else 0) s := by
    refine ⟨hsettled, ⟨hc, hclosed⟩, ?_⟩
    by_cases hpc : s.pc = .wait
    · rw [if_pos hpc]
      exact spending_of_wait hpc
    · rw [if_neg hpc]
      trivial
  have hend := machine.run_phases (P := Phase c) (fun _ _ _ _ hs ho hstep => hs.step ho hstep) fs _ s s' hstart
    (hfs s h) h'
  obtain ⟨k, hk⟩ : ∃ k, (if s.pc = .wait then 1 else 0) + fs.countP ServerEv.endsRound = k + 3 := by
    apply Nat.exists_eq_add_of_le'
    split at hrounds <;> simp only [*, if_true, if_false] <;> omega
  rw [hk] at hend
  obtain ⟨hclosed', hspent, hlist⟩ := hend.after
  refine ⟨hlist, ?_⟩
  have hrun : machine.run (new base tid .removeTcpConnInloop) (es ++ fs) = some s' := by
    rw [Machine.run_append, h]
    exact h'
  rw [← connFd_ne_none]
  refine ((exact_run hrun).2.live_iff c).trans ((referenced_iff s' c).trans ?_)
  simp only [hlist, hspent.pending, hspent.batch, false_or, Holds]

/-- A round for the wakeup descriptor, in which the removal runs, and one for the timer. -/
def twoRounds : List ServerEv :=
  [.poll [(.wakeup, readEvent)], .handle ⟨none, none, 0⟩, .doPendingFunc, .runTask, .endPendingFunc,
    .poll [(.timerfd, readEvent)], .handle ⟨none, none, 0⟩, .ret, .doPendingFunc, .endPendingFunc]

theorem closed_goes_closeThenPoll :
    ∃ s s', machine.run (new smallBase 1 .removeTcpConnInloop) closeThenPoll = some s ∧
      machine.run s twoRounds = some s' ∧ 0 ∉ s'.tcpconnList ∧ s'.conns 0 ≠ none := by
  have hrun : (machine.run (new smallBase 1 .removeTcpConnInloop) closeThenPoll).map
      (fun s => (s.pc, decide (0 < s.next), s.stateOf 0)) = some (.wait, true, some .kClosed) := by decide +kernel
  obtain ⟨s, hs, heq⟩ := Option.map_eq_some_iff.mp hrun
  simp only [Prod.mk.injEq, decide_eq_true_eq] at heq
  obtain ⟨hpc, hnext, hstate⟩ := heq
  have hrun' : (machine.run (new smallBase 1 .removeTcpConnInloop) (closeThenPoll ++ twoRounds)).map
      (fun s => decide (0 ∈ s.held)) = some true := by decide +kernel
  obtain ⟨s', hs', hheld⟩ := Option.map_eq_some_iff.mp hrun'
  rw [Machine.run_append, hs] at hs'
  have hgoes := closed_goes smallBase 1 closeThenPoll twoRounds s s' hs hs' (by decide +kernel) 0 hnext
    (by rw [hstate]; decide) (by rw [if_pos hpc]; decide)
  exact ⟨s, s', hs, hs', hgoes.1, hgoes.2.mpr (Or.inl (of_decide_eq_true hheld))⟩

end Server

end NetImitate
