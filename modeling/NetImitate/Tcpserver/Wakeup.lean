import NetImitate.Tcpserver.Tasks

/-!
# A server with a task pending does not sleep

The loop's own channels and the acceptor's are registered for reading once and for all: connections come and go on
other descriptors. With `Awake` of the loop, `epoll_wait` then returns while a task is pending.

* `Poll.Keeps`, `Tcpconn.Off` : a poller that keeps what it has for some descriptors, a connection on none of them;
* `Watched`, `Watched.step` : the three channels are registered, whatever the connections do;
* `always_listening` : so in every run;
* `server_wakes` : with a task pending, the wakeup channel alone brings the loop to run it.
-/

namespace NetImitate

/-- The channels that are no connection's. -/
def BaseFds.fdOf (base : BaseFds) (ch : Chan) : Option Nat := NetImitate.fdOf base (fun _ => none) ch

/-- What `q` has for these descriptors is what `p` has. -/
structure Poll.Keeps (fds : Finset Nat) (p q : Poll Chan) : Prop where
  epfd : ∀ fd ∈ fds, q.epfd.lookup fd = p.epfd.lookup fd
  channelMap : ∀ fd ∈ fds, fd ∈ p.channelMap → fd ∈ q.channelMap

theorem Poll.Keeps.refl (fds : Finset Nat) (p : Poll Chan) : Poll.Keeps fds p p := ⟨fun _ _ => rfl, fun _ _ h => h⟩

theorem Poll.index_mem_registEvennt (p : Poll Chan) (ch : Channel Chan) :
    ch.index ∈ (p.registEvennt ch).channelMap := by
  rw [← AList.lookup_isSome, Poll.channelMap_registEvennt, if_pos rfl]
  rfl

theorem Poll.mem_registEvennt {p : Poll Chan} {fd : Nat} (h : fd ∈ p.channelMap) (ch : Channel Chan) :
    fd ∈ (p.registEvennt ch).channelMap := by
  unfold registEvennt
  split
  · exact (AList.mem_insert _).mpr (Or.inr h)
  · exact h

namespace Tcpconn
variable {conn : Tcpconn Chan} {fds : Finset Nat}

/-- Channel and socket of the connection are on none of these descriptors. -/
structure Off (conn : Tcpconn Chan) (fds : Finset Nat) : Prop where
  index : conn.socketChannel.index ∉ fds
  socketFd : conn.socketChannel.socketFd ∉ fds
  connectSocket : conn.connectSocket.socketfd ∉ fds

/-- The poller is told of a connection's channel. -/
theorem Off.registEvennt (hoff : conn.Off fds) (p : Poll Chan) (event : Events) :
    Poll.Keeps fds p (p.registEvennt { conn.socketChannel with event := event }) := by
  refine ⟨fun fd hfd => ?_, fun fd _ hmem => Poll.mem_registEvennt hmem _⟩
  apply Poll.epfd_registEvennt_of_ne
  intro heq
  exact hoff.socketFd (heq ▸ hfd)

theorem Off.sendInLoop {p : Poll Chan} {str : List UInt8} {ret : Int} {w : Wrote Chan}
    (hoff : conn.Off fds) (h : conn.sendInLoop p str ret = some w) : w.conn.Off fds ∧ Poll.Keeps fds p w.poll := by
  rcases sendInLoop_cases h with ⟨-, -, -, restStr, hconn, hpoll⟩ | ⟨-, -, -, -, rfl⟩ | ⟨-, rfl⟩
  · rw [hconn, hpoll]
    exact ⟨⟨hoff.index, hoff.socketFd, hoff.connectSocket⟩, hoff.registEvennt p _⟩
  · exact ⟨hoff, .refl fds p⟩
  · exact ⟨⟨hoff.index, hoff.socketFd, hoff.connectSocket⟩, .refl fds p⟩

end Tcpconn

namespace Server
variable {base : BaseFds} {s s' t : Server} {c : ConnId} {conn conn' : Tcpconn Chan}

/-- The channels of the loop and the acceptor are registered for reading, and connections are on other descriptors. -/
structure Watched (base : BaseFds) (s : Server) : Prop where
  base_open : base.fds ⊆ s.openFds
  off : ∀ c conn, s.conns c = some conn → conn.Off base.fds
  watched : ∀ ch fd, base.fdOf ch = some fd → s.poll.epfd.lookup fd = some ⟨ch, readEvent ||| closeEvent⟩
  mapped : ∀ fd ∈ base.fds, fd ∈ s.poll.channelMap

theorem mem_fds {ch : Chan} {fd : Nat} (h : base.fdOf ch = some fd) : fd ∈ base.fds := by
  cases ch <;> simp only [BaseFds.fdOf, fdOf, Option.map_none, Option.some.injEq, reduceCtorEq] at h <;>
    simp [BaseFds.fds, h]

theorem watched_new (base : BaseFds) (tid : Tid) (cb : CloseCallBack) : (new base tid cb).Watched base := by
  have hmapped : ∀ fd ∈ base.fds, fd ∈ (startPoll base).channelMap := by
    intro fd hfd
    have hin : ∀ (ch : Chan) (fd : Nat) (p : Poll Chan), fd ∈ ((Channel.new ch fd 0).enableReading p).2.channelMap :=
      fun ch fd p => Poll.index_mem_registEvennt p _
    simp only [BaseFds.fds, Finset.mem_insert, Finset.mem_singleton] at hfd
    rcases hfd with rfl | rfl | rfl
    · exact Poll.mem_registEvennt (Poll.mem_registEvennt (hin _ _ _) _) _
    · exact Poll.mem_registEvennt (hin _ _ _) _
    · exact hin _ _ _
  refine ⟨Finset.Subset.refl _, (fun c conn hconn => by cases hconn), fun ch fd hfd => ?_, hmapped⟩
  have hdistinct := base.distinct
  simp only [List.nodup_cons, List.mem_cons, List.not_mem_nil, or_false, not_or] at hdistinct
  obtain ⟨⟨hwt, hwa⟩, hta, -⟩ := hdistinct
  have hempty : (Poll.empty : Poll Chan).Wired (fdOf base fun _ => none) :=
    ⟨Poll.inStep_empty, (fun _ _ h => by cases h), fdOf_base_injective base⟩
  have hwakeup := hempty.enableReading .wakeup base.wakeupFd 0 rfl
  have htimerfd := hwakeup.enableReading .timerfd base.timerfd 0 rfl
  -- each of the three is registered on an empty entry, and kept by the ones after it
  cases ch with
  | conn c => cases hfd
  | wakeup =>
    cases hfd
    exact (Poll.epfd_registEvennt_of_ne _ hwa).trans ((Poll.epfd_registEvennt_of_ne _ hwt).trans
      ((Poll.epfd_registEvennt hempty.inStep rfl _).trans (if_pos rfl)))
  | timerfd =>
    cases hfd
    exact (Poll.epfd_registEvennt_of_ne _ hta).trans
      ((Poll.epfd_registEvennt hwakeup.inStep rfl _).trans (if_pos rfl))
  | acceptor =>
    cases hfd
    exact (Poll.epfd_registEvennt htimerfd.inStep rfl _).trans (if_pos rfl)

/-! ## What the steps do to it -/

/-- A connection is written, its descriptors not of the base, and the poller keeps the entries of the base. -/
theorem Watched.setConn (conn' : Tcpconn Chan) (hs : s.Watched base)
    (hconns : t.conns = Function.update s.conns c (some conn')) (hoff : conn'.Off base.fds)
    (hopen : s.openFds ⊆ t.openFds) (hpoll : Poll.Keeps base.fds s.poll t.poll) : t.Watched base := by
  refine ⟨?_, fun c' conn'' hconn'' => ?_, fun ch fd hfd => ?_, fun fd hfd => ?_⟩
  · exact hs.base_open.trans hopen
  · rw [hconns] at hconn''
    by_cases heq : c' = c
    · rw [heq, Function.update_self, Option.some.injEq] at hconn''
      exact hconn'' ▸ hoff
    · rw [Function.update_of_ne heq] at hconn''
      exact hs.off c' conn'' hconn''
  · exact (hpoll.epfd fd (mem_fds hfd)).trans (hs.watched ch fd hfd)
  · exact hpoll.channelMap fd hfd (hs.mapped fd hfd)

theorem Watched.destroy (hs : s.Watched base) (c : ConnId) : (s.destroy c).Watched base := by
  unfold Server.destroy
  split
  · exact hs
  · rename_i conn hconn
    have hoff := (hs.off c conn hconn).connectSocket
    refine ⟨fun fd hfd => ?_, fun c' conn' hconn' => ?_, fun ch fd hfd => ?_, hs.mapped⟩
    · exact Finset.mem_erase.mpr ⟨fun heq => hoff (heq ▸ hfd), hs.base_open hfd⟩
    · have hupdate : Function.update s.conns c none c' = some conn' := hconn'
      by_cases heq : c' = c
      · rw [heq, Function.update_self] at hupdate
        cases hupdate
      · rw [Function.update_of_ne heq] at hupdate
        exact hs.off c' conn' hupdate
    · have hne : fd ≠ conn.connectSocket.socketfd := fun heq => hoff (heq ▸ mem_fds hfd)
      exact (AList.lookup_erase_ne hne).trans (hs.watched ch fd hfd)

theorem Watched.sweep (hs : s.Watched base) : s.sweep.Watched base := sweep_induction hs fun _ c ht _ => ht.destroy c

theorem Watched.unregister (hs : s.Watched base) (hconn : s.conns c = some conn) :
    (s.unregister c conn).Watched base := by
  have hoff := hs.off c conn hconn
  have hkept : Tcpconn.Off { conn with socketChannel := (conn.socketChannel.disableAll s.poll).1 } base.fds :=
    ⟨hoff.index, hoff.socketFd, hoff.connectSocket⟩
  have hkeeps := hoff.registEvennt s.poll noneEvent
  apply hs.setConn (t := s.unregister c conn) _ rfl hkept (Finset.Subset.refl _)
  refine ⟨fun fd hfd => ?_, fun fd hfd hmem => ?_⟩
  · have hne : fd ≠ conn.socketChannel.socketFd := fun heq => hoff.socketFd (heq ▸ hfd)
    exact (AList.lookup_erase_ne hne).trans (hkeeps.epfd fd hfd)
  · have hne : fd ≠ conn.socketChannel.index := fun heq => hoff.index (heq ▸ hfd)
    exact AList.mem_erase.mpr ⟨hne, hkeeps.channelMap fd hfd hmem⟩

/-- A step that leaves the connections, the descriptors and the poller alone. -/
theorem Watched.same (hs : s.Watched base) (hconns : t.conns = s.conns)
    (hopen : t.openFds = s.openFds) (hpoll : t.poll = s.poll) : t.Watched base := by
  obtain ⟨hfds, hoff, hwatched, hmapped⟩ := hs
  rw [← hopen] at hfds
  rw [← hconns] at hoff
  rw [← hpoll] at hwatched hmapped
  exact ⟨hfds, hoff, hwatched, hmapped⟩

/-- A connection of the same descriptors is written, and nothing said to the poller. -/
theorem Watched.write (conn' : Tcpconn Chan) (hs : s.Watched base)
    (hconns : t.conns = Function.update s.conns c (some conn')) (hoff : conn'.Off base.fds)
    (hopen : t.openFds = s.openFds) (hpoll : t.poll = s.poll) : t.Watched base :=
  hs.setConn conn' hconns hoff (hopen ▸ Finset.Subset.refl _) (hpoll ▸ .refl base.fds s.poll)

theorem Watched.handleRead {revent : Events} {rest : List (Chan × Events)} {read : Option (List UInt8)} {p : Place}
    (hs : s.Watched base) (hh : s.Handles c revent rest conn) (hread : s.handleRead c conn read p = some s') :
    s'.Watched base := by
  obtain ⟨r, -, rfl⟩ := Option.map_eq_some_iff.mp hread
  have hoff := hs.off c conn hh.conn
  have hread : (s.setConn c { conn with inBuffer := r.2 }).Watched base :=
    hs.write (c := c) { conn with inBuffer := r.2 } rfl ⟨hoff.index, hoff.socketFd, hoff.connectSocket⟩ rfl rfl
  by_cases hfail : r.1 = -1
  · simp only [if_pos hfail]
    exact hread.write (c := c) { conn with inBuffer := r.2, state := .kClosed } rfl
      ⟨hoff.index, hoff.socketFd, hoff.connectSocket⟩ rfl rfl
  · simp only [if_neg hfail]
    by_cases heof : r.1 = 0
    · simp only [if_pos heof]
      obtain ⟨loop, hloop, -⟩ := connectDestroyed_eq (s.setConn c { conn with inBuffer := r.2 }) c
        { conn with inBuffer := r.2 }
      rw [hloop]
      exact hread.same rfl rfl rfl
    · simp only [if_neg heof]
      exact hread.same rfl rfl rfl

theorem Watched.step {e : ServerEv} (hs : s.Watched base) (h : machine.step s e = some s') : s'.Watched base := by
  have hstate : ∀ {conn : Tcpconn Chan}, conn.Off base.fds →
      Tcpconn.Off { conn with state := .kClosed } base.fds :=
    fun hoff => ⟨hoff.index, hoff.socketFd, hoff.connectSocket⟩
  cases step_cases h with
  | poll | wakeup | timerfd | acceptFailed | handleFault | noCallBack | doPendingFunc | functorTask | removeTask
  | closeFault | queInLoop | retFault => exact hs.same rfl rfl rfl
  | @accept revent rest io fd address event s' hpc hio haccept =>
    obtain ⟨hfd, heq⟩ := Option.ite_none_left_eq_some.mp haccept
    cases heq
    have hnot : fd ∉ base.fds := fun hmem => hfd (hs.base_open hmem)
    exact hs.setConn (c := s.next) (Tcpconn.new (.conn s.next) fd address event) rfl ⟨hnot, hnot, hnot⟩
      (Finset.subset_insert fd s.openFds) (.refl base.fds s.poll)
  | @closeEvent c revent rest io conn hh hev =>
    exact hs.write (c := c) _ rfl (hstate (hs.off c conn hh.conn)) rfl rfl
  | read hh hev hread => exact hs.handleRead hh hread
  | @write c revent rest io conn s' hh hev hwrite =>
    obtain ⟨w, hw, rfl⟩ := Option.map_eq_some_iff.mp hwrite
    obtain ⟨hpoll, -, hsocket, event, hchannel⟩ := Tcpconn.handleWrite_frame hw
    have hoff := hs.off c conn hh.conn
    have hkept : w.conn.Off base.fds :=
      ⟨by rw [hchannel]; exact hoff.index, by rw [hchannel]; exact hoff.socketFd,
        by rw [hsocket]; exact hoff.connectSocket⟩
    exact hs.write (c := c) _ rfl hkept rfl hpoll
  | @closeTask c rest conn hpc hconn => exact hs.write (c := c) _ rfl (hstate (hs.off c conn hconn)) rfl rfl
  | endPendingFunc hpc =>
    have hidle : Watched base { s with
        loop := { s.loop with callingPendingFunc := false }, funcList := [], pc := .wait } := hs.same rfl rfl rfl
    exact hidle.sweep
  | @connectDestroyed c k p conn hcall =>
    obtain ⟨loop, hloop, -⟩ := s.connectDestroyed_eq c conn
    rw [hloop]
    exact hs.same rfl rfl rfl
  | @send c str ret k p conn s' hcall hholds hsend =>
    obtain ⟨w, hw, rfl⟩ := Option.map_eq_some_iff.mp hsend
    obtain ⟨hoff, hpoll⟩ := (hs.off c conn hcall.conn).sendInLoop hw
    exact hs.setConn (c := c) _ rfl hoff (Finset.Subset.refl _) hpoll
  | @shutdown c k p conn hcall hholds =>
    have hoff := hs.off c conn hcall.conn
    exact hs.write (c := c) conn.shutDownInloop rfl ⟨hoff.index, hoff.socketFd, hoff.connectSocket⟩ rfl rfl
  | @drop c k p hpc =>
    have hdropped : Watched base { s with held := s.held.erase c } := hs.same rfl rfl rfl
    exact hdropped.sweep
  | @back arg p hpc =>
    have hbetween : Watched base { s with pc := .between p } := hs.same rfl rfl rfl
    exact hbetween.sweep
  | @established c p conn hcall =>
    have hoff := hs.off c conn hcall.conn
    exact hs.setConn (c := c) (conn.connectEstablished s.poll).1 rfl
      ⟨hoff.index, hoff.socketFd, hoff.connectSocket⟩ (Finset.Subset.refl _) (hoff.registEvennt s.poll _)
  | @closed c p conn hcall =>
    have hleft := hs.unregister hcall.conn
    cases hcb : s.tcpCloseCallBack with
    | removeTcpConnInloop =>
      simp only [handleCloseRest, hcb]
      exact hleft.same rfl rfl rfl
    | user =>
      simp only [handleCloseRest, hcb]
      exact hleft.same rfl rfl rfl

theorem watched_run {tid : Tid} {cb : CloseCallBack} {es : List ServerEv}
    (h : machine.run (new base tid cb) es = some s) : s.Watched base :=
  machine.run_invariant (fun _ _ _ hs hstep => hs.step hstep) es _ s (watched_new base tid cb) h

/-! ## The main results -/

/-- **The server never goes deaf**: at every point of every run the wakeup channel, the timer channel and the acceptor's
are registered for reading under their own open descriptors, and no connection uses one of these. -/
theorem always_listening (base : BaseFds) (tid : Tid) (cb : CloseCallBack) (es : List ServerEv) (s : Server)
    (h : machine.run (new base tid cb) es = some s) (ch : Chan) (fd : Nat) (hfd : base.fdOf ch = some fd) :
    s.poll.epfd.lookup fd = some ⟨ch, readEvent ||| closeEvent⟩ ∧ fd ∈ s.openFds ∧
      ∀ c conn, s.conns c = some conn → conn.socketChannel.socketFd ≠ fd ∧ conn.connectSocket.socketfd ≠ fd := by
  have hs := watched_run h
  refine ⟨hs.watched ch fd hfd, hs.base_open (mem_fds hfd), fun c conn hconn => ?_⟩
  have hoff := hs.off c conn hconn
  exact ⟨fun heq => hoff.socketFd (heq ▸ mem_fds hfd), fun heq => hoff.connectSocket (heq ▸ mem_fds hfd)⟩

theorem always_listening_closeByPeer :
    ∃ s, machine.run (new smallBase 1 .removeTcpConnInloop) closeByPeer = some s ∧
      s.poll.epfd.lookup smallBase.acceptFd = some ⟨.acceptor, readEvent ||| closeEvent⟩ := by
  have hsome : (machine.run (new smallBase 1 .removeTcpConnInloop) closeByPeer).isSome := by decide +kernel
  obtain ⟨s, hs⟩ := Option.isSome_iff_exists.mp hsome
  exact ⟨s, hs, (always_listening smallBase 1 .removeTcpConnInloop closeByPeer s hs .acceptor _ rfl).1⟩

/-- With a task pending at `epoll_wait`, the wakeup counter is positive. -/
theorem awake_run {tid : Tid} {cb : CloseCallBack} {es : List ServerEv} (h : machine.run (new base tid cb) es = some s)
    (hwake : machine.Meets WakesUp (new base tid cb) es) (hpc : s.pc = .wait) (hdue : s.loop.pendingList ≠ []) :
    0 < s.loop.wakeupFd := by
  obtain ⟨t, ⟨fs, hfs, -, -⟩, hon⟩ := loop_run base tid cb es s h hwake
  have hawake : t.Awake :=
    Sys.machine.run_invariant (fun _ _ _ ht hstep => ht.step hstep) fs _ t (Sys.awake_new tid) hfs
  have hat := hawake.at_pc
  have ht := hon (by rw [hpc]; exact fun h => by cases h)
  rw [ht.pc, hpc] at hat
  have hpos := hat.1
  rw [Sys.Woken, ht.loop] at hpos
  exact hpos hdue

/-- **No task waits for other events**: with a task pending at `epoll_wait`, the wakeup channel is registered and its
counter positive, and the report of that channel alone brings the loop to run all that is pending. -/
theorem server_wakes (base : BaseFds) (tid : Tid) (cb : CloseCallBack) (es : List ServerEv) (s : Server)
    (h : machine.run (new base tid cb) es = some s) (hwake : machine.Meets WakesUp (new base tid cb) es)
    (hpc : s.pc = .wait) (hdue : s.loop.pendingList ≠ []) (io : Io) :
    ∃ s', machine.run s [.poll [(.wakeup, readEvent)], .handle io, .doPendingFunc] = some s' ∧
      machine.Meets WakesUp s [.poll [(.wakeup, readEvent)], .handle io, .doPendingFunc] ∧
      s'.pc = .between (.drain s.loop.pendingList) ∧ s'.loop.pendingList = [] ∧ s'.loop.wakeupFd = 0 := by
  have hpos := awake_run h hwake hpc hdue
  have hlookup := (watched_run h).watched .wakeup base.wakeupFd rfl
  have hmask : readEvent &&& ~~~(readEvent ||| closeEvent ||| unasked) = 0 := by decide
  have hrep : s.Reported [(.wakeup, readEvent)] := by
    refine ⟨List.cons_ne_nil _ _, List.nodup_singleton _, fun r hr => ?_⟩
    rw [List.mem_singleton.mp hr]
    exact ⟨by decide, ⟨_, AList.mem_lookup_iff.mp hlookup, rfl, hmask⟩, fun _ => rfl⟩
  have hpoll : machine.step s (.poll [(.wakeup, readEvent)]) =
      some { s with pc := .between (.dispatch [(.wakeup, readEvent)]) } := by
    simp only [machine, step, hpc, if_pos hrep]
  have hmeets : machine.Meets WakesUp s [.poll [(.wakeup, readEvent)], .handle io, .doPendingFunc] :=
    ⟨fun _ => hpos, fun _ _ => ⟨trivial, fun _ _ => ⟨trivial, fun _ _ => trivial⟩⟩⟩
  refine ⟨doPendingFunc { s with loop := s.loop.handleRead }, ?_, hmeets, rfl, rfl, rfl⟩
  rw [Machine.run_cons, hpoll]
  rfl

/-- The connection is closed in a functor, and the loop is back at `epoll_wait` with its removal pending. -/
def closeThenPoll : List ServerEv :=
  acceptSeven ++ [.poll [(.conn 0, readEvent)], .handle ⟨none, some [], 0⟩, .ret, .doPendingFunc, .runTask, .ret,
    .endPendingFunc]

theorem server_wakes_closeThenPoll :
    ∃ s s', machine.run (new smallBase 1 .removeTcpConnInloop) closeThenPoll = some s ∧
      machine.run s [.poll [(.wakeup, readEvent)], .handle ⟨none, none, 0⟩, .doPendingFunc] = some s' ∧
      s'.pc = .between (.drain [.removeTcpConn 0]) := by
  have hrun : (machine.run (new smallBase 1 .removeTcpConnInloop) closeThenPoll).map
      (fun s => (s.pc, s.loop.pendingList)) = some (.wait, [.removeTcpConn 0]) := by decide +kernel
  obtain ⟨s, hs, heq⟩ := Option.map_eq_some_iff.mp hrun
  rw [Prod.mk.injEq] at heq
  obtain ⟨s', hs', -, hpc, -⟩ := server_wakes smallBase 1 .removeTcpConnInloop closeThenPoll s hs (by decide +kernel)
    heq.1 (by rw [heq.2]; exact List.cons_ne_nil _ _) ⟨none, none, 0⟩
  exact ⟨s, s', hs, hs', heq.2 ▸ hpc⟩

end Server

end NetImitate
