import NetImitate.Tcpserver.Polling
import NetImitate.Tcpserver.Wakeup

/-!
# The loop over `channelList` is the dispatch of the server

* `Server.fill` : a server with what is left of the list in its place;
* `Server.step_fill`, `handleEvent_fill` : steps do the same whatever is left to be handled;
* `whole_step` : every step is a step of the server; `rest_step` : what it does to the channels left;
* `dispatch_refines` : so over runs, with what is left being what was reported and not handled.
-/

namespace NetImitate

/-- The place with `rest` left to be handled. -/
def Place.fill (rest : List (Chan × Events)) : Place → Place
  | .dispatch _ => .dispatch rest
  | .drain tasks => .drain tasks

def ServerPc.fill (rest : List (Chan × Events)) : ServerPc → ServerPc
  | .wait => .wait
  | .between p => .between (p.fill rest)
  | .user k p => .user k (p.fill rest)
  | .fault => .fault

/-- At `epoll_wait` or in `DoPendingFunc`, so that nothing is left to be handled. -/
def ServerPc.handled : ServerPc → Bool
  | .wait => true
  | .between p | .user _ p => !p.dispatching
  | .fault => false

namespace Server
variable {s s' : Server} {e : ServerEv}

def fill (rest : List (Chan × Events)) (s : Server) : Server := { s with pc := s.pc.fill rest }

/-! ## Steps that do not dispatch -/

theorem arg_fill (rest : List (Chan × Events)) (pc : ServerPc) : (pc.fill rest).arg = pc.arg := by
  rcases pc with _ | _ | ⟨_ | _ | _, _⟩ | _ <;> rfl

theorem holds_fill (rest : List (Chan × Events)) (s : Server) (c : ConnId) : (s.fill rest).Holds c ↔ s.Holds c := by
  have harg : (s.fill rest).pc.arg = s.pc.arg := arg_fill rest s.pc
  unfold Holds
  rw [harg]
  rfl

theorem referenced_fill (rest : List (Chan × Events)) (s : Server) (c : ConnId) :
    (s.fill rest).referenced c = s.referenced c := by
  have harg : (s.fill rest).pc.arg = s.pc.arg := arg_fill rest s.pc
  unfold referenced
  rw [harg]
  rfl

theorem destroy_fill (rest : List (Chan × Events)) (s : Server) (c : ConnId) :
    (s.fill rest).destroy c = (s.destroy c).fill rest := by
  have hconns : (s.fill rest).conns c = s.conns c := rfl
  unfold destroy
  rw [hconns]
  cases s.conns c <;> rfl

theorem sweep_fill (rest : List (Chan × Events)) (s : Server) : (s.fill rest).sweep = s.sweep.fill rest := by
  have hfold : ∀ (cs : List ConnId) (t : Server), cs.foldl destroy (t.fill rest) = (cs.foldl destroy t).fill rest := by
    intro cs
    induction cs with
    | nil => exact fun t => rfl
    | cons c cs ih =>
      intro t
      rw [List.foldl_cons, List.foldl_cons, destroy_fill]
      exact ih (t.destroy c)
  unfold sweep
  rw [show (fun c => !(s.fill rest).referenced c) = fun c => !s.referenced c by funext c; rw [referenced_fill]]
  exact hfold _ s

theorem connectDestroyed_fill (rest : List (Chan × Events)) (s : Server) (c : ConnId) (conn : Tcpconn Chan) :
    (s.fill rest).connectDestroyed c conn = (s.connectDestroyed c conn).fill rest := by
  unfold connectDestroyed
  split <;> rfl

theorem handleCloseRest_fill (rest : List (Chan × Events)) (s : Server) (c : ConnId) (conn : Tcpconn Chan)
    (p : Place) : (s.fill rest).handleCloseRest c conn (p.fill rest) = (s.handleCloseRest c conn p).fill rest := by
  have hcb : (s.fill rest).tcpCloseCallBack = s.tcpCloseCallBack := rfl
  unfold handleCloseRest
  simp only [hcb]
  cases s.tcpCloseCallBack <;> rfl

theorem ret_fill (rest : List (Chan × Events)) (s : Server) (k : Cont) (p : Place) :
    (s.fill rest).ret k (p.fill rest) = (s.ret k p).fill rest := by
  cases k with
  | back arg => exact sweep_fill rest { s with pc := .between p }
  | connectEstablished c =>
    have hconns : (s.fill rest).conns c = s.conns c := rfl
    simp only [ret, hconns]
    cases s.conns c <;> rfl
  | handleClose c =>
    have hconns : (s.fill rest).conns c = s.conns c := rfl
    simp only [ret, hconns]
    cases s.conns c with
    | none => rfl
    | some conn => exact handleCloseRest_fill rest s c conn p

theorem userCall_fill (rest : List (Chan × Events)) (s : Server) (c : ConnId) {f g : Tcpconn Chan → Option Server}
    (hf : ∀ conn, g conn = (f conn).map (fill rest)) :
    (s.fill rest).userCall c g = (s.userCall c f).map (fill rest) := by
  have hpc : (s.fill rest).pc = s.pc.fill rest := rfl
  have hconns : (s.fill rest).conns c = s.conns c := rfl
  unfold userCall
  rw [hpc, hconns]
  cases s.pc with
  | wait | between p | fault => rfl
  | user k p =>
    cases s.conns c with
    | none => rfl
    | some conn => exact hf conn

/-- A place that is not in the loop over `channelList`. -/
theorem fill_eq_self (rest : List (Chan × Events)) (h : s.pc.fill rest = s.pc) : s.fill rest = s := by
  rw [fill, h]

theorem pc_sweep (s : Server) : s.sweep.pc = s.pc := by
  obtain ⟨conns, openFds, epfd, h⟩ := s.sweep_eq
  rw [h]

theorem runTask_fill (rest : List (Chan × Events)) (s : Server) (t : ServerTask) (tasks : List ServerTask) :
    (s.runTask t tasks).fill rest = s.runTask t tasks := by
  cases t with
  | functor | removeTcpConn c => exact fill_eq_self rest rfl
  | handleClose c =>
    simp only [runTask]
    cases s.conns c <;> exact fill_eq_self rest rfl

theorem endPendingFunc_fill (rest : List (Chan × Events)) (s : Server) :
    s.endPendingFunc.fill rest = s.endPendingFunc := fill_eq_self rest (by rw [endPendingFunc, pc_sweep]; rfl)

/-- What a step that does not dispatch does is the same whatever is left to be handled. -/
theorem step_fill (rest : List (Chan × Events)) (s : Server) (he : e.dispatches = false) :
    machine.step (s.fill rest) e = (machine.step s e).map (fill rest) := by
  have hpc : (s.fill rest).pc = s.pc.fill rest := rfl
  cases e with
  | poll reported | handle io | doPendingFunc => cases he
  | runTask =>
    rcases htasks : s.pc with _ | ⟨_ | _ | ⟨t, tasks⟩⟩ | _ | _ <;>
      simp only [machine, step, hpc, htasks, ServerPc.fill, Place.fill, Option.map_none, Option.map_some]
    rw [fill_eq_self rest (by rw [htasks]; rfl), runTask_fill]
  | endPendingFunc =>
    rcases htasks : s.pc with _ | ⟨_ | _ | ⟨t, tasks⟩⟩ | _ | _ <;>
      simp only [machine, step, hpc, htasks, ServerPc.fill, Place.fill, Option.map_none, Option.map_some]
    rw [fill_eq_self rest (by rw [htasks]; rfl), endPendingFunc_fill]
  | connectDestroyed c =>
    exact userCall_fill rest s c fun conn => congrArg some (connectDestroyed_fill rest s c conn)
  | send c str ret =>
    simp only [machine, step, holds_fill]
    split
    · exact userCall_fill rest s c fun conn => by simp only [Server.send, Option.map_map]; rfl
    · rfl
  | shutdown c =>
    simp only [machine, step, holds_fill]
    split
    · exact userCall_fill rest s c fun conn => rfl
    · rfl
  | queInLoop =>
    simp only [machine, step, hpc]
    cases s.pc <;> rfl
  | drop c =>
    simp only [machine, step, hpc]
    cases s.pc with
    | user k p => exact congrArg some (sweep_fill rest { s with held := s.held.erase c, pc := .user k p })
    | _ => rfl
  | ret =>
    simp only [machine, step, hpc]
    cases s.pc with
    | user k p => exact congrArg some (ret_fill rest s k p)
    | _ => rfl

/-- Only the loop over `channelList` comes to its end. -/
theorem handled_step (he : e.dispatches = false) (h : machine.step s e = some s') (hs' : s'.pc.handled = true) :
    s.pc.handled = true := by
  cases step_cases h with
  | poll | wakeup | timerfd | acceptFailed | accept | handleFault | closeEvent | read | write | noCallBack
  | doPendingFunc => cases he
  | functorTask hpc | removeTask hpc | closeTask hpc | closeFault hpc | endPendingFunc hpc =>
    rw [hpc]
    rfl
  | connectDestroyed hcall => rwa [pc_connectDestroyed] at hs'
  | send hcall hholds hsend =>
    obtain ⟨w, -, rfl⟩ := Option.map_eq_some_iff.mp hsend
    exact hs'
  | shutdown hcall hholds | queInLoop hpc => exact hs'
  | drop hpc => rwa [pc_sweep] at hs'
  | back hpc =>
    rw [pc_sweep] at hs'
    rw [hpc]
    exact hs'
  | established hcall =>
    rw [hcall.pc]
    exact hs'
  | closed hcall =>
    rw [hcall.pc]
    unfold handleCloseRest at hs'
    split at hs' <;> exact hs'
  | retFault => cases hs'

/-- Behind a handler the loop over `channelList` goes on. -/
theorem handled_handle {io : Io} (h : machine.step s (.handle io) = some s') : s'.pc.handled = false := by
  cases step_cases h with
  | wakeup | timerfd | acceptFailed | handleFault | closeEvent | noCallBack => rfl
  | accept hpc hio haccept =>
    obtain ⟨-, heq⟩ := Option.ite_none_left_eq_some.mp haccept
    cases heq
    rfl
  | read hh hev hread =>
    obtain ⟨r, -, rfl⟩ := Option.map_eq_some_iff.mp hread
    split
    · rfl
    · split <;> rfl
  | write hh hev hwrite =>
    obtain ⟨w, -, rfl⟩ := Option.map_eq_some_iff.mp hwrite
    rfl

theorem handled_fill (rest : List (Chan × Events)) (pc : ServerPc) : (pc.fill rest).handled = pc.handled := by
  rcases pc with _ | (_ | _) | ⟨_, _ | _⟩ | _ <;> rfl

/-! ## `HandleEvent` -/

theorem handleRead_fill (rest : List (Chan × Events)) (s : Server) (pc : ServerPc) (c : ConnId) (conn : Tcpconn Chan)
    (read : Option (List UInt8)) (p : Place) :
    handleRead { s with pc := pc } c conn read (p.fill rest) = (s.handleRead c conn read p).map (fill rest) := by
  simp only [handleRead, Option.map_map]
  congr 1
  funext r
  simp only [Function.comp_apply]
  split
  · rfl
  · split
    · unfold connectDestroyed
      split <;> rfl
    · rfl

/-- `HandleEvent` does the same whatever is left to be handled, and wherever the loop has been. -/
theorem handleEvent_fill (rest : List (Chan × Events)) (s : Server) (pc : ServerPc) (ch : Chan) (revent : Events)
    (io : Io) (p : Place) :
    handleEvent { s with pc := pc } ch revent io (p.fill rest) = (s.handleEvent ch revent io p).map (fill rest) := by
  cases ch with
  | wakeup | timerfd => rfl
  | acceptor =>
    simp only [handleEvent]
    cases io.accepted with
    | none => rfl
    | some a =>
      simp only [tcpserverConnection]
      split <;> rfl
  | conn c =>
    simp only [handleEvent]
    cases s.conns c with
    | none => rfl
    | some conn =>
      cases Channel.handleEvent revent with
      | none => rfl
      | some cb =>
        cases cb with
        | cbShutdown => rfl
        | cbRead => exact handleRead_fill rest s pc c conn io.read p
        | cbWrite =>
          simp only [handleWrite, Option.map_map]
          rfl

end Server

namespace Polled
variable {s s' : Polled} {e : PolledEv}

/-- The server of `Run`. -/
def whole (s : Polled) : Server := s.server.fill s.rest

/-! ## One step -/

/-- A return of `epoll_wait` that is no interruption reports channels, each once. -/
theorem Returns.reported {w : EpollWait Chan} (hw : s.Returns w) (hsignal : w ≠ .interrupted) :
    w.ret = w.events.length ∧ s.server.Reported w.reports := by
  cases w with
  | interrupted => exact absurd rfl hsignal
  | reported events =>
    refine ⟨rfl, hw.2.resolve_left fun hret => ?_⟩
    have hlen : (events.length : Int) = -1 := hret
    omega

/-- **Each step is one of the server's**: the channel whose turn has come has the events it was reported with. -/
theorem whole_step (hpos : 0 < s.server.poll.channelMap.entries.length) (he : e ≠ .polling .interrupted)
    (h : machine.step s e = some s') : Server.machine.step s.whole e.server = some s'.whole := by
  cases step_cases h with
  | @polling w hpc hw =>
    obtain ⟨hret, hrep⟩ := hw.reported fun heq => he (heq ▸ rfl)
    have hwhole : s.whole = s.server := Server.fill_eq_self s.rest (by rw [hpc]; rfl)
    have hnext : (s.polling w).whole = { s.server with pc := .between (.dispatch w.reports) } := by
      rw [whole, rest_polling s hret hpos hrep.2.1, polling_reported s hret hpos]
      rfl
    rw [hwhole, hnext]
    simp only [Server.machine, Server.step, PolledEv.server, hpc, if_pos hrep]
  | @handle io ch l server hpc hch hserver =>
    have hpc' : s.whole.pc = .between (.dispatch s.rest) := by rw [whole, Server.fill, hpc]; rfl
    rw [rest_eq_cons hch server] at hpc'
    simp only [Server.machine, Server.step, PolledEv.server, hpc']
    exact (Server.handleEvent_fill _ s.server _ ch (s.revent ch) io (.dispatch [])).trans
      (Option.map_eq_some_iff.mpr ⟨server, hserver, rfl⟩)
  | @doPendingFunc server hend hserver =>
    cases Server.step_cases hserver with
    | doPendingFunc hpc =>
      have hwhole : s.whole = s.server :=
        Server.fill_eq_self s.rest (by rw [hpc, rest_eq_nil hend]; rfl)
      have hnext : whole { s with server := s.server.doPendingFunc } = s.server.doPendingFunc :=
        Server.fill_eq_self _ rfl
      rw [hwhole, hnext]
      exact hserver
  | @other e server hquiet hserver =>
    exact (Server.step_fill s.rest s.server hquiet).trans (Option.map_eq_some_iff.mpr ⟨server, hserver, rfl⟩)

/-- Where the loop over the list is over, nothing is left of it. -/
def Finished (s : Polled) : Prop := s.server.pc.handled = true → s.rest = []

theorem Finished.step (hs : s.Finished) (hpos : 0 < s.server.poll.channelMap.entries.length)
    (he : e ≠ .polling .interrupted) (h : machine.step s e = some s') : s'.Finished := by
  have hwhole := whole_step hpos he h
  cases step_cases h with
  | @polling w hpc hw =>
    intro hhandled
    rw [polling_reported s (hw.reported fun heq => he (heq ▸ rfl)).1 hpos] at hhandled
    cases hhandled
  | @handle io ch l server hpc hch hserver =>
    intro hhandled
    have hnot : (server.pc.fill _).handled = false := Server.handled_handle hwhole
    rw [Server.handled_fill] at hnot
    cases hnot.symm.trans hhandled
  | doPendingFunc hend hserver => exact fun _ => rest_eq_nil hend
  | other hquiet hserver => exact fun hhandled => hs (Server.handled_step hquiet hserver hhandled)

/-- A step handles what comes first of what is left, and what it reports is all that is left then. -/
theorem rest_step (hs : s.Finished) (hpos : 0 < s.server.poll.channelMap.entries.length)
    (he : e ≠ .polling .interrupted) (h : machine.step s e = some s') :
    s.handles e ++ s'.rest = s.rest ++ reports e := by
  cases step_cases h with
  | @polling w hpc hw =>
    obtain ⟨hret, hrep⟩ := hw.reported fun heq => he (heq ▸ rfl)
    rw [hs (by rw [hpc]; rfl), rest_polling s hret hpos hrep.2.1]
    rfl
  | @handle io ch l server hpc hch hserver =>
    rw [handles, hch, rest_eq_cons hch server]
    exact (List.append_nil _).symm
  | doPendingFunc hend hserver => exact (List.append_nil _).symm
  | @other e server hquiet hserver =>
    have hhandles : s.handles (.other e) = [] := by
      cases e with
      | handle io => cases hquiet
      | _ => rfl
    rw [hhandles]
    exact (List.append_nil _).symm

/-! ## Runs -/

/-- Where the run has come to, the channels that were reported are those handled and those left. -/
structure At (s0 : Polled) (es : List PolledEv) (s : Polled) : Prop where
  run : Server.machine.run s0.whole (es.map PolledEv.server) = some s.whole
  finished : s.Finished
  kept : machine.outputs handles s0 es ++ s.rest = machine.outputs (fun _ => reports) s0 es

/-- Some channel is registered: those of the loop and the acceptor always are. -/
theorem registered_run {base : BaseFds} {tid : Tid} {cb : CloseCallBack} {es : List ServerEv}
    (h : Server.machine.run (Server.new base tid cb) es = some s.whole) :
    0 < s.server.poll.channelMap.entries.length := by
  have hmem : base.wakeupFd ∈ s.server.poll.channelMap :=
    (Server.watched_run h).mapped base.wakeupFd (Finset.mem_insert_self _ _)
  obtain ⟨ch, hch⟩ := Option.isSome_iff_exists.mp (AList.lookup_isSome.mpr hmem)
  exact List.length_pos_of_mem (AList.mem_lookup_iff.mp hch)

theorem at_run (base : BaseFds) (tid : Tid) (cb : CloseCallBack) :
    ∀ (es : List PolledEv) (s : Polled), machine.run (new base tid cb) es = some s →
      .polling .interrupted ∉ es → At (new base tid cb) es s := by
  apply machine.run_induction (P := fun es s => .polling .interrupted ∉ es → At (new base tid cb) es s)
  · exact fun _ => ⟨rfl, fun _ => rfl, rfl⟩
  · intro es e s1 s2 hrun ih hstep hsignal
    rw [List.mem_append, not_or, List.mem_singleton] at hsignal
    obtain ⟨hserver, hfinished, hkept⟩ := ih hsignal.1
    have hpos := registered_run hserver
    have he : e ≠ .polling .interrupted := fun heq => hsignal.2 heq.symm
    refine ⟨?_, hfinished.step hpos he hstep, ?_⟩
    · rw [List.map_append, Server.machine.run_append, hserver, Option.bind_some, List.map_singleton,
        Server.machine.run_singleton]
      exact whole_step hpos he hstep
    · rw [machine.outputs_snoc handles hrun, machine.outputs_snoc (fun _ => reports) hrun, List.append_assoc,
        rest_step hfinished hpos he hstep, ← List.append_assoc, hkept]

/-- **The loop over `channelList` is the dispatch of the server.** As long as no signal interrupts `epoll_wait`, a run
with `eventArray`, `channelList` and the channels' `revent` fields is a run of the server of `Run`, event for event;
every `HandleEvent` finds in its channel the events that `epoll_wait` has just reported for it, and what was handled
and what is left of the list is what was reported, in order. A signal ends it: `FillEventArray` then reads a cell that
nobody wrote. -/
theorem dispatch_refines (base : BaseFds) (tid : Tid) (cb : CloseCallBack) (es : List PolledEv) (s : Polled)
    (h : machine.run (new base tid cb) es = some s) (hsignal : .polling .interrupted ∉ es) :
    Server.machine.run (Server.new base tid cb) (es.map PolledEv.server) = some s.whole ∧
      machine.outputs handles (new base tid cb) es ++ s.rest =
        machine.outputs (fun _ => reports) (new base tid cb) es ∧
      ∀ s', machine.step s (.polling .interrupted) = some s' → s'.server.pc = .fault := by
  obtain ⟨hserver, -, hkept⟩ := at_run base tid cb es s h hsignal
  refine ⟨hserver, hkept, fun s' hstep => ?_⟩
  cases step_cases hstep
  exact polling_interrupted s (registered_run hserver)

/-- A connection is accepted; then it and the timer are reported together, and its message callback has run. -/
def twoReported : List PolledEv :=
  [.polling (.reported [⟨.acceptor, readEvent⟩]), .other (.handle ⟨some (7, "peer", 0), none, 0⟩), .other .ret,
    .other .doPendingFunc, .other .endPendingFunc,
    .polling (.reported [⟨.conn 0, readEvent⟩, ⟨.timerfd, readEvent⟩]), .other (.handle ⟨none, some [97], 0⟩),
    .other .ret]

theorem dispatch_refines_twoReported :
    ∃ s, machine.run (new Server.smallBase 1 .removeTcpConnInloop) twoReported = some s ∧
      s.rest = [(.timerfd, readEvent)] ∧
      Server.machine.run (Server.new Server.smallBase 1 .removeTcpConnInloop) (twoReported.map PolledEv.server) =
        some s.whole := by
  have hrun : (machine.run (new Server.smallBase 1 .removeTcpConnInloop) twoReported).map rest =
      some [(.timerfd, readEvent)] := by decide +kernel
  obtain ⟨s, hs, hrest⟩ := Option.map_eq_some_iff.mp hrun
  obtain ⟨hserver, -, -⟩ :=
    dispatch_refines Server.smallBase 1 .removeTcpConnInloop twoReported s hs (by simp [twoReported])
  exact ⟨s, hs, hrest, hserver⟩

end Polled

end NetImitate
