import NetImitate.Tcpserver.Accounting
import NetImitate.Tcpserver.Loops

/-!
# A server without I/O threads is a server on one loop

Without `SetThreadNums` the server has the base thread alone, and `GetNextLoop` returns the base loop. `alone` puts a
server on one loop in the place of that thread.

* `alone_step` : every step of the base thread is a step of the server on one loop;
* `no_threads_refines` : so is every run, and no call ends the process.
-/

namespace NetImitate

/-- The descriptors of a server without I/O threads. -/
def BaseFds.loops (base : BaseFds) : LoopFds 0 := ⟨fun _ => base.wakeupFd, fun _ => base.timerfd, base.acceptFd⟩

def LoopsEv.server : LoopsEv 0 → ServerEv
  | .poll reported => .poll reported
  | .handle io => .handle io
  | .doPendingFunc => .doPendingFunc
  | .runTask => .runTask
  | .endPendingFunc => .endPendingFunc
  | .connectDestroyed c => .connectDestroyed c
  | .send c str n => .send c str n
  | .shutdown c => .shutdown c
  | .queInLoop _ => .queInLoop
  | .drop c => .drop c
  | .ret => .ret

/-- There is the base thread alone. -/
theorem only_thread (t me : Fin (0 + 1)) : t = me := Subsingleton.elim (α := Fin 1) t me

namespace Server
variable {s s' : Server} {me t : Fin (0 + 1)} {c : ConnId} {conn : Tcpconn Chan} {p : Place}

/-- The loop's thread as the only one of a server without I/O threads. -/
def alone (s : Server) : Loops 0 where
  tcpCloseCallBack := s.tcpCloseCallBack
  threadPoll := Threadpoll.new 0
  workers := fun _ => ⟨s.loop, s.poll, s.funcList, s.pc⟩
  conns := s.conns
  ioLoop := fun _ => 0
  next := s.next
  tcpconnList := s.tcpconnList
  held := s.held
  openFds := s.openFds
  exited := none

theorem alone_new (base : BaseFds) (cb : CloseCallBack) : Loops.new 0 base.loops cb = (new base 0 cb).alone := by
  have hfds : Loops.startFds base.loops = {base.wakeupFd, base.timerfd, base.acceptFd} := by
    ext fd
    simp only [Loops.startFds, BaseFds.loops, Finset.mem_insert, Finset.mem_union, Finset.mem_image, Finset.mem_univ,
      true_and, exists_const, Finset.mem_singleton]
    tauto
  have hworker : ∀ t : Fin (0 + 1), (⟨Eventloop.new t, Loops.startPoll base.loops t, [], .wait⟩ : Worker) =
      ⟨Eventloop.new 0, startPoll base, [], .wait⟩ := by
    intro t
    rw [only_thread t 0]
    rfl
  simp only [Loops.new, alone, new, hfds]
  congr 1
  funext t
  exact hworker t

/-! ## The parts of a step -/

theorem alone_setWorker (s : Server) (t : Fin (0 + 1)) (w : Worker) : s.alone.setWorker t w =
    alone { s with loop := w.loop, poll := w.poll, funcList := w.funcList, pc := w.pc } := by
  have hworkers : Function.update s.alone.workers t w = fun _ => w := by
    funext t'
    rw [only_thread t' t, Function.update_self]
  simp only [Loops.setWorker, hworkers]
  rfl

theorem alone_goTo (s : Server) (t : Fin (0 + 1)) (pc : ServerPc) : s.alone.goTo t pc = alone { s with pc := pc } :=
  alone_setWorker s t _

theorem alone_setPoll (s : Server) (t : Fin (0 + 1)) (poll : Poll Chan) :
    s.alone.setPoll t poll = alone { s with poll := poll } := alone_setWorker s t _

theorem alone_setConn (s : Server) (c : ConnId) (conn : Tcpconn Chan) :
    s.alone.setConn c conn = (s.setConn c conn).alone := rfl

theorem alone_queInLoop (htid : s.loop.tid = 0) (me t : Fin (0 + 1)) (u : ServerTask) :
    s.alone.queInLoop me t u = (s.queInLoop u).alone := by
  have hme : ((me : Nat) : Tid) = s.loop.tid := by
    rw [only_thread me 0, htid]
    rfl
  have hque := Eventloop.queInLoop_self s.loop u
  have hloop : (s.alone.workers t).loop.queInLoop me u = s.loop.queInLoop s.loop.tid u := by rw [← hme]; rfl
  unfold Loops.queInLoop Server.queInLoop
  rw [hloop, hque]
  exact alone_setWorker s t _

theorem alone_connectDestroyed (htid : s.loop.tid = 0) (me : Fin (0 + 1)) (c : ConnId) (conn : Tcpconn Chan) :
    s.alone.connectDestroyed me c conn = (s.connectDestroyed c conn).alone := by
  unfold Loops.connectDestroyed Server.connectDestroyed
  split
  · rfl
  · exact alone_queInLoop htid me _ _

theorem alone_handleClose (s : Server) (me : Fin (0 + 1)) (c : ConnId) (conn : Tcpconn Chan) (p : Place) :
    s.alone.handleClose me c conn p = (s.handleClose c conn p).alone := by
  unfold Loops.handleClose
  rw [alone_setConn, alone_goTo]
  rfl

theorem alone_handleCloseRest (htid : s.loop.tid = 0) (me : Fin (0 + 1)) (c : ConnId) (conn : Tcpconn Chan)
    (p : Place) : s.alone.handleCloseRest me c conn p = (s.handleCloseRest c conn p).alone := by
  have hleft : (s.alone.setConn c { conn with
      socketChannel := (conn.socketChannel.disableAll (s.alone.workers (s.alone.ioLoop c)).poll).1 }).setPoll
      (s.alone.ioLoop c) ((conn.socketChannel.disableAll (s.alone.workers (s.alone.ioLoop c)).poll).2.removeChannel
        (conn.socketChannel.disableAll (s.alone.workers (s.alone.ioLoop c)).poll).1) =
      (s.unregister c conn).alone := by
    rw [alone_setConn]
    exact alone_setPoll _ _ _
  unfold Loops.handleCloseRest Server.handleCloseRest
  simp only [hleft]
  split
  · rename_i hcb
    rw [show s.tcpCloseCallBack = .removeTcpConnInloop from hcb]
    show ((s.unregister c conn).alone.queInLoop me 0 _).goTo me _ = _
    rw [alone_queInLoop (s := s.unregister c conn) htid, alone_goTo]
  · rename_i hcb
    rw [show s.tcpCloseCallBack = .user from hcb]
    exact alone_goTo { s.unregister c conn with held := insert c s.held } me _

theorem alone_msgCallBack (s : Server) (me : Fin (0 + 1)) (c : ConnId) (p : Place) :
    s.alone.msgCallBack me c p = (s.msgCallBack c p).alone := alone_setWorker { s with held := insert c s.held } me _

theorem alone_handleRead (htid : s.loop.tid = 0) (me : Fin (0 + 1)) (c : ConnId) (conn : Tcpconn Chan)
    (read : Option (List UInt8)) (p : Place) :
    s.alone.handleRead me c conn read p = (s.handleRead c conn read p).map alone := by
  simp only [Loops.handleRead, Server.handleRead, Option.map_map]
  congr 1
  funext r
  simp only [Function.comp_apply, alone_setConn]
  split
  · exact alone_handleClose _ me c _ p
  · split
    · rw [alone_connectDestroyed (s := s.setConn c { conn with inBuffer := r.2 }) htid]
      exact alone_msgCallBack _ me c p
    · exact alone_msgCallBack _ me c p

theorem alone_handleWrite (s : Server) (me : Fin (0 + 1)) (c : ConnId) (conn : Tcpconn Chan) (ret : Int) (p : Place) :
    s.alone.handleWrite me c conn ret p = (s.handleWrite c conn ret p).map alone := by
  simp only [Loops.handleWrite, Server.handleWrite, Option.map_map]
  congr 1
  funext w
  simp only [Function.comp_apply, alone_setConn, alone_setPoll, alone_goTo]

theorem isInloop_alone (htid : s.loop.tid = 0) (me : Fin (0 + 1)) (c : ConnId) :
    (s.alone.workers (s.alone.ioLoop c)).loop.isInloop me = true := by
  rw [only_thread me 0]
  exact beq_iff_eq.mpr htid

theorem alone_send (htid : s.loop.tid = 0) (me : Fin (0 + 1)) (c : ConnId) (conn : Tcpconn Chan) (str : List UInt8)
    (ret : Int) : s.alone.send me c conn str ret = (s.send c conn str ret).map alone := by
  simp only [Loops.send, Server.send, Option.map_map]
  rw [if_pos (isInloop_alone htid me c)]
  congr 1
  funext w
  simp only [Function.comp_apply, alone_setConn, alone_setPoll]

theorem alone_shutdown (htid : s.loop.tid = 0) (me : Fin (0 + 1)) (c : ConnId) (conn : Tcpconn Chan) :
    s.alone.shutdown me c conn = (s.shutdown c conn).alone := by
  simp only [Loops.shutdown]
  rw [if_pos (isInloop_alone htid me c)]
  rfl

/-- `GetNextLoop` returns the base loop. -/
theorem alone_tcpserverConnection (s : Server) (me : Fin (0 + 1)) (fd : Nat) (address : String) (event : Events)
    (p : Place) : s.alone.tcpserverConnection me fd address event p =
      (s.tcpserverConnection fd address event p).map alone := by
  unfold Loops.tcpserverConnection Server.tcpserverConnection
  have hio : Function.update s.alone.ioLoop s.next 0 = s.alone.ioLoop := funext fun _ => only_thread _ _
  by_cases hfd : fd ∈ s.openFds
  · have hused : fd ∈ s.alone.openFds := hfd
    rw [if_pos hused, if_pos hfd]
    rfl
  · have hfree : fd ∉ s.alone.openFds := hfd
    rw [if_neg hfree, if_neg hfd]
    have hmade : ({ s.alone.setConn s.next (Tcpconn.new (.conn s.next) fd address event) with
        ioLoop := Function.update s.alone.ioLoop s.next 0
        next := s.next + 1
        tcpconnList := insert s.next s.tcpconnList
        openFds := insert fd s.openFds } : Loops 0) =
        alone { s.setConn s.next (Tcpconn.new (.conn s.next) fd address event) with
          next := s.next + 1
          tcpconnList := insert s.next s.tcpconnList
          openFds := insert fd s.openFds
          log := s.log ++ [.connectionCallBack s.next .kConnected] } := by
      rw [hio]
      rfl
    exact congrArg some ((congrArg (fun l => Loops.goTo l me _) hmade).trans (alone_goTo _ me _))

theorem alone_connectEstablished (s : Server) (me : Fin (0 + 1)) (c : ConnId) (conn : Tcpconn Chan) (p : Place) :
    s.alone.connectEstablished me c conn p = alone { s.setConn c (conn.connectEstablished s.poll).1 with
      poll := (conn.connectEstablished s.poll).2, pc := .between p } := by
  unfold Loops.connectEstablished
  simp only [alone_setConn, alone_setPoll, alone_goTo]
  rfl

theorem alone_removeTcpConn (htid : s.loop.tid = 0) (me : Fin (0 + 1)) (c : ConnId) :
    s.alone.removeTcpConn me c = (s.removeTcpConn c).alone := by
  have hassert : (s.alone.workers (s.alone.ioLoop c)).loop.assertInLoop me = .ok true := by
    rw [only_thread me 0]
    exact if_pos htid
  unfold Loops.removeTcpConn
  rw [hassert]
  rfl

/-! ## References -/

theorem alone_references (s : Server) (t : Fin (0 + 1)) (c : ConnId) : (s.alone.workers t).references c = true ↔
    .removeTcpConn c ∈ s.loop.pendingList ∨ .removeTcpConn c ∈ s.funcList ∨ s.pc.arg = some c := by
  have hworker : (s.alone.workers t).references c = (decide (.removeTcpConn c ∈ s.loop.pendingList) ||
      decide (.removeTcpConn c ∈ s.funcList) || decide (s.pc.arg = some c)) := rfl
  rw [hworker]
  simp only [Bool.or_eq_true, decide_eq_true_eq, or_assoc]

theorem alone_referenced (s : Server) (c : ConnId) : s.alone.referenced c = s.referenced c := by
  have hthread : (∃ t, (s.alone.workers t).references c = true) ↔ .removeTcpConn c ∈ s.loop.pendingList ∨
      .removeTcpConn c ∈ s.funcList ∨ s.pc.arg = some c :=
    ⟨fun ⟨t, h⟩ => (alone_references s t c).mp h, fun h => ⟨0, (alone_references s 0 c).mpr h⟩⟩
  rw [Bool.eq_iff_iff, referenced_iff, Loops.referenced, Bool.or_eq_true, Bool.or_eq_true, decide_eq_true_eq,
    decide_eq_true_eq, decide_eq_true_eq, hthread, or_assoc]
  rfl

theorem alone_destroy (s : Server) (c : ConnId) : s.alone.destroy c = (s.destroy c).alone := by
  unfold Loops.destroy Server.destroy
  cases hconn : s.conns c with
  | none =>
    have halone : s.alone.conns c = none := hconn
    rw [halone]
  | some conn =>
    have halone : s.alone.conns c = some conn := hconn
    rw [halone]
    exact alone_setPoll { s with
      conns := Function.update s.conns c none
      openFds := s.openFds.erase conn.connectSocket.socketfd } 0 _

theorem alone_sweep (s : Server) : s.alone.sweep = s.sweep.alone := by
  have hfold : ∀ (cs : List ConnId) (t : Server), cs.foldl Loops.destroy t.alone = (cs.foldl destroy t).alone := by
    intro cs
    induction cs with
    | nil => exact fun t => rfl
    | cons c cs ih =>
      intro t
      rw [List.foldl_cons, List.foldl_cons, alone_destroy]
      exact ih (t.destroy c)
  unfold Loops.sweep Server.sweep
  rw [show (fun c => !s.alone.referenced c) = fun c => !s.referenced c by funext c; rw [alone_referenced]]
  exact hfold _ s

/-! ## The steps -/

theorem alone_doPendingFunc (s : Server) (me : Fin (0 + 1)) :
    s.alone.doPendingFunc me = s.doPendingFunc.alone := alone_setWorker s me _

theorem alone_endPendingFunc (s : Server) (me : Fin (0 + 1)) :
    s.alone.endPendingFunc me = s.endPendingFunc.alone := by
  unfold Loops.endPendingFunc Server.endPendingFunc
  simp only
  rw [alone_setWorker, alone_sweep]
  rfl

theorem alone_runTask (htid : s.loop.tid = 0) (me : Fin (0 + 1)) (u : ServerTask) (rest : List ServerTask) :
    s.alone.runTask me u rest = (s.runTask u rest).alone := by
  cases u with
  | functor => exact alone_goTo s me _
  | removeTcpConn c =>
    unfold Loops.runTask
    simp only
    rw [alone_removeTcpConn htid, alone_goTo]
    rfl
  | handleClose c =>
    have hconns : s.alone.conns c = s.conns c := rfl
    unfold Loops.runTask Server.runTask
    simp only [hconns]
    cases s.conns c with
    | none => exact alone_goTo s me _
    | some conn => exact alone_handleClose s me c conn _

theorem alone_ret (htid : s.loop.tid = 0) (me : Fin (0 + 1)) (k : Cont) (p : Place) :
    s.alone.ret me k p = (s.ret k p).alone := by
  cases k with
  | back arg =>
    unfold Loops.ret Server.ret
    simp only
    rw [alone_goTo, alone_sweep]
  | connectEstablished c =>
    have hconns : s.alone.conns c = s.conns c := rfl
    unfold Loops.ret Server.ret
    simp only [hconns]
    cases s.conns c with
    | none => exact alone_goTo s me _
    | some conn => exact alone_connectEstablished s me c conn p
  | handleClose c =>
    have hconns : s.alone.conns c = s.conns c := rfl
    unfold Loops.ret Server.ret
    simp only [hconns]
    cases s.conns c with
    | none => exact alone_goTo s me _
    | some conn => exact alone_handleCloseRest htid me c conn p

theorem alone_handleEvent (htid : s.loop.tid = 0) (me : Fin (0 + 1)) (ch : Chan) (revent : Events) (io : Io)
    (p : Place) : s.alone.handleEvent me ch revent io p = (s.handleEvent ch revent io p).map alone := by
  cases ch with
  | wakeup => exact congrArg some (alone_setWorker s me _)
  | timerfd => exact congrArg some (alone_goTo s me _)
  | acceptor =>
    unfold Loops.handleEvent Server.handleEvent
    cases io.accepted with
    | none => exact congrArg some (alone_goTo s me _)
    | some a => exact alone_tcpserverConnection s me a.1 a.2.1 a.2.2 p
  | conn c =>
    have hconns : s.alone.conns c = s.conns c := rfl
    unfold Loops.handleEvent Server.handleEvent
    simp only [hconns]
    cases s.conns c with
    | none => exact congrArg some (alone_goTo s me _)
    | some conn =>
      cases Channel.handleEvent revent with
      | none => exact congrArg some (alone_goTo s me _)
      | some cb =>
        cases cb with
        | cbShutdown => exact congrArg some (alone_handleClose s me c conn p)
        | cbRead => exact alone_handleRead htid me c conn io.read p
        | cbWrite => exact alone_handleWrite s me c conn io.write p

/-- A call of the user's code, which has a `shared_ptr` to the connection. -/
theorem alone_userCall (me : Fin (0 + 1)) (c : ConnId) {f : Tcpconn Chan → Option (Loops 0)}
    {g : Tcpconn Chan → Option Server} (hfg : ∀ conn, f conn = (g conn).map alone) {l : Loops 0}
    (h : s.alone.userCall me c f = some l) : s.Holds c ∧ ∃ s', s.userCall c g = some s' ∧ l = s'.alone := by
  have hcall : ∀ k p, s.pc = .user k p → (s.conns c).bind f = some l →
      ∃ s', s.userCall c g = some s' ∧ l = s'.alone := by
    intro k p hpc hbind
    obtain ⟨conn, hconn, hf⟩ := Option.bind_eq_some_iff.mp hbind
    rw [hfg, Option.map_eq_some_iff] at hf
    obtain ⟨s', hs', rfl⟩ := hf
    exact ⟨s', by simp only [Server.userCall, hpc, hconn, Option.bind_some, hs'], rfl⟩
  have hpc : (s.alone.workers me).pc = s.pc := rfl
  unfold Loops.userCall at h
  rw [hpc] at h
  split at h
  · rename_i arg p hpc
    obtain ⟨hheld, hbind⟩ := Option.ite_none_right_eq_some.mp h
    refine ⟨hheld.imp id fun harg => ?_, hcall _ _ hpc hbind⟩
    rw [hpc]
    exact harg
  · rename_i k p hne hpc
    obtain ⟨hheld, hbind⟩ := Option.ite_none_right_eq_some.mp h
    exact ⟨Or.inl hheld, hcall _ _ hpc hbind⟩
  · cases h

theorem alone_step (htid : s.loop.tid = 0) {e : Fin (0 + 1) × LoopsEv 0} {l : Loops 0}
    (h : Loops.machine.step s.alone e = some l) : ∃ s', machine.step s e.2.server = some s' ∧ l = s'.alone := by
  obtain ⟨me, ev⟩ := e
  have hrun : (if s.alone.exited = none then s.alone.act me ev else none) = some l := h
  have hact := (Option.ite_none_right_eq_some.mp hrun).2
  have hpc : (s.alone.workers me).pc = s.pc := rfl
  cases ev <;> simp only [Loops.act, hpc] at hact
  case poll reported =>
    split at hact
    · rename_i hwait
      obtain ⟨hrep, heq⟩ := Option.ite_none_right_eq_some.mp hact
      have hrep' : s.Reported reported := hrep
      exact ⟨_, by simp only [machine, step, LoopsEv.server, hwait, if_pos hrep'],
        (Option.some.inj heq).symm.trans (alone_goTo s me _)⟩
    · cases hact
  case handle io =>
    split at hact
    · rename_i ch revent rest hdispatch
      rw [alone_handleEvent htid, Option.map_eq_some_iff] at hact
      obtain ⟨s', hs', rfl⟩ := hact
      exact ⟨s', by simp only [machine, step, LoopsEv.server, hdispatch, hs'], rfl⟩
    · cases hact
  case doPendingFunc =>
    split at hact
    · rename_i hdispatch
      exact ⟨_, by simp only [machine, step, LoopsEv.server, hdispatch],
        (Option.some.inj hact).symm.trans (alone_doPendingFunc s me)⟩
    · cases hact
  case runTask =>
    split at hact
    · rename_i u rest hdrain
      exact ⟨_, by simp only [machine, step, LoopsEv.server, hdrain],
        (Option.some.inj hact).symm.trans (alone_runTask htid me u rest)⟩
    · cases hact
  case endPendingFunc =>
    split at hact
    · rename_i hdrain
      exact ⟨_, by simp only [machine, step, LoopsEv.server, hdrain],
        (Option.some.inj hact).symm.trans (alone_endPendingFunc s me)⟩
    · cases hact
  case connectDestroyed c =>
    obtain ⟨-, hcall⟩ := alone_userCall me c (g := fun conn => some (s.connectDestroyed c conn))
      (fun conn => congrArg some (alone_connectDestroyed htid me c conn)) hact
    exact hcall
  case send c str ret =>
    obtain ⟨hholds, hcall⟩ := alone_userCall me c (g := fun conn => s.send c conn str ret)
      (fun conn => alone_send htid me c conn str ret) hact
    simp only [machine, step, LoopsEv.server, if_pos hholds]
    exact hcall
  case shutdown c =>
    obtain ⟨hholds, hcall⟩ := alone_userCall me c (g := fun conn => some (s.shutdown c conn))
      (fun conn => congrArg some (alone_shutdown htid me c conn)) hact
    simp only [machine, step, LoopsEv.server, if_pos hholds]
    exact hcall
  case queInLoop t =>
    split at hact
    · rename_i k p huser
      exact ⟨_, by simp only [machine, step, LoopsEv.server, huser],
        (Option.some.inj hact).symm.trans (alone_queInLoop htid me t .functor)⟩
    · cases hact
  case drop c =>
    split at hact
    · rename_i k p huser
      exact ⟨_, by simp only [machine, step, LoopsEv.server, huser],
        (Option.some.inj hact).symm.trans (alone_sweep { s with held := s.held.erase c })⟩
    · cases hact
  case ret =>
    split at hact
    · rename_i k p huser
      exact ⟨_, by simp only [machine, step, LoopsEv.server, huser],
        (Option.some.inj hact).symm.trans (alone_ret htid me k p)⟩
    · cases hact

/-! ## Runs -/

theorem tid_queInLoop (s : Server) (u : ServerTask) : (s.queInLoop u).loop.tid = s.loop.tid := by
  simp only [queInLoop, Eventloop.queInLoop_self, Except.toOption, Option.getD_some]
  split
  · exact Eventloop.wakeUp_tid _
  · rfl

theorem tid_sweep (s : Server) : s.sweep.loop.tid = s.loop.tid := by
  obtain ⟨conns, openFds, epfd, heq⟩ := s.sweep_eq
  rw [heq]

theorem tid_connectDestroyed (s : Server) (c : ConnId) (conn : Tcpconn Chan) :
    (s.connectDestroyed c conn).loop.tid = s.loop.tid := by
  unfold connectDestroyed
  split
  · rfl
  · exact tid_queInLoop s _

/-- The loop stays its thread's. -/
theorem tid_step {e : ServerEv} (h : machine.step s e = some s') : s'.loop.tid = s.loop.tid := by
  cases step_cases h with
  | poll | wakeup | timerfd | acceptFailed | handleFault | closeEvent | noCallBack | doPendingFunc | functorTask
  | removeTask | closeTask | closeFault | shutdown | established | retFault => rfl
  | accept hpc hio haccept =>
    obtain ⟨-, heq⟩ := Option.ite_none_left_eq_some.mp haccept
    cases heq
    rfl
  | @read c revent rest io conn s' hh hev hread =>
    obtain ⟨r, -, rfl⟩ := Option.map_eq_some_iff.mp hread
    by_cases hfail : r.1 = -1
    · simp only [if_pos hfail]
      rfl
    · simp only [if_neg hfail]
      by_cases heof : r.1 = 0
      · simp only [if_pos heof]
        exact tid_connectDestroyed (s.setConn c { conn with inBuffer := r.2 }) c _
      · simp only [if_neg heof]
        rfl
  | write hh hev hwrite =>
    obtain ⟨w, -, rfl⟩ := Option.map_eq_some_iff.mp hwrite
    rfl
  | endPendingFunc hpc => exact tid_sweep _
  | connectDestroyed hcall => exact tid_connectDestroyed s _ _
  | send hcall hholds hsend =>
    obtain ⟨w, -, rfl⟩ := Option.map_eq_some_iff.mp hsend
    rfl
  | queInLoop hpc => exact tid_queInLoop s .functor
  | drop hpc => exact tid_sweep _
  | back hpc => exact tid_sweep _
  | @closed c p conn hcall =>
    unfold handleCloseRest
    cases s.tcpCloseCallBack with
    | removeTcpConnInloop => exact tid_queInLoop (s.unregister c conn) _
    | user => rfl

/-- A run of the base thread from a server on one loop. -/
theorem alone_run (htid : s.loop.tid = 0) {es : List (Fin (0 + 1) × LoopsEv 0)} {l : Loops 0}
    (h : Loops.machine.run s.alone es = some l) :
    ∃ s', machine.run s (es.map fun e => e.2.server) = some s' ∧ l = s'.alone := by
  induction es generalizing s with
  | nil => exact ⟨s, rfl, (Option.some.inj h).symm⟩
  | cons e es ih =>
    obtain ⟨l1, h1, h2⟩ := Loops.machine.run_cons_some h
    obtain ⟨s1, hs1, rfl⟩ := alone_step htid h1
    obtain ⟨s', hs', rfl⟩ := ih ((tid_step hs1).trans htid) h2
    refine ⟨s', ?_, rfl⟩
    rw [List.map_cons, Machine.run_cons, hs1]
    exact hs'

/-- **A server without I/O threads is a server on one loop**: each of its runs is, step for step, a run of that server
to the same connections, loop, poller and descriptors, and no call in it ends the process. -/
theorem no_threads_refines (base : BaseFds) (cb : CloseCallBack) (es : List (Fin (0 + 1) × LoopsEv 0)) (l : Loops 0)
    (h : Loops.machine.run (Loops.new 0 base.loops cb) es = some l) :
    ∃ s, machine.run (new base 0 cb) (es.map fun e => e.2.server) = some s ∧ l = s.alone ∧ l.exited = none := by
  rw [alone_new] at h
  obtain ⟨s, hs, rfl⟩ := alone_run rfl h
  exact ⟨s, hs, rfl, rfl⟩

/-- A connection is accepted, and closed by its peer. -/
def aloneCloseByPeer : List (Fin (0 + 1) × LoopsEv 0) :=
  [(0, .poll [(.acceptor, readEvent)]), (0, .handle ⟨some (7, "peer", 0), none, 0⟩), (0, .ret), (0, .doPendingFunc),
    (0, .endPendingFunc), (0, .poll [(.conn 0, closeEvent)]), (0, .handle ⟨none, none, 0⟩), (0, .ret)]

theorem no_threads_refines_closeByPeer :
    ∃ l s, Loops.machine.run (Loops.new 0 smallBase.loops .removeTcpConnInloop) aloneCloseByPeer = some l ∧
      machine.run (new smallBase 0 .removeTcpConnInloop) (aloneCloseByPeer.map fun e => e.2.server) = some s ∧
      s.loop.pendingList = [.removeTcpConn 0] := by
  have hrun : (Loops.machine.run (Loops.new 0 smallBase.loops .removeTcpConnInloop) aloneCloseByPeer).map
      (fun l => (l.workers 0).loop.pendingList) = some [.removeTcpConn 0] := by decide +kernel
  obtain ⟨l, hl, hpending⟩ := Option.map_eq_some_iff.mp hrun
  obtain ⟨s, hs, rfl, -⟩ := no_threads_refines smallBase .removeTcpConnInloop aloneCloseByPeer l hl
  exact ⟨s.alone, s, hl, hs, hpending⟩

end Server

end NetImitate
