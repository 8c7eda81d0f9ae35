import NetImitate.Tcpserver.Run
import NetImitate.Threadpoll

/-!
# A server with I/O threads

`n` I/O threads beside the base thread, each with a loop of its own. The base thread accepts; a connection is served by
the loop that `GetNextLoop` gave it. Every step names the thread that executes it.

* `Worker` : what a thread works on; `Loops` : the server;
* `Loops.step`, `machine`;
* `Confined` : a registry is changed by one thread only; `Establishes` : `ConnectEstablished` gets to `EnableReading`;
* `Quiet` : no connection has been established yet;
* `confined_iff` : the registries are confined exactly when there is no I/O thread or no connection is established.
-/

namespace NetImitate

/-- A thread: its loop with the loop's poller, the batch of `DoPendingFunc`, and where it is. -/
structure Worker where
  loop : Eventloop ServerTask
  poll : Poll Chan
  funcList : List ServerTask
  pc : ServerPc

/-- The descriptors of the loops, by thread, and of the acceptor. -/
structure LoopFds (n : Nat) where
  wakeupFd : Fin (n + 1) → Nat
  timerfd : Fin (n + 1) → Nat
  acceptFd : Nat

/-- The base thread is `0`. -/
structure Loops (n : Nat) where
  tcpCloseCallBack : CloseCallBack
  threadPoll : Threadpoll (Fin (n + 1))
  workers : Fin (n + 1) → Worker
  /-- The connection objects in memory. -/
  conns : ConnId → Option (Tcpconn Chan)
  /-- The loop of a connection, by its thread. -/
  ioLoop : ConnId → Fin (n + 1)
  next : ConnId
  tcpconnList : Finset ConnId
  /-- The connections the user's code holds. -/
  held : Finset ConnId
  openFds : Finset Nat
  exited : Option Exit

inductive LoopsEv (n : Nat) where
  /-- `epoll_wait` reports channels; no signal interrupts it. -/
  | poll (reported : List (Chan × Events))
  | handle (io : Io)
  | doPendingFunc
  | runTask
  | endPendingFunc
  | connectDestroyed (c : ConnId)
  | send (c : ConnId) (str : List UInt8) (ret : Int)
  | shutdown (c : ConnId)
  /-- A functor of the user's, for the loop of the thread. -/
  | queInLoop (loop : Fin (n + 1))
  | drop (c : ConnId)
  | ret

namespace Worker

/-- What `epoll_wait` may report: registered channels, each once, with events their mask allows. -/
def Reported (w : Worker) (reported : List (Chan × Events)) : Prop :=
  reported ≠ [] ∧ (reported.map Prod.fst).Nodup ∧ ∀ r ∈ reported, r.2 ≠ 0 ∧
    (∃ e ∈ w.poll.epfd.entries, e.2.ptr = r.1 ∧ r.2 &&& ~~~(e.2.events ||| unasked) = 0) ∧
    (r.1 ∈ [.wakeup, .timerfd, .acceptor] → r.2 = readEvent)

instance (w : Worker) (reported : List (Chan × Events)) : Decidable (w.Reported reported) := by
  unfold Reported
  infer_instance

/-- Something the thread works on holds a `shared_ptr` to the connection. -/
def references (w : Worker) (c : ConnId) : Bool :=
  decide (.removeTcpConn c ∈ w.loop.pendingList) || decide (.removeTcpConn c ∈ w.funcList) ||
    decide (w.pc.arg = some c)

end Worker

namespace Loops
variable {n : Nat}

/-- `Init` of a loop and its timer queue. -/
def initPoll (fds : LoopFds n) (t : Fin (n + 1)) : Poll Chan :=
  let p := ((Channel.new Chan.wakeup (fds.wakeupFd t) 0).enableReading Poll.empty).2
  ((Channel.new Chan.timerfd (fds.timerfd t) 0).enableReading p).2

/-- `Listen`, on the base loop. -/
def startPoll (fds : LoopFds n) (t : Fin (n + 1)) : Poll Chan :=
  if t = 0 then ((Channel.new Chan.acceptor fds.acceptFd 0).enableReading (initPoll fds t)).2 else initPoll fds t

def startFds (fds : LoopFds n) : Finset Nat :=
  insert fds.acceptFd (Finset.univ.image fds.wakeupFd ∪ Finset.univ.image fds.timerfd)

/-- A server after `SetThreadNums(n)` and `Start`, every loop about to poll. -/
def new (n : Nat) (fds : LoopFds n) (cb : CloseCallBack) : Loops n where
  tcpCloseCallBack := cb
  threadPoll := ((Threadpoll.new 0).setThreadNums n).start fun i => Fin.ofNat (n + 1) (i + 1)
  workers := fun t => ⟨Eventloop.new t, startPoll fds t, [], .wait⟩
  conns := fun _ => none
  ioLoop := fun _ => 0
  next := 0
  tcpconnList := ∅
  held := ∅
  openFds := startFds fds
  exited := none

def setWorker (s : Loops n) (t : Fin (n + 1)) (w : Worker) : Loops n :=
  { s with workers := Function.update s.workers t w }

def setConn (s : Loops n) (c : ConnId) (conn : Tcpconn Chan) : Loops n :=
  { s with conns := Function.update s.conns c (some conn) }

def setPoll (s : Loops n) (t : Fin (n + 1)) (p : Poll Chan) : Loops n :=
  s.setWorker t { s.workers t with poll := p }

/-- The thread goes on at `pc`. -/
def goTo (s : Loops n) (me : Fin (n + 1)) (pc : ServerPc) : Loops n :=
  s.setWorker me { s.workers me with pc := pc }

/-- `queInLoop` on the loop of thread `t`. -/
def queInLoop (s : Loops n) (me t : Fin (n + 1)) (task : ServerTask) : Loops n :=
  match (s.workers t).loop.queInLoop me task with
  | .ok l => s.setWorker t { s.workers t with loop := l }
  | .error x => { s with exited := some x }

/-! ## References -/

def referenced (s : Loops n) (c : ConnId) : Bool :=
  decide (c ∈ s.tcpconnList) || decide (c ∈ s.held) || decide (∃ t, (s.workers t).references c = true)

/-- The destructor closes the descriptor, which takes it out of the interest list. -/
def destroy (s : Loops n) (c : ConnId) : Loops n :=
  match s.conns c with
  | none => s
  | some conn =>
    let t := s.ioLoop c
    let fd := conn.connectSocket.socketfd
    let p := (s.workers t).poll
    { s with
      conns := Function.update s.conns c none
      openFds := s.openFds.erase fd }.setPoll t { p with epfd := Epoll.ctlDel p.epfd fd }

/-- References have been dropped: connections without one are destroyed. -/
def sweep (s : Loops n) : Loops n := ((List.range s.next).filter fun c => !s.referenced c).foldl destroy s

/-! ## The connection's functions, executed by the thread `me` -/

def connectDestroyed (s : Loops n) (me : Fin (n + 1)) (c : ConnId) (conn : Tcpconn Chan) : Loops n :=
  if conn.state = .kClosed then s else s.queInLoop me (s.ioLoop c) (.handleClose c)

/-- `handleClose` up to its `connectionCallBack`. -/
def handleClose (s : Loops n) (me : Fin (n + 1)) (c : ConnId) (conn : Tcpconn Chan) (p : Place) : Loops n :=
  (s.setConn c { conn with state := .kClosed }).goTo me (.user (.handleClose c) p)

/-- The rest of `handleClose`; the default close callback is `RemoveTcpConnInloop`. -/
def handleCloseRest (s : Loops n) (me : Fin (n + 1)) (c : ConnId) (conn : Tcpconn Chan) (p : Place) : Loops n :=
  let t := s.ioLoop c
  let r := conn.socketChannel.disableAll (s.workers t).poll
  let s := (s.setConn c { conn with socketChannel := r.1 }).setPoll t (r.2.removeChannel r.1)
  match s.tcpCloseCallBack with
  | .removeTcpConnInloop => (s.queInLoop me t (.removeTcpConn c)).goTo me (.between p)
  | .user => { s with held := insert c s.held }.goTo me (.user (.back (some c)) p)

/-- The message callback gets a `shared_ptr` it may keep. -/
def msgCallBack (s : Loops n) (me : Fin (n + 1)) (c : ConnId) (p : Place) : Loops n :=
  { s with held := insert c s.held }.goTo me (.user (.back (some c)) p)

def handleRead (s : Loops n) (me : Fin (n + 1)) (c : ConnId) (conn : Tcpconn Chan) (read : Option (List UInt8))
    (p : Place) : Option (Loops n) :=
  (conn.inBuffer.readToBuf read).map fun r =>
    let conn := { conn with inBuffer := r.2 }
    let s := s.setConn c conn
    if r.1 = -1 then s.handleClose me c conn p
    else if r.1 = 0 then (s.connectDestroyed me c conn).msgCallBack me c p
    else s.msgCallBack me c p

def handleWrite (s : Loops n) (me : Fin (n + 1)) (c : ConnId) (conn : Tcpconn Chan) (ret : Int) (p : Place) :
    Option (Loops n) :=
  (conn.handleWrite (s.workers (s.ioLoop c)).poll ret).map fun w =>
    ((s.setConn c w.conn).setPoll (s.ioLoop c) w.poll).goTo me (.between p)

/-- `Send`. On a thread that is not the connection's it queues a task, whatever it is: `queInLoop` ends the process. -/
def send (s : Loops n) (me : Fin (n + 1)) (c : ConnId) (conn : Tcpconn Chan) (str : List UInt8) (ret : Int) :
    Option (Loops n) :=
  let t := s.ioLoop c
  if (s.workers t).loop.isInloop me then
    (conn.sendInLoop (s.workers t).poll str ret).map fun w => (s.setConn c w.conn).setPoll t w.poll
  else some (s.queInLoop me t .functor)

/-- `Shutdown`, with the same two cases. -/
def shutdown (s : Loops n) (me : Fin (n + 1)) (c : ConnId) (conn : Tcpconn Chan) : Loops n :=
  let t := s.ioLoop c
  if (s.workers t).loop.isInloop me then s.setConn c conn.shutDownInloop else s.queInLoop me t .functor

/-! ## The server's functions -/

/-- `tcpserverConnection` up to the `connectionCallBack` of `ConnectEstablished`; the kernel hands out a descriptor
that is not open. -/
def tcpserverConnection (s : Loops n) (me : Fin (n + 1)) (fd : Nat) (address : String) (event : Events) (p : Place) :
    Option (Loops n) :=
  if fd ∈ s.openFds then none
  else
    let c := s.next
    let r := s.threadPoll.getNextLoop
    some ({ s.setConn c (Tcpconn.new (.conn c) fd address event) with
      threadPoll := r.2
      ioLoop := Function.update s.ioLoop c r.1
      next := c + 1
      tcpconnList := insert c s.tcpconnList
      openFds := insert fd s.openFds }.goTo me (.user (.connectEstablished c) p))

/-- The rest of `ConnectEstablished`, on the thread that accepted. -/
def connectEstablished (s : Loops n) (me : Fin (n + 1)) (c : ConnId) (conn : Tcpconn Chan) (p : Place) : Loops n :=
  let t := s.ioLoop c
  let r := conn.connectEstablished (s.workers t).poll
  ((s.setConn c r.1).setPoll t r.2).goTo me (.between p)

/-- `RemoveTcpConn`, which asserts that it runs in the connection's loop. -/
def removeTcpConn (s : Loops n) (me : Fin (n + 1)) (c : ConnId) : Loops n :=
  match (s.workers (s.ioLoop c)).loop.assertInLoop me with
  | .ok _ => { s with tcpconnList := s.tcpconnList.erase c }
  | .error x => { s with exited := some x }

/-- `HandleEvent` of a reported channel. -/
def handleEvent (s : Loops n) (me : Fin (n + 1)) (ch : Chan) (revent : Events) (io : Io) (p : Place) :
    Option (Loops n) :=
  match ch with
  | .wakeup =>
    some (s.setWorker me { s.workers me with loop := (s.workers me).loop.handleRead, pc := .between p })
  | .timerfd => some (s.goTo me (.user (.back none) p))
  | .acceptor =>
    match io.accepted with
    | none => some (s.goTo me (.between p))
    | some (fd, address, event) => s.tcpserverConnection me fd address event p
  | .conn c =>
    match s.conns c with
    | none => some (s.goTo me .fault)
    | some conn =>
      match Channel.handleEvent revent with
      | some .cbShutdown => some (s.handleClose me c conn p)
      | some .cbRead => s.handleRead me c conn io.read p
      | some .cbWrite => s.handleWrite me c conn io.write p
      | none => some (s.goTo me (.between p))

/-- The user's code returns. -/
def ret (s : Loops n) (me : Fin (n + 1)) (k : Cont) (p : Place) : Loops n :=
  match k with
  | .back _ => (s.goTo me (.between p)).sweep
  | .connectEstablished c =>
    match s.conns c with
    | none => s.goTo me .fault
    | some conn => s.connectEstablished me c conn p
  | .handleClose c =>
    match s.conns c with
    | none => s.goTo me .fault
    | some conn => s.handleCloseRest me c conn p

/-- `DoPendingFunc` up to its first task. -/
def doPendingFunc (s : Loops n) (me : Fin (n + 1)) : Loops n :=
  let (funcList, loop) := (s.workers me).loop.swapPending
  s.setWorker me { s.workers me with
    loop := { loop with callingPendingFunc := true }
    funcList := funcList
    pc := .between (.drain funcList) }

/-- The next task of the batch. -/
def runTask (s : Loops n) (me : Fin (n + 1)) (t : ServerTask) (rest : List ServerTask) : Loops n :=
  match t with
  | .functor => s.goTo me (.user (.back none) (.drain rest))
  | .removeTcpConn c => (s.removeTcpConn me c).goTo me (.between (.drain rest))
  | .handleClose c =>
    match s.conns c with
    | none => s.goTo me .fault
    | some conn => s.handleClose me c conn (.drain rest)

/-- The end of `DoPendingFunc`, which destroys the batch. -/
def endPendingFunc (s : Loops n) (me : Fin (n + 1)) : Loops n :=
  let loop := { (s.workers me).loop with callingPendingFunc := false }
  (s.setWorker me { s.workers me with loop := loop, funcList := [], pc := .wait }).sweep

/-- A call of the user's code on a connection it has a `shared_ptr` to. -/
def userCall (s : Loops n) (me : Fin (n + 1)) (c : ConnId) (f : Tcpconn Chan → Option (Loops n)) : Option (Loops n) :=
  match (s.workers me).pc with
  | .user (.back arg) _ => if c ∈ s.held ∨ arg = some c then (s.conns c).bind f else none
  | .user _ _ => if c ∈ s.held then (s.conns c).bind f else none
  | _ => none

/-- What the thread `me` does next. -/
def act (s : Loops n) (me : Fin (n + 1)) : LoopsEv n → Option (Loops n)
  | .poll reported => match (s.workers me).pc with
    | .wait => if (s.workers me).Reported reported then some (s.goTo me (.between (.dispatch reported))) else none
    | _ => none
  | .handle io => match (s.workers me).pc with
    | .between (.dispatch ((ch, revent) :: rest)) => s.handleEvent me ch revent io (.dispatch rest)
    | _ => none
  | .doPendingFunc => match (s.workers me).pc with
    | .between (.dispatch []) => some (s.doPendingFunc me)
    | _ => none
  | .runTask => match (s.workers me).pc with
    | .between (.drain (t :: rest)) => some (s.runTask me t rest)
    | _ => none
  | .endPendingFunc => match (s.workers me).pc with
    | .between (.drain []) => some (s.endPendingFunc me)
    | _ => none
  | .connectDestroyed c => s.userCall me c fun conn => some (s.connectDestroyed me c conn)
  | .send c str ret => s.userCall me c fun conn => s.send me c conn str ret
  | .shutdown c => s.userCall me c fun conn => some (s.shutdown me c conn)
  | .queInLoop t => match (s.workers me).pc with
    | .user _ _ => some (s.queInLoop me t .functor)
    | _ => none
  | .drop c => match (s.workers me).pc with
    | .user _ _ => some { s with held := s.held.erase c }.sweep
    | _ => none
  | .ret => match (s.workers me).pc with
    | .user k p => some (s.ret me k p)
    | _ => none

/-- After an `exit` no thread does anything. -/
def step (s : Loops n) (e : Fin (n + 1) × LoopsEv n) : Option (Loops n) :=
  if s.exited = none then s.act e.1 e.2 else none

def machine : Machine (Loops n) (Fin (n + 1) × LoopsEv n) := ⟨step⟩

/-! ## Confinement -/

/-- The step changes the `channelMap` of no loop but its own thread's, and `tcpconnList` on the thread `keeper` only. -/
def Confined (keeper : Fin (n + 1)) (s : Loops n) (e : Fin (n + 1) × LoopsEv n) : Prop :=
  ∀ s', machine.step s e = some s' →
    (∀ t, (s'.workers t).poll.channelMap ≠ (s.workers t).poll.channelMap → e.1 = t) ∧
    (s'.tcpconnList ≠ s.tcpconnList → e.1 = keeper)

/-- The step is the one in which `ConnectEstablished`, back from its `connectionCallBack`, gets to `EnableReading`. -/
def Establishes (s : Loops n) (e : Fin (n + 1) × LoopsEv n) : Prop :=
  s.exited = none ∧ e.2 = .ret ∧ ∃ c p, (s.workers e.1).pc = .user (.connectEstablished c) p

variable {fds : LoopFds n} {s s' : Loops n} {e : Fin (n + 1) × LoopsEv n} {me t : Fin (n + 1)}

/-! ## Before the first connection is established -/

theorem startPoll_registered {r : Sigma fun _ : Nat => PollEvent Chan} (h : r ∈ (startPoll fds t).epfd.entries) :
    r.2.ptr = .wakeup ∨ r.2.ptr = .timerfd ∨ r.2.ptr = .acceptor ∧ t = 0 := by
  have hinit : r ∈ (initPoll fds t).epfd.entries → r.2.ptr = .wakeup ∨ r.2.ptr = .timerfd := by
    intro h
    rcases Poll.mem_epfd_registEvennt h with h | h
    · rcases Poll.mem_epfd_registEvennt h with h | h
      · exact (List.not_mem_nil h).elim
      · exact Or.inl (by rw [h]; rfl)
    · exact Or.inr (by rw [h]; rfl)
  unfold startPoll at h
  split at h
  · rename_i hbase
    rcases Poll.mem_epfd_registEvennt h with h | h
    · exact (hinit h).imp_right Or.inl
    · exact Or.inr (Or.inr ⟨by rw [h]; rfl, hbase⟩)
  · exact (hinit h).imp_right Or.inl

theorem startPoll_open {fd : Nat} (h : fd ∉ startFds fds) : (startPoll fds t).channelMap.lookup fd = none := by
  simp only [startFds, Finset.mem_insert, Finset.mem_union, Finset.mem_image, Finset.mem_univ, true_and, not_or,
    not_exists] at h
  obtain ⟨haccept, hwakeup, htimer⟩ := h
  have hinit : (initPoll fds t).channelMap.lookup fd = none := by
    refine (Poll.channelMap_registEvennt _ _ _).trans ((if_neg (Ne.symm (htimer t))).trans ?_)
    exact (Poll.channelMap_registEvennt _ _ _).trans (if_neg (Ne.symm (hwakeup t)))
  unfold startPoll
  split
  · exact (Poll.channelMap_registEvennt _ _ _).trans ((if_neg haccept).trans hinit)
  · exact hinit

/-- The thread has to do with no connection but one that it is establishing. -/
structure QuietWorker (fds : LoopFds n) (t : Fin (n + 1)) (w : Worker) : Prop where
  poll : w.poll = startPoll fds t
  dispatched : ∀ r ∈ w.pc.channelList, r.1 = .wakeup ∨ r.1 = .timerfd ∨ r.1 = .acceptor ∧ t = 0
  batch : ∀ task ∈ w.pc.batch, task = .functor
  pending : ∀ task ∈ w.loop.pendingList, task = .functor
  cont : ∀ k p, w.pc = .user k p → k = .back none ∨ t = 0 ∧ ∃ c, k = .connectEstablished c

/-- No connection has been established, and none will be served by the base thread. -/
structure Quiet (fds : LoopFds n) (s : Loops n) : Prop where
  workers : ∀ t, QuietWorker fds t (s.workers t)
  held : s.held = ∅
  listed : ∀ c, s.conns c ≠ none → c ∈ s.tcpconnList
  establishing : ∀ t c p, (s.workers t).pc = .user (.connectEstablished c) p → s.conns c ≠ none
  fresh : ∀ c conn, s.conns c = some conn → s.ioLoop c ≠ 0 ∧ conn.socketChannel.index ∉ startFds fds
  fds_open : startFds fds ⊆ s.openFds
  loops : s.threadPoll.loopList ≠ [] ∧ ∀ t ∈ s.threadPoll.loopList, t ≠ 0

theorem quiet_new (hn : 0 < n) (fds : LoopFds n) (cb : CloseCallBack) : (new n fds cb).Quiet fds where
  workers := fun t => ⟨rfl, fun _ h => (List.not_mem_nil h).elim, fun _ h => (List.not_mem_nil h).elim,
    fun _ h => (List.not_mem_nil h).elim, fun _ _ h => by cases h⟩
  held := rfl
  listed := fun c h => absurd rfl h
  establishing := fun _ _ _ h => by cases h
  fresh := fun _ _ h => by cases h
  fds_open := Finset.Subset.refl _
  loops := by
    have hlist : (new n fds cb).threadPoll.loopList = (List.range n).map fun i => Fin.ofNat (n + 1) (i + 1) := rfl
    rw [hlist]
    refine ⟨?_, ?_⟩
    · intro hnil
      have hlen := congrArg List.length hnil
      rw [List.length_map, List.length_range, List.length_nil] at hlen
      omega
    · intro t ht
      obtain ⟨i, hi, rfl⟩ := List.mem_map.mp ht
      intro hzero
      have hval := congrArg Fin.val hzero
      rw [Fin.val_ofNat, Nat.mod_eq_of_lt (by have := List.mem_range.mp hi; omega), Fin.val_zero] at hval
      omega

/-- A thread moves on without a connection. -/
theorem Quiet.setWorker (hs : s.Quiet fds) {w : Worker} (hw : QuietWorker fds me w)
    (hest : ∀ c p, w.pc = .user (.connectEstablished c) p → s.conns c ≠ none) : (s.setWorker me w).Quiet fds := by
  refine ⟨?_, hs.held, hs.listed, ?_, hs.fresh, hs.fds_open, hs.loops⟩
  · intro t
    by_cases heq : t = me
    · subst heq
      simpa only [Loops.setWorker, Function.update_self] using hw
    · simpa only [Loops.setWorker, Function.update_of_ne heq] using hs.workers t
  · intro t c p hpc
    by_cases heq : t = me
    · subst heq
      simp only [Loops.setWorker, Function.update_self] at hpc
      exact hest c p hpc
    · simp only [Loops.setWorker, Function.update_of_ne heq] at hpc
      exact hs.establishing t c p hpc

/-- The thread goes on with part of what it had to do, or with user code. -/
theorem Quiet.goTo (hs : s.Quiet fds) {pc : ServerPc} (hpc : pc.channelList ⊆ (s.workers me).pc.channelList)
    (hbatch : pc.batch ⊆ (s.workers me).pc.batch) (hcont : ∀ k p, pc = .user k p → k = .back none) :
    (s.goTo me pc).Quiet fds := by
  have hw := hs.workers me
  refine hs.setWorker ⟨hw.poll, fun r hr => hw.dispatched r (hpc hr), fun task h => hw.batch task (hbatch h),
    hw.pending, fun k p h => Or.inl (hcont k p h)⟩ ?_
  intro c p h
  cases hcont _ p h

/-- Nothing is destroyed: every connection is in `tcpconnList`. -/
theorem Quiet.sweep_eq (hs : s.Quiet fds) : s.sweep = s := by
  have hfold : ∀ cs : List ConnId, (∀ c ∈ cs, s.conns c = none) → cs.foldl destroy s = s := by
    intro cs
    induction cs with
    | nil => exact fun _ => rfl
    | cons c cs ih =>
      intro hcs
      have hdestroy : s.destroy c = s := by
        rw [destroy, hcs c List.mem_cons_self]
      rw [List.foldl_cons, hdestroy]
      exact ih fun c' hc' => hcs c' (List.mem_cons_of_mem _ hc')
  refine hfold _ ?_
  intro c hc
  have hunref := (List.mem_filter.mp hc).2
  by_contra hlive
  simp [referenced, hs.listed c hlive] at hunref

/-- A functor enters a `pendingList`, or the process ends. -/
theorem Quiet.queInLoop (hs : s.Quiet fds) (me t : Fin (n + 1)) : (s.queInLoop me t .functor).Quiet fds := by
  unfold Loops.queInLoop
  split
  · rename_i l hl
    have hw := hs.workers t
    have hpending : l.pendingList = (s.workers t).loop.pendingList ++ [.functor] := by
      by_cases hme : (me : Nat) = (s.workers t).loop.tid
      · rw [hme, Eventloop.queInLoop_self] at hl
        cases hl
        split
        · exact Eventloop.wakeUp_pendingList _
        · rfl
      · rw [Eventloop.queInLoop_other hme] at hl
        cases hl
    refine hs.setWorker ⟨hw.poll, hw.dispatched, hw.batch, ?_, hw.cont⟩ (hs.establishing t)
    intro task htask
    simp only [hpending, List.mem_append, List.mem_singleton] at htask
    exact htask.elim (hw.pending task) id
  · exact ⟨hs.workers, hs.held, hs.listed, hs.establishing, hs.fresh, hs.fds_open, hs.loops⟩

/-- The base thread accepts: the new connection gets a loop that is not its own. -/
theorem Quiet.accept (hs : s.Quiet fds) {r : Chan × Events} {rest : List (Chan × Events)} {fd : Nat} {address : String}
    {event : Events} (hpc : (s.workers 0).pc = .between (.dispatch (r :: rest)))
    (h : s.tcpserverConnection 0 fd address event (.dispatch rest) = some s') : s'.Quiet fds := by
  obtain ⟨hfd, heq⟩ := Option.ite_none_left_eq_some.mp h
  cases heq
  have hw := hs.workers 0
  have hnew : Quiet fds { s.setConn s.next (Tcpconn.new (.conn s.next) fd address event) with
      threadPoll := s.threadPoll.getNextLoop.2
      ioLoop := Function.update s.ioLoop s.next s.threadPoll.getNextLoop.1
      next := s.next + 1
      tcpconnList := insert s.next s.tcpconnList
      openFds := insert fd s.openFds } := by
    refine ⟨hs.workers, hs.held, ?_, ?_, ?_, hs.fds_open.trans (Finset.subset_insert _ _), ?_⟩
    · intro c hc
      by_cases heq : c = s.next
      · exact heq ▸ Finset.mem_insert_self _ _
      · simp only [setConn, Function.update_of_ne heq] at hc
        exact Finset.mem_insert_of_mem (hs.listed c hc)
    · intro t c p hpc
      by_cases heq : c = s.next
      · simp [setConn, heq]
      · simpa only [setConn, Function.update_of_ne heq] using hs.establishing t c p hpc
    · intro c conn hconn
      by_cases heq : c = s.next
      · subst heq
        simp only [setConn, Function.update_self, Option.some.injEq] at hconn
        subst hconn
        simp only [Function.update_self]
        exact ⟨hs.loops.2 _ (Threadpoll.getNextLoop_mem hs.loops.1), fun hmem => hfd (hs.fds_open hmem)⟩
      · simp only [setConn, Function.update_of_ne heq] at hconn ⊢
        exact hs.fresh c conn hconn
    · rw [Threadpoll.loopList_getNextLoop]
      exact hs.loops
  refine hnew.setWorker ⟨hw.poll, ?_, fun _ h => (List.not_mem_nil h).elim, hw.pending, ?_⟩ ?_
  · intro r' hr'
    refine hw.dispatched r' ?_
    rw [hpc]
    exact List.mem_cons_of_mem _ hr'
  · intro k p hk
    cases hk
    exact Or.inr ⟨rfl, _, rfl⟩
  · intro c p hk
    cases hk
    simp [setConn]

/-- No connection is in the hands of the user's code. -/
theorem Quiet.userCall (hs : s.Quiet fds) (c : ConnId) (f : Tcpconn Chan → Option (Loops n)) :
    s.userCall me c f = none := by
  have hheld : c ∉ s.held := by
    rw [hs.held]
    exact Finset.notMem_empty c
  unfold Loops.userCall
  split
  · rename_i arg p hpc
    rcases (hs.workers me).cont _ p hpc with hback | ⟨-, c', hest⟩
    · cases hback
      exact if_neg fun h => h.elim hheld fun h => by cases h
    · cases hest
  · exact if_neg hheld
  · rfl

theorem Quiet.handleEvent (hs : s.Quiet fds) {ch : Chan} {revent : Events} {rest : List (Chan × Events)} {io : Io}
    (hpc : (s.workers me).pc = .between (.dispatch ((ch, revent) :: rest)))
    (h : s.handleEvent me ch revent io (.dispatch rest) = some s') :
    s'.Quiet fds ∧ (s'.tcpconnList ≠ s.tcpconnList → me = 0) := by
  have hw := hs.workers me
  have hgoTo : ∀ pc : ServerPc, pc.channelList = rest → pc.batch = [] → (∀ k p, pc = .user k p → k = .back none) →
      (s.goTo me pc).Quiet fds := by
    intro pc hlist hbatch hcont
    refine hs.goTo ?_ ?_ hcont
    · rw [hlist, hpc]
      exact List.subset_cons_self _ _
    · rw [hbatch]
      exact List.nil_subset _
  have hch := hw.dispatched (ch, revent) (by rw [hpc]; exact List.mem_cons_self)
  rcases hch with hch | hch | ⟨hch, rfl⟩ <;> subst hch <;> simp only [Loops.handleEvent] at h
  · cases h
    refine ⟨hs.setWorker ⟨hw.poll, ?_, fun _ h => (List.not_mem_nil h).elim, hw.pending, fun _ _ h => by cases h⟩
      (fun _ _ h => by cases h), fun h => absurd rfl h⟩
    intro r hr
    refine hw.dispatched r ?_
    rw [hpc]
    exact List.mem_cons_of_mem _ hr
  · cases h
    exact ⟨hgoTo _ rfl rfl (fun k p h => by cases h; rfl), fun h => absurd rfl h⟩
  · split at h
    · cases h
      exact ⟨hgoTo _ rfl rfl (fun k p h => by cases h), fun h => absurd rfl h⟩
    · exact ⟨hs.accept hpc h, fun _ => rfl⟩

theorem tcpconnList_queInLoop (s : Loops n) (me t : Fin (n + 1)) (task : ServerTask) :
    (s.queInLoop me t task).tcpconnList = s.tcpconnList := by
  unfold Loops.queInLoop
  split <;> rfl

/-- A step that establishes no connection leaves it so, and only the base thread changes `tcpconnList`. -/
theorem Quiet.step (hs : s.Quiet fds) (hest : ¬ s.Establishes e) (h : machine.step s e = some s') :
    s'.Quiet fds ∧ (s'.tcpconnList ≠ s.tcpconnList → e.1 = 0) := by
  obtain ⟨me, ev⟩ := e
  simp only [machine, Loops.step, Option.ite_none_right_eq_some] at h
  obtain ⟨hexited, hact⟩ := h
  have hw := hs.workers me
  cases ev with
  | poll reported =>
    simp only [act] at hact
    split at hact
    · obtain ⟨hrep, heq⟩ := Option.ite_none_right_eq_some.mp hact
      cases heq
      refine ⟨hs.setWorker ⟨hw.poll, ?_, (fun _ h => (List.not_mem_nil h).elim), hw.pending,
        (fun _ _ h => by cases h)⟩ (fun _ _ h => by cases h), fun h => absurd rfl h⟩
      intro r hr
      obtain ⟨-, ⟨entry, hentry, hptr, -⟩, -⟩ := hrep.2.2 r hr
      rw [hw.poll] at hentry
      rw [← hptr]
      exact startPoll_registered hentry
    · cases hact
  | handle io =>
    simp only [act] at hact
    split at hact
    · rename_i ch revent rest hpc
      exact hs.handleEvent hpc hact
    · cases hact
  | doPendingFunc =>
    simp only [act] at hact
    split at hact
    · cases hact
      exact ⟨hs.setWorker ⟨hw.poll, (fun _ h => (List.not_mem_nil h).elim), hw.pending,
        (fun _ h => (List.not_mem_nil h).elim), (fun _ _ h => by cases h)⟩ (fun _ _ h => by cases h),
        fun h => absurd rfl h⟩
    · cases hact
  | runTask =>
    simp only [act] at hact
    split at hact
    · rename_i task rest hpc
      have htask := hw.batch task (by rw [hpc]; exact List.mem_cons_self)
      subst htask
      cases hact
      refine ⟨hs.goTo (List.nil_subset _) ?_ (fun k p h => by cases h; rfl), fun h => absurd rfl h⟩
      rw [hpc]
      exact List.subset_cons_self _ _
    · cases hact
  | endPendingFunc =>
    simp only [act] at hact
    split at hact
    · cases hact
      have hnext := hs.setWorker (w := { s.workers me with
          loop := { (s.workers me).loop with callingPendingFunc := false }, funcList := [], pc := .wait })
        ⟨hw.poll, (fun _ h => (List.not_mem_nil h).elim), (fun _ h => (List.not_mem_nil h).elim), hw.pending,
          (fun _ _ h => by cases h)⟩ (fun _ _ h => by cases h)
      rw [endPendingFunc, hnext.sweep_eq]
      exact ⟨hnext, fun h => absurd rfl h⟩
    · cases hact
  | connectDestroyed c | shutdown c | send c str ret =>
    simp only [act, hs.userCall] at hact
    cases hact
  | queInLoop t =>
    simp only [act] at hact
    split at hact
    · cases hact
      exact ⟨hs.queInLoop me t, fun h => absurd (tcpconnList_queInLoop s me t _) h⟩
    · cases hact
  | drop c =>
    simp only [act] at hact
    split at hact
    · cases hact
      have hnext : Quiet fds { s with held := s.held.erase c } :=
        ⟨hs.workers, by rw [hs.held, Finset.erase_empty], hs.listed, hs.establishing, hs.fresh, hs.fds_open, hs.loops⟩
      rw [hnext.sweep_eq]
      exact ⟨hnext, fun h => absurd rfl h⟩
    · cases hact
  | ret =>
    simp only [act] at hact
    split at hact
    · rename_i k p hpc
      cases hact
      rcases hw.cont k p hpc with rfl | ⟨-, c, rfl⟩
      · have hnext : (s.goTo me (.between p)).Quiet fds := by
          refine hs.goTo ?_ ?_ (fun _ _ h => by cases h)
          · rw [hpc]
            exact List.Subset.refl _
          · rw [hpc]
            exact List.Subset.refl _
        rw [Loops.ret, hnext.sweep_eq]
        exact ⟨hnext, fun h => absurd rfl h⟩
      · exact absurd ⟨hexited, rfl, c, p, hpc⟩ hest
    · cases hact

/-- A step that establishes a connection registers it, on the base thread, in the loop of another. -/
theorem Quiet.not_confined (hs : s.Quiet fds) (hest : s.Establishes e) (keeper : Fin (n + 1)) :
    ¬ s.Confined keeper e := by
  obtain ⟨me, ev⟩ := e
  obtain ⟨hexited, rfl, c, p, hpc⟩ := hest
  obtain ⟨conn, hconn⟩ := Option.ne_none_iff_exists'.mp (hs.establishing me c p hpc)
  obtain ⟨hne, hfresh⟩ := hs.fresh c conn hconn
  have hme : me = 0 := by
    rcases (hs.workers me).cont _ p hpc with h | ⟨h, -⟩
    · cases h
    · exact h
  subst hme
  have hstep : machine.step s (0, .ret) = some (s.connectEstablished 0 c conn p) := by
    simp only [machine, Loops.step, hexited, if_true, act, hpc, ret, hconn]
  have hpoll : ((s.connectEstablished 0 c conn p).workers (s.ioLoop c)).poll =
      (conn.connectEstablished (s.workers (s.ioLoop c)).poll).2 := by
    simp only [connectEstablished, Loops.goTo, setPoll, Loops.setWorker, setConn, Function.update_of_ne hne,
      Function.update_self]
  have hlookup : (conn.connectEstablished (s.workers (s.ioLoop c)).poll).2.channelMap.lookup
      conn.socketChannel.index = some conn.socketChannel.self := by
    refine (Poll.channelMap_registEvennt _ _ _).trans ((if_pos rfl).trans ?_)
    rw [(hs.workers _).poll, startPoll_open hfresh]
    rfl
  intro hconfined
  refine hne.symm ((hconfined _ hstep).1 (s.ioLoop c) ?_)
  intro hsame
  rw [hpoll] at hsame
  rw [hsame, (hs.workers _).poll, startPoll_open hfresh] at hlookup
  cases hlookup

theorem Quiet.confined (hs : s.Quiet fds) (hest : ¬ s.Establishes e) : s.Confined 0 e := by
  intro s' h
  obtain ⟨hs', hlist⟩ := hs.step hest h
  refine ⟨?_, hlist⟩
  intro t hchange
  rw [(hs'.workers t).poll, (hs.workers t).poll] at hchange
  exact absurd rfl hchange

/-- Without I/O threads there is one thread. -/
theorem confined_base (s : Loops 0) (e : Fin 1 × LoopsEv 0) : s.Confined 0 e := by
  have hone : ∀ t t' : Fin 1, t = t' := fun t t' => Subsingleton.elim t t'
  exact fun s' _ => ⟨fun t _ => hone _ t, fun _ => hone _ 0⟩

/-- **The registries are confined** to one thread each, over a run, exactly when there is no I/O thread or no connection
of the run is established. -/
theorem confined_iff (n : Nat) (fds : LoopFds n) (cb : CloseCallBack) (es : List (Fin (n + 1) × LoopsEv n)) :
    (∃ keeper, machine.Meets (Confined keeper) (new n fds cb) es) ↔
      n = 0 ∨ machine.Meets (fun s e => ¬ s.Establishes e) (new n fds cb) es := by
  constructor
  · rintro ⟨keeper, h⟩
    rcases Nat.eq_zero_or_pos n with hn | hn
    · exact Or.inl hn
    · have hnot : ∀ s e, Quiet fds s → s.Confined keeper e → ¬ s.Establishes e :=
        fun s e hs hconfined hest => hs.not_confined hest keeper hconfined
      exact Or.inr (h.imp (fun s e s' hs hC hstep => (hs.step (hnot s e hs hC) hstep).1) hnot (quiet_new hn fds cb))
  · intro h
    rcases Nat.eq_zero_or_pos n with rfl | hn
    · exact ⟨0, machine.meets_of_forall (fun s e _ => s.confined_base e) _⟩
    · have hmeets := h.resolve_left (Nat.pos_iff_ne_zero.mp hn)
      exact ⟨0, hmeets.imp (fun s e s' hs hC hstep => (hs.step hC hstep).1) (fun s e hs hC => hs.confined hC)
        (quiet_new hn fds cb)⟩

/-- Two loops, on the descriptors 3, 5 and 4, 6, and the acceptor on 7. -/
def smallFds : LoopFds 1 := ⟨fun t => t + 3, fun t => t + 5, 7⟩

/-- The base thread accepts a connection on descriptor 8. -/
def acceptEight : List (Fin 2 × LoopsEv 1) :=
  [(0, .poll [(.acceptor, readEvent)]), (0, .handle ⟨some (8, "peer", 0), none, 0⟩), (0, .ret)]

/-- Its peer closes it, and the I/O thread removes it. -/
def closeEight : List (Fin 2 × LoopsEv 1) :=
  [(1, .poll [(.conn 0, closeEvent)]), (1, .handle ⟨none, none, 0⟩), (1, .ret), (1, .doPendingFunc)]

/-- The base thread inserts into the `channelMap` of the other loop, and the other thread erases from `tcpconnList`
what the base thread has inserted. -/
theorem not_confined_acceptEight :
    (¬ ∃ keeper, machine.Meets (Confined keeper) (new 1 smallFds .removeTcpConnInloop) acceptEight) ∧
      ∃ s s', machine.run (new 1 smallFds .removeTcpConnInloop) (acceptEight ++ closeEight) = some s ∧
        machine.step s (1, .runTask) = some s' ∧ s.tcpconnList = {0} ∧ s'.tcpconnList = ∅ := by
  constructor
  · rintro ⟨keeper, h⟩
    have hrun : ((machine.run (new 1 smallFds .removeTcpConnInloop) (acceptEight.take 2)).bind fun s =>
        (machine.step s (0, .ret)).map fun s' => ((s.workers 1).poll.channelMap.lookup 8,
          (s'.workers 1).poll.channelMap.lookup 8)) = some (none, some (.conn 0)) := by decide +kernel
    obtain ⟨s, hs, hnext⟩ := Option.bind_eq_some_iff.mp hrun
    obtain ⟨s', hs', heq⟩ := Option.map_eq_some_iff.mp hnext
    obtain ⟨hbefore, hafter⟩ := Prod.mk.inj heq
    have hsplit : acceptEight = acceptEight.take 2 ++ [(0, .ret)] := rfl
    rw [hsplit, machine.meets_append] at h
    have hlast := h.2 s hs
    have hthread : (0 : Fin 2) = 1 := (hlast.1 s' hs').1 1 fun hsame => by
      rw [hsame, hbefore] at hafter
      cases hafter
    exact absurd hthread (by decide)
  · have hrun : ((machine.run (new 1 smallFds .removeTcpConnInloop) (acceptEight ++ closeEight)).bind fun s =>
        (machine.step s (1, .runTask)).map fun s' => (s.tcpconnList, s'.tcpconnList)) = some ({0}, ∅) := by
      decide +kernel
    obtain ⟨s, hs, hnext⟩ := Option.bind_eq_some_iff.mp hrun
    obtain ⟨s', hs', heq⟩ := Option.map_eq_some_iff.mp hnext
    obtain ⟨hbefore, hafter⟩ := Prod.mk.inj heq
    exact ⟨s, s', hs, hs', hbefore, hafter⟩

end Loops

end NetImitate
