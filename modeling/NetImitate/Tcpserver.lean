import NetImitate.Eventloop
import NetImitate.Tcpconn

/-!
# `Tcpserver`: a server on one loop

The server with its loop, the loop's poller, every connection object in memory, the connections the user's code holds
a `shared_ptr` to, and the open descriptors. The functions that call back into user code stop there: `ServerPc.user`
says what is still to be done once that code returns.

* `tcpserverConnection`, `handleRead`, `handleWrite`, `handleClose`, `connectDestroyed`, `removeTcpConn`;
* `handleEvent` : the callbacks of a channel that `epoll_wait` has reported;
* `referenced`, `sweep` : the connections nothing refers to any more are destroyed, which closes their descriptors.
-/

namespace NetImitate

/-- A connection object, by the order in which they were made. -/
abbrev ConnId := Nat

/-- The channels of a loop, by what owns them. -/
inductive Chan where
  | wakeup
  | timerfd
  | acceptor
  | conn (c : ConnId)
deriving DecidableEq

/-- What the server's calls put into `pendingList`. -/
inductive ServerTask where
  /-- `Tcpconn::handleClose` bound to a raw pointer. -/
  | handleClose (c : ConnId)
  /-- `Tcpserver::RemoveTcpConn` bound to a `shared_ptr`. -/
  | removeTcpConn (c : ConnId)
  /-- A functor of the user's. -/
  | functor
deriving DecidableEq

/-- A place between two handlers or two tasks, with what is still to come. -/
inductive Place where
  | dispatch (channelList : List (Chan × Events))
  | drain (rest : List ServerTask)
deriving DecidableEq

/-- What follows when the user's code returns. -/
inductive Cont where
  /-- Nothing; the callback may have a connection as its argument. -/
  | back (arg : Option ConnId)
  /-- The rest of `ConnectEstablished`. -/
  | connectEstablished (c : ConnId)
  /-- The rest of `handleClose`. -/
  | handleClose (c : ConnId)
deriving DecidableEq

inductive ServerPc where
  /-- At `epoll_wait`. -/
  | wait
  | between (p : Place)
  | user (k : Cont) (p : Place)
  /-- A destroyed connection was used. -/
  | fault
deriving DecidableEq

/-- The tasks of the batch that have not been started. -/
def Place.batch : Place → List ServerTask
  | .dispatch _ => []
  | .drain rest => rest

def ServerPc.batch : ServerPc → List ServerTask
  | .between p | .user _ p => p.batch
  | _ => []

/-- The reported channels that are still to be handled. -/
def Place.channelList : Place → List (Chan × Events)
  | .dispatch channelList => channelList
  | .drain _ => []

def ServerPc.channelList : ServerPc → List (Chan × Events)
  | .between p | .user _ p => p.channelList
  | _ => []

/-- The connection the running callback got as its argument. -/
def ServerPc.arg : ServerPc → Option ConnId
  | .user (.back arg) _ => arg
  | _ => none

/-- A call of one of the user's callbacks. -/
inductive Callback where
  | connectionCallBack (c : ConnId) (state : KState)
  | msgCallBack (c : ConnId)
  | closeCallback (c : ConnId)
deriving DecidableEq

/-- The close callback in use: the one `Start` sets by default, or the user's. -/
inductive CloseCallBack where
  | removeTcpConnInloop
  | user
deriving DecidableEq

/-- The descriptors the loop and the acceptor work on. -/
structure BaseFds where
  wakeupFd : Nat
  timerfd : Nat
  acceptFd : Nat
  distinct : [wakeupFd, timerfd, acceptFd].Nodup

/-- What the system calls of a handler return: the accepted descriptor with the peer's address and the unset `event`
field of its channel, the chunk of a read, the result of a write. -/
structure Io where
  accepted : Option (Nat × String × Events)
  read : Option (List UInt8)
  write : Int

structure Server where
  base : BaseFds
  tcpCloseCallBack : CloseCallBack
  loop : Eventloop ServerTask
  poll : Poll Chan
  /-- The connection objects in memory. -/
  conns : ConnId → Option (Tcpconn Chan)
  next : ConnId
  tcpconnList : Finset ConnId
  /-- The connections the user's code holds. -/
  held : Finset ConnId
  openFds : Finset Nat
  /-- The batch of `DoPendingFunc`, kept in memory to its end. -/
  funcList : List ServerTask
  pc : ServerPc
  log : List Callback

namespace Server

/-- `Init` of the loop and its timer queue, then `Listen`. -/
def startPoll (base : BaseFds) : Poll Chan :=
  let p := ((Channel.new .wakeup base.wakeupFd 0).enableReading Poll.empty).2
  let p := ((Channel.new .timerfd base.timerfd 0).enableReading p).2
  ((Channel.new .acceptor base.acceptFd 0).enableReading p).2

/-- A started server, its loop about to poll. -/
def new (base : BaseFds) (tid : Tid) (cb : CloseCallBack) : Server where
  base := base
  tcpCloseCallBack := cb
  loop := Eventloop.new tid
  poll := startPoll base
  conns := fun _ => none
  next := 0
  tcpconnList := ∅
  held := ∅
  openFds := {base.wakeupFd, base.timerfd, base.acceptFd}
  funcList := []
  pc := .wait
  log := []

def setConn (s : Server) (c : ConnId) (conn : Tcpconn Chan) : Server :=
  { s with conns := Function.update s.conns c (some conn) }

/-- `queInLoop` on the loop's own thread. -/
def queInLoop (s : Server) (t : ServerTask) : Server :=
  { s with loop := (s.loop.queInLoop s.loop.tid t).toOption.getD s.loop }

/-! ## References -/

/-- Something holds a `shared_ptr` to the connection. -/
def referenced (s : Server) (c : ConnId) : Bool :=
  decide (c ∈ s.tcpconnList) || decide (c ∈ s.held) || decide (.removeTcpConn c ∈ s.loop.pendingList) ||
    decide (.removeTcpConn c ∈ s.funcList) || decide (s.pc.arg = some c)

/-- The destructor closes the descriptor, which takes it out of the interest list. -/
def destroy (s : Server) (c : ConnId) : Server :=
  match s.conns c with
  | none => s
  | some conn =>
    let fd := conn.connectSocket.socketfd
    { s with
      conns := Function.update s.conns c none
      openFds := s.openFds.erase fd
      poll := { s.poll with epfd := Epoll.ctlDel s.poll.epfd fd } }

/-- References have been dropped: connections without one are destroyed. -/
def sweep (s : Server) : Server := ((List.range s.next).filter fun c => !s.referenced c).foldl destroy s

/-! ## The connection's functions -/

/-- `ConnectDestroyed`. -/
def connectDestroyed (s : Server) (c : ConnId) (conn : Tcpconn Chan) : Server :=
  if conn.state = .kClosed then s else s.queInLoop (.handleClose c)

/-- `handleClose` up to its `connectionCallBack`. -/
def handleClose (s : Server) (c : ConnId) (conn : Tcpconn Chan) (p : Place) : Server :=
  let s := s.setConn c { conn with state := .kClosed }
  { s with pc := .user (.handleClose c) p, log := s.log ++ [.connectionCallBack c .kClosed] }

/-- `DisableAll`, `RemoveChannel` and the call of the close callback. -/
def unregister (s : Server) (c : ConnId) (conn : Tcpconn Chan) : Server :=
  let r := conn.socketChannel.disableAll s.poll
  { s.setConn c { conn with socketChannel := r.1 } with
    poll := r.2.removeChannel r.1
    log := s.log ++ [.closeCallback c] }

/-- The rest of `handleClose`; the default close callback is `RemoveTcpConnInloop`. -/
def handleCloseRest (s : Server) (c : ConnId) (conn : Tcpconn Chan) (p : Place) : Server :=
  let s' := s.unregister c conn
  match s.tcpCloseCallBack with
  | .removeTcpConnInloop => { s'.queInLoop (.removeTcpConn c) with pc := .between p }
  | .user => { s' with held := insert c s'.held, pc := .user (.back (some c)) p }

/-- The message callback gets a `shared_ptr` it may keep. -/
def msgCallBack (s : Server) (c : ConnId) (p : Place) : Server :=
  { s with held := insert c s.held, pc := .user (.back (some c)) p, log := s.log ++ [Callback.msgCallBack c] }

def handleRead (s : Server) (c : ConnId) (conn : Tcpconn Chan) (read : Option (List UInt8)) (p : Place) :
    Option Server :=
  (conn.inBuffer.readToBuf read).map fun r =>
    let conn := { conn with inBuffer := r.2 }
    let s := s.setConn c conn
    if r.1 = -1 then s.handleClose c conn p
    else if r.1 = 0 then (s.connectDestroyed c conn).msgCallBack c p
    else s.msgCallBack c p

def handleWrite (s : Server) (c : ConnId) (conn : Tcpconn Chan) (ret : Int) (p : Place) : Option Server :=
  (conn.handleWrite s.poll ret).map fun w => { s.setConn c w.conn with poll := w.poll, pc := .between p }

/-- `Send` on the loop's own thread. -/
def send (s : Server) (c : ConnId) (conn : Tcpconn Chan) (str : List UInt8) (ret : Int) : Option Server :=
  (conn.sendInLoop s.poll str ret).map fun w => { s.setConn c w.conn with poll := w.poll }

/-- `Shutdown` on the loop's own thread. -/
def shutdown (s : Server) (c : ConnId) (conn : Tcpconn Chan) : Server := s.setConn c conn.shutDownInloop

/-! ## The server's functions -/

/-- `tcpserverConnection` up to the `connectionCallBack` of `ConnectEstablished`; the kernel hands out a descriptor
that is not open. -/
def tcpserverConnection (s : Server) (fd : Nat) (address : String) (event : Events) (p : Place) : Option Server :=
  if fd ∈ s.openFds then none
  else
    let c := s.next
    some { s.setConn c (Tcpconn.new (.conn c) fd address event) with
      next := c + 1
      tcpconnList := insert c s.tcpconnList
      openFds := insert fd s.openFds
      pc := .user (.connectEstablished c) p
      log := s.log ++ [.connectionCallBack c .kConnected] }

def removeTcpConn (s : Server) (c : ConnId) : Server := { s with tcpconnList := s.tcpconnList.erase c }

/-- `HandleEvent` of a reported channel. -/
def handleEvent (s : Server) (ch : Chan) (revent : Events) (io : Io) (p : Place) : Option Server :=
  match ch with
  | .wakeup => some { s with loop := s.loop.handleRead, pc := .between p }
  | .timerfd => some { s with pc := .user (.back none) p }
  | .acceptor =>
    match io.accepted with
    | none => some { s with pc := .between p }
    | some (fd, address, event) => s.tcpserverConnection fd address event p
  | .conn c =>
    match s.conns c with
    | none => some { s with pc := .fault }
    | some conn =>
      match Channel.handleEvent revent with
      | some .cbShutdown => some (s.handleClose c conn p)
      | some .cbRead => s.handleRead c conn io.read p
      | some .cbWrite => s.handleWrite c conn io.write p
      | none => some { s with pc := .between p }

/-- The user's code returns. -/
def ret (s : Server) (k : Cont) (p : Place) : Server :=
  match k with
  | .back _ => { s with pc := .between p }.sweep
  | .connectEstablished c =>
    match s.conns c with
    | none => { s with pc := .fault }
    | some conn =>
      let r := conn.connectEstablished s.poll
      { s.setConn c r.1 with poll := r.2, pc := .between p }
  | .handleClose c =>
    match s.conns c with
    | none => { s with pc := .fault }
    | some conn => s.handleCloseRest c conn p

/-- `DoPendingFunc` up to its first task. -/
def doPendingFunc (s : Server) : Server :=
  let (funcList, loop) := s.loop.swapPending
  { s with
    loop := { loop with callingPendingFunc := true }
    funcList := funcList
    pc := .between (.drain funcList) }

/-- The next task of the batch. -/
def runTask (s : Server) (t : ServerTask) (rest : List ServerTask) : Server :=
  match t with
  | .functor => { s with pc := .user (.back none) (.drain rest) }
  | .removeTcpConn c => { s.removeTcpConn c with pc := .between (.drain rest) }
  | .handleClose c =>
    match s.conns c with
    | none => { s with pc := .fault }
    | some conn => s.handleClose c conn (.drain rest)

/-- The end of `DoPendingFunc`, which destroys the batch. -/
def endPendingFunc (s : Server) : Server :=
  { s with loop := { s.loop with callingPendingFunc := false }, funcList := [], pc := .wait }.sweep

/-! ## What the building blocks leave -/

theorem pendingList_queInLoop (s : Server) (t : ServerTask) :
    (s.queInLoop t).loop.pendingList = s.loop.pendingList ++ [t] := by
  simp only [queInLoop, Eventloop.queInLoop_self, Except.toOption, Option.getD_some]
  split
  · exact Eventloop.wakeUp_pendingList _
  · rfl

/-- `ConnectDestroyed` changes the loop alone. -/
theorem connectDestroyed_eq (s : Server) (c : ConnId) (conn : Tcpconn Chan) :
    ∃ loop, s.connectDestroyed c conn = { s with loop := loop } ∧
      ∀ t ∈ loop.pendingList, t ∈ s.loop.pendingList ∨ t = .handleClose c := by
  unfold connectDestroyed
  split
  · exact ⟨s.loop, rfl, fun t ht => Or.inl ht⟩
  · refine ⟨_, rfl, ?_⟩
    intro t ht
    have hpending := s.pendingList_queInLoop (.handleClose c)
    rw [queInLoop] at hpending
    rwa [hpending, List.mem_append, List.mem_singleton] at ht

@[simp] theorem pc_connectDestroyed (s : Server) (c : ConnId) (conn : Tcpconn Chan) :
    (s.connectDestroyed c conn).pc = s.pc := by
  obtain ⟨loop, h, -⟩ := s.connectDestroyed_eq c conn
  rw [h]

@[simp] theorem conns_connectDestroyed (s : Server) (c : ConnId) (conn : Tcpconn Chan) :
    (s.connectDestroyed c conn).conns = s.conns := by
  obtain ⟨loop, h, -⟩ := s.connectDestroyed_eq c conn
  rw [h]

@[simp] theorem log_connectDestroyed (s : Server) (c : ConnId) (conn : Tcpconn Chan) :
    (s.connectDestroyed c conn).log = s.log := by
  obtain ⟨loop, h, -⟩ := s.connectDestroyed_eq c conn
  rw [h]

theorem destroy_eq (s : Server) (c : ConnId) : ∃ openFds epfd, s.destroy c =
    { s with conns := Function.update s.conns c none, openFds := openFds, poll := { s.poll with epfd := epfd } } := by
  cases hconn : s.conns c with
  | none =>
    refine ⟨s.openFds, s.poll.epfd, ?_⟩
    simp only [destroy, hconn]
    rw [← hconn, Function.update_eq_self]
  | some conn =>
    simp only [destroy, hconn]
    exact ⟨_, _, rfl⟩

theorem referenced_destroy (s : Server) (c c' : ConnId) : (s.destroy c).referenced c' = s.referenced c' := by
  obtain ⟨openFds, epfd, h⟩ := s.destroy_eq c
  rw [h]
  rfl

/-- What the destruction of an unreferenced connection keeps, `sweep` keeps. -/
theorem sweep_induction {P : Server → Prop} {s : Server} (hs : P s)
    (hdestroy : ∀ t c, P t → t.referenced c = false → P (t.destroy c)) : P s.sweep := by
  have hfold : ∀ (cs : List ConnId) (t : Server), P t → (∀ c ∈ cs, t.referenced c = false) →
      P (cs.foldl destroy t) := by
    intro cs
    induction cs with
    | nil => exact fun t ht _ => ht
    | cons c cs ih =>
      intro t ht hcs
      refine ih (t.destroy c) (hdestroy t c ht (hcs c List.mem_cons_self)) ?_
      intro c' hc'
      rw [referenced_destroy]
      exact hcs c' (List.mem_cons_of_mem _ hc')
  refine hfold _ s hs ?_
  intro c hc
  have hnot := (List.mem_filter.mp hc).2
  simpa using hnot

end Server

end NetImitate
