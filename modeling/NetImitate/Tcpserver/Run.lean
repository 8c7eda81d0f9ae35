import NetImitate.Library.Machine
import NetImitate.Tcpserver

/-!
# Runs of a server

One thread runs `loop()`: `epoll_wait`, the handlers of the reported channels, the pending tasks, and again. While a
callback of the user's runs (of a connection, of a timer, or a functor), it may call `ConnectDestroyed`, `Send` and
`Shutdown`, queue functors and drop connections it keeps.

* `Server.step`, `machine`;
* `Step`, `step_cases` : everything a step can do.
-/

namespace NetImitate

inductive ServerEv where
  /-- `epoll_wait` reports channels; no signal interrupts it. -/
  | poll (reported : List (Chan × Events))
  | handle (io : Io)
  | doPendingFunc
  | runTask
  | endPendingFunc
  | connectDestroyed (c : ConnId)
  | send (c : ConnId) (str : List UInt8) (ret : Int)
  | shutdown (c : ConnId)
  | queInLoop
  | drop (c : ConnId)
  | ret

/-- `EPOLLERR` and `EPOLLHUP`, which are reported whether asked for or not. -/
def unasked : Events := 0x18#32

namespace Server

/-- What `epoll_wait` may report: registered channels, each once, with events their mask allows. The descriptors that
are no connections are reported as readable. -/
def Reported (s : Server) (reported : List (Chan × Events)) : Prop :=
  reported ≠ [] ∧ (reported.map Prod.fst).Nodup ∧ ∀ r ∈ reported, r.2 ≠ 0 ∧
    (∃ e ∈ s.poll.epfd.entries, e.2.ptr = r.1 ∧ r.2 &&& ~~~(e.2.events ||| unasked) = 0) ∧
    (r.1 ∈ [.wakeup, .timerfd, .acceptor] → r.2 = readEvent)

instance (s : Server) (reported : List (Chan × Events)) : Decidable (s.Reported reported) := by
  unfold Reported
  infer_instance

/-- The user's code has a `shared_ptr` to the connection: one it keeps, or the argument of the running callback. -/
def Holds (s : Server) (c : ConnId) : Prop := c ∈ s.held ∨ s.pc.arg = some c

instance (s : Server) (c : ConnId) : Decidable (s.Holds c) := by
  unfold Holds
  infer_instance

/-- A call from the user's code on a connection that is in memory. -/
def userCall (s : Server) (c : ConnId) (f : Tcpconn Chan → Option Server) : Option Server :=
  match s.pc with
  | .user _ _ => (s.conns c).bind f
  | _ => none

def step (s : Server) : ServerEv → Option Server
  | .poll reported => match s.pc with
    | .wait => if s.Reported reported then some { s with pc := .between (.dispatch reported) } else none
    | _ => none
  | .handle io => match s.pc with
    | .between (.dispatch ((ch, revent) :: rest)) => s.handleEvent ch revent io (.dispatch rest)
    | _ => none
  | .doPendingFunc => match s.pc with
    | .between (.dispatch []) => some s.doPendingFunc
    | _ => none
  | .runTask => match s.pc with
    | .between (.drain (t :: rest)) => some (s.runTask t rest)
    | _ => none
  | .endPendingFunc => match s.pc with
    | .between (.drain []) => some s.endPendingFunc
    | _ => none
  | .connectDestroyed c => s.userCall c fun conn => some (s.connectDestroyed c conn)
  | .send c str ret => if s.Holds c then s.userCall c fun conn => s.send c conn str ret else none
  | .shutdown c => if s.Holds c then s.userCall c fun conn => some (s.shutdown c conn) else none
  | .queInLoop => match s.pc with
    | .user _ _ => some (s.queInLoop .functor)
    | _ => none
  | .drop c => match s.pc with
    | .user _ _ => some { s with held := s.held.erase c }.sweep
    | _ => none
  | .ret => match s.pc with
    | .user k p => some (s.ret k p)
    | _ => none

def machine : Machine Server ServerEv := ⟨step⟩

/-! ## Everything a step can do -/

/-- The connection `conn` is in memory, and a handler of it runs for the events `revent`. -/
structure Handles (s : Server) (c : ConnId) (revent : Events) (rest : List (Chan × Events)) (conn : Tcpconn Chan) :
    Prop where
  pc : s.pc = .between (.dispatch ((.conn c, revent) :: rest))
  conn : s.conns c = some conn

/-- The user's code runs and has called into the connection. -/
structure Called (s : Server) (c : ConnId) (k : Cont) (p : Place) (conn : Tcpconn Chan) : Prop where
  pc : s.pc = .user k p
  conn : s.conns c = some conn

inductive Step (s : Server) : ServerEv → Server → Prop
  | poll {reported : List (Chan × Events)} (hpc : s.pc = .wait) (hrep : s.Reported reported) :
      Step s (.poll reported) { s with pc := .between (.dispatch reported) }
  | wakeup {revent : Events} {rest : List (Chan × Events)} {io : Io}
      (hpc : s.pc = .between (.dispatch ((.wakeup, revent) :: rest))) :
      Step s (.handle io) { s with loop := s.loop.handleRead, pc := .between (.dispatch rest) }
  | timerfd {revent : Events} {rest : List (Chan × Events)} {io : Io}
      (hpc : s.pc = .between (.dispatch ((.timerfd, revent) :: rest))) :
      Step s (.handle io) { s with pc := .user (.back none) (.dispatch rest) }
  | acceptFailed {revent : Events} {rest : List (Chan × Events)} {io : Io}
      (hpc : s.pc = .between (.dispatch ((.acceptor, revent) :: rest))) (hio : io.accepted = none) :
      Step s (.handle io) { s with pc := .between (.dispatch rest) }
  | accept {revent : Events} {rest : List (Chan × Events)} {io : Io} {fd : Nat} {address : String} {event : Events}
      {s' : Server} (hpc : s.pc = .between (.dispatch ((.acceptor, revent) :: rest)))
      (hio : io.accepted = some (fd, address, event))
      (haccept : s.tcpserverConnection fd address event (.dispatch rest) = some s') : Step s (.handle io) s'
  | handleFault {c : ConnId} {revent : Events} {rest : List (Chan × Events)} {io : Io}
      (hpc : s.pc = .between (.dispatch ((.conn c, revent) :: rest))) (hconn : s.conns c = none) :
      Step s (.handle io) { s with pc := .fault }
  | closeEvent {c : ConnId} {revent : Events} {rest : List (Chan × Events)} {io : Io} {conn : Tcpconn Chan}
      (hh : s.Handles c revent rest conn) (hev : Channel.handleEvent revent = some .cbShutdown) :
      Step s (.handle io) (s.handleClose c conn (.dispatch rest))
  | read {c : ConnId} {revent : Events} {rest : List (Chan × Events)} {io : Io} {conn : Tcpconn Chan} {s' : Server}
      (hh : s.Handles c revent rest conn) (hev : Channel.handleEvent revent = some .cbRead)
      (hread : s.handleRead c conn io.read (.dispatch rest) = some s') : Step s (.handle io) s'
  | write {c : ConnId} {revent : Events} {rest : List (Chan × Events)} {io : Io} {conn : Tcpconn Chan} {s' : Server}
      (hh : s.Handles c revent rest conn) (hev : Channel.handleEvent revent = some .cbWrite)
      (hwrite : s.handleWrite c conn io.write (.dispatch rest) = some s') : Step s (.handle io) s'
  | noCallBack {c : ConnId} {revent : Events} {rest : List (Chan × Events)} {io : Io} {conn : Tcpconn Chan}
      (hh : s.Handles c revent rest conn) (hev : Channel.handleEvent revent = none) :
      Step s (.handle io) { s with pc := .between (.dispatch rest) }
  | doPendingFunc (hpc : s.pc = .between (.dispatch [])) : Step s .doPendingFunc s.doPendingFunc
  | functorTask {rest : List ServerTask} (hpc : s.pc = .between (.drain (.functor :: rest))) :
      Step s .runTask { s with pc := .user (.back none) (.drain rest) }
  | removeTask {c : ConnId} {rest : List ServerTask} (hpc : s.pc = .between (.drain (.removeTcpConn c :: rest))) :
      Step s .runTask { s.removeTcpConn c with pc := .between (.drain rest) }
  | closeTask {c : ConnId} {rest : List ServerTask} {conn : Tcpconn Chan}
      (hpc : s.pc = .between (.drain (.handleClose c :: rest))) (hconn : s.conns c = some conn) :
      Step s .runTask (s.handleClose c conn (.drain rest))
  | closeFault {c : ConnId} {rest : List ServerTask} (hpc : s.pc = .between (.drain (.handleClose c :: rest)))
      (hconn : s.conns c = none) : Step s .runTask { s with pc := .fault }
  | endPendingFunc (hpc : s.pc = .between (.drain [])) : Step s .endPendingFunc s.endPendingFunc
  | connectDestroyed {c : ConnId} {k : Cont} {p : Place} {conn : Tcpconn Chan} (hcall : s.Called c k p conn) :
      Step s (.connectDestroyed c) (s.connectDestroyed c conn)
  | send {c : ConnId} {str : List UInt8} {ret : Int} {k : Cont} {p : Place} {conn : Tcpconn Chan} {s' : Server}
      (hcall : s.Called c k p conn) (hholds : s.Holds c) (hsend : s.send c conn str ret = some s') :
      Step s (.send c str ret) s'
  | shutdown {c : ConnId} {k : Cont} {p : Place} {conn : Tcpconn Chan} (hcall : s.Called c k p conn)
      (hholds : s.Holds c) : Step s (.shutdown c) (s.shutdown c conn)
  | queInLoop {k : Cont} {p : Place} (hpc : s.pc = .user k p) : Step s .queInLoop (s.queInLoop .functor)
  | drop {c : ConnId} {k : Cont} {p : Place} (hpc : s.pc = .user k p) :
      Step s (.drop c) { s with held := s.held.erase c }.sweep
  | back {arg : Option ConnId} {p : Place} (hpc : s.pc = .user (.back arg) p) :
      Step s .ret { s with pc := .between p }.sweep
  | established {c : ConnId} {p : Place} {conn : Tcpconn Chan} (hcall : s.Called c (.connectEstablished c) p conn) :
      Step s .ret { s.setConn c (conn.connectEstablished s.poll).1 with
        poll := (conn.connectEstablished s.poll).2, pc := .between p }
  | closed {c : ConnId} {p : Place} {conn : Tcpconn Chan} (hcall : s.Called c (.handleClose c) p conn) :
      Step s .ret (s.handleCloseRest c conn p)
  | retFault {c : ConnId} {k : Cont} {p : Place} (hpc : s.pc = .user k p)
      (hk : k = .connectEstablished c ∨ k = .handleClose c) (hconn : s.conns c = none) :
      Step s .ret { s with pc := .fault }

theorem userCall_some {s s' : Server} {c : ConnId} {f : Tcpconn Chan → Option Server} (h : s.userCall c f = some s') :
    ∃ k p conn, s.Called c k p conn ∧ f conn = some s' := by
  unfold userCall at h
  split at h
  · rename_i k p hpc
    obtain ⟨conn, hconn, hf⟩ := Option.bind_eq_some_iff.mp h
    exact ⟨k, p, conn, ⟨hpc, hconn⟩, hf⟩
  · cases h

theorem handleEvent_cases {s s' : Server} {ch : Chan} {revent : Events} {rest : List (Chan × Events)} {io : Io}
    (hpc : s.pc = .between (.dispatch ((ch, revent) :: rest)))
    (h : s.handleEvent ch revent io (.dispatch rest) = some s') : Step s (.handle io) s' := by
  cases ch with
  | wakeup =>
    cases h
    exact .wakeup hpc
  | timerfd =>
    cases h
    exact .timerfd hpc
  | acceptor =>
    simp only [handleEvent] at h
    split at h
    · rename_i hio
      cases h
      exact .acceptFailed hpc hio
    · rename_i fd address event hio
      exact .accept hpc hio h
  | conn c =>
    simp only [handleEvent] at h
    split at h
    · rename_i hconn
      cases h
      exact .handleFault hpc hconn
    · rename_i conn hconn
      split at h <;> rename_i hev
      · cases h
        exact .closeEvent ⟨hpc, hconn⟩ hev
      · exact .read ⟨hpc, hconn⟩ hev h
      · exact .write ⟨hpc, hconn⟩ hev h
      · cases h
        exact .noCallBack ⟨hpc, hconn⟩ hev

theorem runTask_cases {s : Server} {t : ServerTask} {rest : List ServerTask}
    (hpc : s.pc = .between (.drain (t :: rest))) : Step s .runTask (s.runTask t rest) := by
  cases t with
  | functor => exact .functorTask hpc
  | removeTcpConn c => exact .removeTask hpc
  | handleClose c =>
    cases hconn : s.conns c with
    | none =>
      simp only [runTask, hconn]
      exact .closeFault hpc hconn
    | some conn =>
      simp only [runTask, hconn]
      exact .closeTask hpc hconn

theorem ret_cases {s : Server} {k : Cont} {p : Place} (hpc : s.pc = .user k p) : Step s .ret (s.ret k p) := by
  cases k with
  | back arg => exact .back hpc
  | connectEstablished c =>
    cases hconn : s.conns c with
    | none =>
      simp only [ret, hconn]
      exact .retFault hpc (Or.inl rfl) hconn
    | some conn =>
      simp only [ret, hconn]
      exact .established ⟨hpc, hconn⟩
  | handleClose c =>
    cases hconn : s.conns c with
    | none =>
      simp only [ret, hconn]
      exact .retFault hpc (Or.inr rfl) hconn
    | some conn =>
      simp only [ret, hconn]
      exact .closed ⟨hpc, hconn⟩

theorem step_cases {s s' : Server} {e : ServerEv} (h : machine.step s e = some s') : Step s e s' := by
  cases e <;> simp only [machine, step] at h
  case poll reported =>
    split at h
    · rename_i hpc
      split at h
      · rename_i hrep
        cases h
        exact .poll hpc hrep
      · cases h
    · cases h
  case handle io =>
    split at h
    · rename_i ch revent rest hpc
      exact handleEvent_cases hpc h
    · cases h
  case doPendingFunc =>
    split at h
    · rename_i hpc
      cases h
      exact .doPendingFunc hpc
    · cases h
  case runTask =>
    split at h
    · rename_i t rest hpc
      cases h
      exact runTask_cases hpc
    · cases h
  case endPendingFunc =>
    split at h
    · rename_i hpc
      cases h
      exact .endPendingFunc hpc
    · cases h
  case connectDestroyed c =>
    obtain ⟨k, p, conn, hcall, hf⟩ := userCall_some h
    cases hf
    exact .connectDestroyed hcall
  case send c str ret =>
    split at h
    · rename_i hholds
      obtain ⟨k, p, conn, hcall, hf⟩ := userCall_some h
      exact .send hcall hholds hf
    · cases h
  case shutdown c =>
    split at h
    · rename_i hholds
      obtain ⟨k, p, conn, hcall, hf⟩ := userCall_some h
      cases hf
      exact .shutdown hcall hholds
    · cases h
  case queInLoop =>
    split at h
    · rename_i k p hpc
      cases h
      exact .queInLoop hpc
    · cases h
  case drop c =>
    split at h
    · rename_i k p hpc
      cases h
      exact .drop hpc
    · cases h
  case ret =>
    split at h
    · rename_i k p hpc
      cases h
      exact ret_cases hpc
    · cases h

end Server

end NetImitate
