import NetImitate.Eventloop.Rounds
import NetImitate.Eventloop.Wakeup
import NetImitate.Tcpserver.Cleanup

/-!
# A server runs on its loop

The server's steps are steps of the loop's thread: a reported channel is a handler, a callback of the user's is inside
one or inside a task.

* `submits`, `starts` : the tasks a step queues, and the one it runs;
* `ServerPc.loopPc` : where the loop's thread is;
* `loop_step` : every step of a server is a run of `Sys`;
* `server_refines_loop` : every run of a server is a run of its loop, with the tasks it queues and runs;
* `server_tasks_in_order`, `server_wakes` : what holds of the loop holds of the server.
-/

namespace NetImitate

/-- A reported channel, as the loop sees it. -/
def Chan.ready : Chan → Ready
  | .wakeup => .wakeup
  | _ => .other

/-- Between two handlers or two tasks. -/
def Place.loopPc : Place → Pc ServerTask
  | .dispatch channelList => .dispatch (channelList.map fun ch => ch.1.ready)
  | .drain rest => .drain rest

/-- Inside a handler or a task. -/
def Place.inside : Place → Pc ServerTask
  | .dispatch channelList => .handler (channelList.map fun ch => ch.1.ready)
  | .drain rest => .task rest

def ServerPc.loopPc : ServerPc → Pc ServerTask
  | .wait => .epollWait
  | .between p => p.loopPc
  | .user _ p => p.inside
  | .fault => .stopped

namespace Sys
variable {Task : Type} {t t1 t2 : Sys Task} {e : LoopEv Task} {q q' r r' rest : List Task} {ready : List Ready}

/-- Everything in `Step` is a step. -/
theorem Step.eq (h : Step t e t1) : machine.step t e = some t1 := by
  cases h with
  | check hpc hloop | stop hpc hloop => simp [machine, step, hpc, hloop]
  | epollReturn hpc hrep => simp [machine, step, hpc, hrep]
  | wakeup hpc | handler hpc | handlerReturn hpc | swap hpc | enter hpc | startTask hpc | taskReturn hpc | leave hpc =>
    simp [machine, step, hpc]
  | queInLoop hpc =>
    rcases hpc with ⟨rest, hpc⟩ | ⟨rest, hpc⟩ <;>
      simp [machine, step, hpc, queueStep, Eventloop.queInLoop_self, Except.toOption, queuedLoop]
  | quitClear => rfl
  | quitWakeUp hquit => exact if_pos hquit

/-- The loop goes from `t` to `t1`, on its way queues `q` and starts `r`. -/
def Goes (t : Sys Task) (q r : List Task) (t1 : Sys Task) : Prop :=
  ∃ fs, machine.run t fs = some t1 ∧ t1.enqueued = t.enqueued ++ q ∧ t1.started = t.started ++ r

theorem Goes.refl (t : Sys Task) : t.Goes [] [] t :=
  ⟨[], rfl, (List.append_nil _).symm, (List.append_nil _).symm⟩

theorem Goes.trans (h : t.Goes q r t1) (h' : t1.Goes q' r' t2) : t.Goes (q ++ q') (r ++ r') t2 := by
  obtain ⟨fs, hfs, hq, hr⟩ := h
  obtain ⟨fs', hfs', hq', hr'⟩ := h'
  refine ⟨fs ++ fs', ?_, ?_, ?_⟩
  · rw [Machine.run_append, hfs]
    exact hfs'
  · rw [hq', hq, List.append_assoc]
  · rw [hr', hr, List.append_assoc]

theorem Step.goes (h : Step t e t1) (hq : t1.enqueued = t.enqueued ++ q) (hr : t1.started = t.started ++ r) :
    t.Goes q r t1 :=
  ⟨[e], by rw [Machine.run_singleton, h.eq], hq, hr⟩

/-- A step that neither queues nor starts a task. -/
theorem Step.goesOn (h : Step t e t1) (hq : t1.enqueued = t.enqueued) (hr : t1.started = t.started) :
    t.Goes [] [] t1 :=
  h.goes (by rw [hq, List.append_nil]) (by rw [hr, List.append_nil])

end Sys

namespace Server
variable {s s' : Server} {e : ServerEv} {t : Sys ServerTask}

/-- The tasks a step queues. -/
def submits (s : Server) (e : ServerEv) : List ServerTask :=
  match e with
  | .queInLoop => [.functor]
  | .ret => match s.pc with
    | .user (.handleClose c) _ =>
      if s.conns c ≠ none ∧ s.tcpCloseCallBack = .removeTcpConnInloop then [.removeTcpConn c] else []
    | _ => []
  | e => match s.defersAt e with
    | none => []
    | some c => if s.stateOf c = some .kConnected then [.handleClose c] else []

/-- The task a step runs. -/
def starts (s : Server) : ServerEv → List ServerTask
  | .runTask => s.pc.batch.take 1
  | _ => []

/-- A handler of a destroyed connection queues nothing. -/
theorem submits_handleFault {c : ConnId} {revent : Events} {rest : List (Chan × Events)} {io : Io}
    (hpc : s.pc = .between (.dispatch ((.conn c, revent) :: rest))) (hconn : s.conns c = none) :
    s.submits (.handle io) = [] := by
  have hgone : ∀ c', s.defersAt (.handle io) = some c' → s.stateOf c' = none := by
    intro c' hdefers
    simp only [defersAt, hpc, Option.ite_none_right_eq_some, Option.some.injEq] at hdefers
    rw [← hdefers.2, stateOf, hconn, Option.map_none]
  cases hdefers : s.defersAt (.handle io) with
  | none => simp only [submits, hdefers]
  | some c' => simp only [submits, hdefers, hgone c' hdefers, reduceCtorEq, if_false]

theorem submits_retFault {c : ConnId} {k : Cont} {p : Place} (hpc : s.pc = .user k p)
    (hk : k = .connectEstablished c ∨ k = .handleClose c) (hconn : s.conns c = none) : s.submits .ret = [] := by
  rcases hk with rfl | rfl <;> simp [submits, hpc, hconn]

/-- The kernel reports the descriptor of the wakeup channel only while its counter is positive. -/
def WakesUp (s : Server) : ServerEv → Prop
  | .poll reported => .wakeup ∈ reported.map Prod.fst → 0 < s.loop.wakeupFd
  | _ => True

instance (s : Server) (e : ServerEv) : Decidable (s.WakesUp e) :=
  match e with
  | .poll reported => inferInstanceAs (Decidable (.wakeup ∈ reported.map Prod.fst → 0 < s.loop.wakeupFd))
  | .handle _ | .doPendingFunc | .runTask | .endPendingFunc | .connectDestroyed _ | .send _ _ _ | .shutdown _
  | .queInLoop | .drop _ | .ret => inferInstanceAs (Decidable True)

/-- The loop is where the server is. -/
structure OnLoop (s : Server) (t : Sys ServerTask) : Prop where
  loop : t.loop = s.loop
  pc : t.pc = s.pc.loopPc
  isLoop : s.loop.isLoop = true

/-- The loop takes the step, and queues and starts the tasks that the step does. -/
def Taken (s : Server) (e : ServerEv) (s' : Server) (t : Sys ServerTask) : Prop :=
  ∃ t', t.Goes (s.submits e) (s.starts e) t' ∧ (s'.pc ≠ .fault → s'.OnLoop t')

/-! ## Moves of the loop -/

theorem count_ready (chs : List Chan) : (chs.map Chan.ready).count .wakeup = chs.count .wakeup := by
  induction chs with
  | nil => rfl
  | cons ch chs ih => cases ch <;> simp [Chan.ready, ih]

/-- What `epoll_wait` may report to the server, it may report to the loop. -/
theorem OnLoop.reported {reported : List (Chan × Events)} (hs : s.OnLoop t) (hrep : s.Reported reported)
    (hwake : s.WakesUp (.poll reported)) : t.Reported (reported.map fun ch => ch.1.ready) := by
  have hmap : (reported.map fun ch => ch.1.ready) = (reported.map Prod.fst).map Chan.ready := by
    rw [List.map_map]
    rfl
  refine ⟨?_, ?_, ?_⟩
  · simpa using hrep.1
  · rw [hmap, count_ready]
    exact List.nodup_iff_count_le_one.mp hrep.2.1 .wakeup
  · intro hmem
    rw [hs.loop]
    refine hwake (List.count_pos_iff.mp ?_)
    rw [← count_ready, ← hmap]
    exact List.count_pos_iff.mpr hmem

/-- A handler is entered. -/
theorem goes_inside {ch : Chan × Events} {rest : List (Chan × Events)} (hready : ch.1.ready = .other)
    (hpc : t.pc = Place.loopPc (.dispatch (ch :: rest))) :
    t.Goes [] [] { t with pc := Place.inside (.dispatch rest) } := by
  rw [Place.loopPc, List.map_cons, hready] at hpc
  exact (Sys.Step.handler hpc).goesOn rfl rfl

/-- The handler or the task returns. -/
theorem goes_back {p : Place} (hpc : t.pc = p.inside) : t.Goes [] [] { t with pc := p.loopPc } := by
  cases p with
  | dispatch channelList => exact (Sys.Step.handlerReturn hpc).goesOn rfl rfl
  | drain rest => exact (Sys.Step.taskReturn hpc).goesOn rfl rfl

/-- A handler that runs none of the user's code. -/
theorem goes_past {ch : Chan × Events} {rest : List (Chan × Events)} (hready : ch.1.ready = .other)
    (hpc : t.pc = Place.loopPc (.dispatch (ch :: rest))) :
    t.Goes [] [] { t with pc := Place.loopPc (.dispatch rest) } :=
  (goes_inside hready hpc).trans (goes_back rfl)

/-- A handler or a task queues a task. -/
theorem goes_queue {p : Place} (hpc : t.pc = p.inside) (u : ServerTask) :
    t.Goes [u] [] (t.queued u (t.queuedLoop u)) := by
  apply (Sys.Step.queInLoop (t := u) ?_).goes rfl (List.append_nil _).symm
  cases p with
  | dispatch channelList => exact Or.inl ⟨_, hpc⟩
  | drain rest => exact Or.inr ⟨_, hpc⟩

/-- The next task of the batch starts. -/
theorem goes_start {u : ServerTask} {rest : List ServerTask} (hpc : t.pc = Place.loopPc (.drain (u :: rest))) :
    t.Goes [] [u] (t.starts u rest) :=
  (Sys.Step.startTask hpc).goes (List.append_nil _).symm rfl

theorem loop_queInLoop (hloop : t.loop = s.loop) (u : ServerTask) : (s.queInLoop u).loop = t.queuedLoop u := by
  simp only [queInLoop, Eventloop.queInLoop_self, Except.toOption, Option.getD_some, Sys.queuedLoop, hloop]

/-- The loop after a task is queued, at the place the server has come to. -/
theorem OnLoop.queued {u : ServerTask} (hs : s.OnLoop t) (hloop : s'.loop = (s.queInLoop u).loop)
    (hpc : t.pc = s'.pc.loopPc) : s'.OnLoop (t.queued u (t.queuedLoop u)) where
  loop := (hloop.trans (loop_queInLoop hs.loop u)).symm
  pc := hpc
  isLoop := by
    rw [hloop, loop_queInLoop hs.loop u, Sys.isLoop_queuedLoop, hs.loop]
    exact hs.isLoop

theorem OnLoop.moved (hs : s.OnLoop t) (hloop : s'.loop = s.loop) : s'.OnLoop { t with pc := s'.pc.loopPc } :=
  ⟨hs.loop.trans hloop.symm, rfl, hloop ▸ hs.isLoop⟩

/-! ## The steps -/

theorem Taken.of_goes {q r : List ServerTask} {t' : Sys ServerTask} (hgo : t.Goes q r t') (hon : s'.OnLoop t')
    (hq : s.submits e = q) (hr : s.starts e = r) : s.Taken e s' t :=
  ⟨t', by rw [hq, hr]; exact hgo, fun _ => hon⟩

/-- A step that leaves the loop's fields alone. -/
theorem Taken.move {r : List ServerTask} (hs : s.OnLoop t) (hgo : t.Goes [] r { t with pc := s'.pc.loopPc })
    (hloop : s'.loop = s.loop) (hq : s.submits e = []) (hr : s.starts e = r) : s.Taken e s' t :=
  Taken.of_goes hgo (hs.moved hloop) hq hr

/-- A step inside a handler or a task, after which the thread is inside it still. -/
theorem Taken.stay (hs : s.OnLoop t) (hloop : s'.loop = s.loop) (hpc : s'.pc.loopPc = s.pc.loopPc)
    (hq : s.submits e = []) (hr : s.starts e = []) : s.Taken e s' t := by
  apply Taken.move hs ?_ hloop hq hr
  rw [hpc, ← hs.pc]
  exact Sys.Goes.refl t

/-- The same, with a task queued. -/
theorem Taken.queue {k : Cont} {p : Place} {u : ServerTask} (hs : s.OnLoop t) (hpc : s.pc = .user k p)
    (hloop : s'.loop = (s.queInLoop u).loop) (hpc' : s'.pc = s.pc) (hq : s.submits e = [u]) (hr : s.starts e = []) :
    s.Taken e s' t := by
  have hin : t.pc = p.inside := by rw [hs.pc, hpc]; rfl
  exact Taken.of_goes (goes_queue hin u) (hs.queued hloop (by rw [hpc', hs.pc])) hq hr

/-- The next task of the batch starts, and the user's code runs inside it. -/
theorem Taken.task {u : ServerTask} {rest : List ServerTask} (hs : s.OnLoop t)
    (hpc : s.pc = .between (.drain (u :: rest))) (hloop : s'.loop = s.loop)
    (hpc' : s'.pc.loopPc = Place.inside (.drain rest)) : s.Taken .runTask s' t :=
  Taken.of_goes (goes_start (by rw [hs.pc, hpc]; rfl)) ⟨hs.loop.trans hloop.symm, hpc'.symm, hloop ▸ hs.isLoop⟩ rfl
    (by rw [starts, hpc]; rfl)

/-- A destroyed connection is used. -/
theorem Taken.fault {r : List ServerTask} {t' : Sys ServerTask} (hgo : t.Goes [] r t') (hpc : s'.pc = .fault)
    (hq : s.submits e = []) (hr : s.starts e = r) : s.Taken e s' t :=
  ⟨t', by rw [hq, hr]; exact hgo, fun hne => absurd hpc hne⟩

/-- `handleRead` queues a `handleClose` at the end of the stream of an open connection. -/
theorem taken_read {c : ConnId} {revent : Events} {rest : List (Chan × Events)} {io : Io} {conn : Tcpconn Chan}
    (hs : s.OnLoop t) (hh : s.Handles c revent rest conn) (hev : Channel.handleEvent revent = some .cbRead)
    (hread : s.handleRead c conn io.read (.dispatch rest) = some s') : s.Taken (.handle io) s' t := by
  obtain ⟨r, hr, rfl⟩ := Option.map_eq_some_iff.mp hread
  have hret := readToBuf_ret hr
  have hat : t.pc = Place.loopPc (.dispatch ((.conn c, revent) :: rest)) := by rw [hs.pc, hh.pc]; rfl
  have hinto := goes_inside rfl hat
  have hstate := stateOf_eq hh.conn
  have hdefers : s.defersAt (.handle io) = if r.1 = 0 then some c else none := by
    simp only [defersAt, hh.pc, hev, true_and, hret]
  by_cases hfail : r.1 = -1
  · have hq : s.submits (.handle io) = [] := by simp [submits, hdefers, hfail]
    simp only [if_pos hfail]
    exact Taken.move hs hinto rfl hq rfl
  · simp only [if_neg hfail]
    by_cases heof : r.1 = 0
    · simp only [if_pos heof]
      by_cases hclosed : conn.state = .kClosed
      · have hq : s.submits (.handle io) = [] := by simp [submits, hdefers, heof, hstate, hclosed]
        rw [connectDestroyed,
          if_pos (show ({ conn with inBuffer := r.2 } : Tcpconn Chan).state = .kClosed from hclosed)]
        exact Taken.move hs hinto rfl hq rfl
      · have hopen : conn.state = .kConnected := by
          cases h : conn.state with
          | kConnected => rfl
          | kClosed => exact absurd h hclosed
        have hq : s.submits (.handle io) = [.handleClose c] := by simp [submits, hdefers, heof, hstate, hopen]
        rw [connectDestroyed,
          if_neg (show ({ conn with inBuffer := r.2 } : Tcpconn Chan).state ≠ .kClosed from hclosed)]
        have hin : OnLoop { s with pc := .user (.back (some c)) (.dispatch rest) } _ := hs.moved rfl
        exact Taken.of_goes (hinto.trans (goes_queue (p := .dispatch rest) rfl (.handleClose c))) (hin.queued rfl rfl)
          hq rfl
    · have hq : s.submits (.handle io) = [] := by simp [submits, hdefers, heof]
      simp only [if_neg heof]
      exact Taken.move hs hinto rfl hq rfl

/-- The rest of `handleClose` queues the removal, or goes on to the user's close callback. -/
theorem taken_closed {c : ConnId} {p : Place} {conn : Tcpconn Chan} (hs : s.OnLoop t)
    (hcall : s.Called c (.handleClose c) p conn) : s.Taken .ret (s.handleCloseRest c conn p) t := by
  have hin : t.pc = p.inside := by rw [hs.pc, hcall.pc]; rfl
  have hlive : s.conns c ≠ none := by rw [hcall.conn]; exact Option.some_ne_none _
  cases hcb : s.tcpCloseCallBack with
  | removeTcpConnInloop =>
    have hq : s.submits .ret = [.removeTcpConn c] := by simp [submits, hcall.pc, hlive, hcb]
    have hon : ((s.unregister c conn).queInLoop (.removeTcpConn c)).OnLoop _ := hs.queued rfl hs.pc
    simp only [handleCloseRest, hcb]
    exact Taken.of_goes ((goes_queue hin (.removeTcpConn c)).trans (goes_back hin)) (hon.moved rfl) hq rfl
  | user =>
    have hq : s.submits .ret = [] := by simp [submits, hcall.pc, hlive, hcb]
    simp only [handleCloseRest, hcb]
    exact Taken.stay hs rfl (by rw [hcall.pc]; rfl) hq rfl

/-- `sweep` destroys connections and leaves the loop where it is. -/
theorem taken_sweep (h : s.Taken e s' t) : s.Taken e s'.sweep t := by
  obtain ⟨conns, openFds, epfd, heq⟩ := s'.sweep_eq
  obtain ⟨t', hgo, hon⟩ := h
  rw [heq]
  exact ⟨t', hgo, fun hpc => ⟨(hon hpc).loop, (hon hpc).pc, (hon hpc).isLoop⟩⟩

theorem loop_step (hs : s.OnLoop t) (hwake : s.WakesUp e) (h : machine.step s e = some s') : s.Taken e s' t := by
  have hat : ∀ {pc : ServerPc}, s.pc = pc → t.pc = pc.loopPc := fun hpc => by rw [hs.pc, hpc]
  cases step_cases h with
  | @poll reported hpc hrep =>
    have hgo : t.Goes [] [] _ := (Sys.Step.epollReturn (hat hpc) (hs.reported hrep hwake)).goesOn rfl rfl
    exact Taken.move hs hgo rfl rfl rfl
  | @wakeup revent rest io hpc =>
    have hready : t.pc = .dispatch (.wakeup :: rest.map fun ch => ch.1.ready) := hat hpc
    have hgo : t.Goes [] [] _ := (Sys.Step.wakeup hready).goesOn rfl rfl
    exact Taken.of_goes hgo ⟨congrArg Eventloop.handleRead hs.loop, rfl, hs.isLoop⟩
      (by simp [submits, defersAt, hpc]) rfl
  | timerfd hpc => exact Taken.move hs (goes_inside rfl (hat hpc)) rfl (by simp [submits, defersAt, hpc]) rfl
  | acceptFailed hpc hio => exact Taken.move hs (goes_past rfl (hat hpc)) rfl (by simp [submits, defersAt, hpc]) rfl
  | accept hpc hio haccept =>
    obtain ⟨-, heq⟩ := Option.ite_none_left_eq_some.mp haccept
    cases heq
    exact Taken.move hs (goes_inside rfl (hat hpc)) rfl (by simp [submits, defersAt, hpc]) rfl
  | handleFault hpc hconn => exact Taken.fault (Sys.Goes.refl t) rfl (submits_handleFault hpc hconn) rfl
  | closeEvent hh hev =>
    exact Taken.move hs (goes_inside rfl (hat hh.pc)) rfl (by simp [submits, defersAt, hh.pc, hev]) rfl
  | read hh hev hread => exact taken_read hs hh hev hread
  | write hh hev hwrite =>
    obtain ⟨w, hw, rfl⟩ := Option.map_eq_some_iff.mp hwrite
    exact Taken.move hs (goes_past rfl (hat hh.pc)) rfl (by simp [submits, defersAt, hh.pc, hev]) rfl
  | noCallBack hh hev =>
    exact Taken.move hs (goes_past rfl (hat hh.pc)) rfl (by simp [submits, defersAt, hh.pc, hev]) rfl
  | doPendingFunc hpc =>
    have hswap : t.Goes [] [] _ := (Sys.Step.swap (hat hpc)).goesOn rfl rfl
    have henter : t.swaps.Goes [] [] _ := (Sys.Step.enter rfl).goesOn rfl rfl
    refine ⟨_, hswap.trans henter, fun _ => ⟨?_, ?_, hs.isLoop⟩⟩
    · simp only [Sys.swaps, hs.loop, doPendingFunc]
    · simp only [hs.loop, doPendingFunc]
      rfl
  | functorTask hpc => exact Taken.task hs hpc rfl rfl
  | @removeTask c rest hpc =>
    have hgo := (goes_start (hat hpc)).trans (goes_back (t := t.starts (.removeTcpConn c) rest) (p := .drain rest) rfl)
    exact Taken.of_goes hgo ⟨hs.loop, rfl, hs.isLoop⟩ rfl (by rw [starts, hpc]; rfl)
  | closeTask hpc hconn => exact Taken.task hs hpc rfl rfl
  | closeFault hpc hconn => exact Taken.fault (goes_start (hat hpc)) rfl rfl (by rw [starts, hpc]; rfl)
  | endPendingFunc hpc =>
    have hleave : t.Goes [] [] _ := (Sys.Step.leave (hat hpc)).goesOn rfl rfl
    have hcheck : Sys.Goes { t with loop := { t.loop with callingPendingFunc := false }, pc := .check } [] [] _ :=
      (Sys.Step.check rfl (hs.loop ▸ hs.isLoop)).goesOn rfl rfl
    apply taken_sweep
    refine ⟨_, hleave.trans hcheck, fun _ => ⟨?_, rfl, hs.isLoop⟩⟩
    simp only [hs.loop]
  | @connectDestroyed c k p conn hcall =>
    have hstate := stateOf_eq hcall.conn
    cases hconn : conn.state with
    | kClosed =>
      rw [connectDestroyed, if_pos hconn]
      exact Taken.stay hs rfl rfl (by simp [submits, defersAt, hstate, hconn]) rfl
    | kConnected =>
      rw [connectDestroyed, if_neg (by rw [hconn]; exact fun h => by cases h)]
      exact Taken.queue hs hcall.pc rfl rfl (by simp [submits, defersAt, hstate, hconn]) rfl
  | send hcall hholds hsend =>
    obtain ⟨w, hw, rfl⟩ := Option.map_eq_some_iff.mp hsend
    exact Taken.stay hs rfl rfl rfl rfl
  | shutdown hcall hholds => exact Taken.stay hs rfl rfl rfl rfl
  | queInLoop hpc => exact Taken.queue hs hpc rfl rfl rfl rfl
  | drop hpc => exact taken_sweep (Taken.stay hs rfl rfl rfl rfl)
  | back hpc =>
    exact taken_sweep (Taken.move hs (goes_back (hat hpc)) rfl (by simp [submits, hpc]) rfl)
  | established hcall => exact Taken.move hs (goes_back (hat hcall.pc)) rfl (by simp [submits, hcall.pc]) rfl
  | closed hcall => exact taken_closed hs hcall
  | retFault hpc hk hconn => exact Taken.fault (Sys.Goes.refl t) rfl (submits_retFault hpc hk hconn) rfl

/-- Once a destroyed connection is used there is no further step. -/
theorem not_fault (h : machine.step s e = some s') : s.pc ≠ .fault := by
  intro hfault
  cases step_cases h with
  | poll hpc | wakeup hpc | timerfd hpc | acceptFailed hpc | accept hpc | handleFault hpc | doPendingFunc hpc
  | functorTask hpc | removeTask hpc | closeTask hpc | closeFault hpc | endPendingFunc hpc | queInLoop hpc | drop hpc
  | back hpc | retFault hpc =>
    rw [hfault] at hpc
    cases hpc
  | closeEvent hh | read hh | write hh | noCallBack hh | connectDestroyed hh | send hh | shutdown hh | established hh
  | closed hh =>
    have hpc := hh.pc
    rw [hfault] at hpc
    cases hpc

/-! ## Runs -/

/-- The loop before its first `epoll_wait`. -/
theorem onLoop_new (base : BaseFds) (tid : Tid) (cb : CloseCallBack) :
    ∃ t, (Sys.new tid).Goes [] [] t ∧ (new base tid cb).OnLoop t :=
  ⟨_, (Sys.Step.check rfl rfl).goesOn rfl rfl, rfl, rfl, rfl⟩

/-- The loop has come with the server to where the run has. -/
def LoopAt (s0 : Server) (tid : Tid) (es : List ServerEv) (s : Server) : Prop :=
  ∃ t, (Sys.new tid).Goes (machine.outputs submits s0 es) (machine.outputs starts s0 es) t ∧
    (s.pc ≠ .fault → s.OnLoop t)

theorem loop_run (base : BaseFds) (tid : Tid) (cb : CloseCallBack) :
    ∀ (es : List ServerEv) (s : Server), machine.run (new base tid cb) es = some s →
      machine.Meets WakesUp (new base tid cb) es → LoopAt (new base tid cb) tid es s := by
  apply machine.run_induction (P := fun es s => machine.Meets WakesUp (new base tid cb) es →
    LoopAt (new base tid cb) tid es s)
  · intro _
    obtain ⟨t, hgo, hon⟩ := onLoop_new base tid cb
    exact ⟨t, hgo, fun _ => hon⟩
  · intro es e s1 s2 hrun ih hstep hmeets
    obtain ⟨hes, he⟩ := machine.meets_append.mp hmeets
    obtain ⟨t1, hgo, hon⟩ := ih hes
    obtain ⟨t2, hgo', hon'⟩ := loop_step (hon (not_fault hstep)) (he s1 hrun).1 hstep
    refine ⟨t2, ?_, hon'⟩
    rw [machine.outputs_snoc submits hrun, machine.outputs_snoc starts hrun]
    exact hgo.trans hgo'

/-- **The server is a program of its loop**: a run of a server is a run of the loop, at the same place and with the
same loop, which enqueues the tasks that the server's steps queue and starts those that they run. -/
theorem server_refines_loop (base : BaseFds) (tid : Tid) (cb : CloseCallBack) (es : List ServerEv) (s : Server)
    (h : machine.run (new base tid cb) es = some s) (hwake : machine.Meets WakesUp (new base tid cb) es) :
    ∃ fs t, Sys.machine.run (Sys.new tid) fs = some t ∧
      t.enqueued = machine.outputs submits (new base tid cb) es ∧
      t.started = machine.outputs starts (new base tid cb) es ∧
      (s.pc ≠ .fault → t.loop = s.loop ∧ t.pc = s.pc.loopPc) := by
  obtain ⟨t, ⟨fs, hfs, hq, hr⟩, hon⟩ := loop_run base tid cb es s h hwake
  exact ⟨fs, t, hfs, hq, hr, fun hpc => ⟨(hon hpc).loop, (hon hpc).pc⟩⟩

theorem server_refines_loop_closeByPeer :
    ∃ fs t, Sys.machine.run (Sys.new 1) fs = some t ∧
      t.started = machine.outputs starts (new smallBase 1 .removeTcpConnInloop) closeByPeer := by
  have hsome : (machine.run (new smallBase 1 .removeTcpConnInloop) closeByPeer).isSome := by decide +kernel
  obtain ⟨s, hs⟩ := Option.isSome_iff_exists.mp hsome
  obtain ⟨fs, t, hfs, -, hr, -⟩ :=
    server_refines_loop smallBase 1 .removeTcpConnInloop closeByPeer s hs (by decide +kernel)
  exact ⟨fs, t, hfs, hr⟩

/-! ## The order of the tasks -/

theorem batch_loopPc (pc : ServerPc) : pc.loopPc.batch = pc.batch := by
  rcases pc with _ | (_ | _) | ⟨_, (_ | _)⟩ | _ <;> rfl

/-- **The tasks of a server run in the order in which they were queued**, each once: what has been run, then what
waits, is what has been queued. -/
theorem server_tasks_in_order (base : BaseFds) (tid : Tid) (cb : CloseCallBack) (es : List ServerEv) (s : Server)
    (h : machine.run (new base tid cb) es = some s) (hwake : machine.Meets WakesUp (new base tid cb) es) :
    machine.outputs starts (new base tid cb) es <+: machine.outputs submits (new base tid cb) es ∧
    (s.pc ≠ .fault → machine.outputs starts (new base tid cb) es ++ s.queue =
      machine.outputs submits (new base tid cb) es) := by
  obtain ⟨t, ⟨fs, hfs, hq, hr⟩, hon⟩ := loop_run base tid cb es s h hwake
  obtain ⟨ops, hops⟩ := Sys.run_fifo hfs
  have hkept : t.started ++ (t.pc.batch ++ t.loop.pendingList) = t.enqueued :=
    Fifo.run_conserved (q := (Sys.new tid : Sys ServerTask).toFifo) rfl hops
  rw [hq, hr] at hkept
  refine ⟨⟨_, hkept⟩, fun hpc => ?_⟩
  rw [(hon hpc).pc, (hon hpc).loop, batch_loopPc] at hkept
  exact hkept

theorem server_tasks_in_order_closeByPeer :
    ∃ s, machine.run (new smallBase 1 .removeTcpConnInloop) closeByPeer = some s ∧
      machine.outputs starts (new smallBase 1 .removeTcpConnInloop) closeByPeer ++ s.queue =
        machine.outputs submits (new smallBase 1 .removeTcpConnInloop) closeByPeer := by
  have hrun : (machine.run (new smallBase 1 .removeTcpConnInloop) closeByPeer).map Server.pc = some .wait := by
    decide +kernel
  obtain ⟨s, hs, hpc⟩ := Option.map_eq_some_iff.mp hrun
  exact ⟨s, hs, (server_tasks_in_order smallBase 1 .removeTcpConnInloop closeByPeer s hs (by decide +kernel)).2
    (by rw [hpc]; exact fun h => by cases h)⟩

end Server

end NetImitate
