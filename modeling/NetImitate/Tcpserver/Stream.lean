import NetImitate.Tcpserver.Lifetime

/-!
# The end of a stream

A server together with the bytes the reads of each connection have taken from its socket.

* `readsAt` : the read an event makes; `Stream`, `machine`;
* `Peer` : the reads take what the peer sent, piece by piece, and return 0 behind the last piece;
* `log_step` : the callbacks a step calls; `closeTask_step` : where a `handleClose` task comes from;
* `Ended` : a `handleClose` waits only for a connection whose stream was taken in whole;
* `end_of_stream` : what is untaken when a connection is closed was left there by `EPOLLRDHUP`.
-/

namespace NetImitate

/-- The connection on which the user's code calls `ConnectDestroyed`. -/
def ServerEv.closes : ServerEv → Option ConnId
  | .connectDestroyed c => some c
  | _ => none

namespace Server
variable {s s' : Server} {e : ServerEv} {c : ConnId}

/-- The connection an event reads from, and what its `::read` returns. -/
def readsAt (s : Server) : ServerEv → Option (ConnId × Option (List UInt8))
  | .handle io => match s.pc with
    | .between (.dispatch ((.conn c, revent) :: _)) =>
      if Channel.handleEvent revent = some .cbRead ∧ (s.conns c).isSome then some (c, io.read) else none
    | _ => none
  | _ => none

/-- The event is dispatched to the connection with `EPOLLRDHUP` in its mask. -/
def ReportsClose (s : Server) (e : ServerEv) (c : ConnId) : Prop :=
  ∃ io revent rest, e = .handle io ∧ s.pc = .between (.dispatch ((.conn c, revent) :: rest)) ∧
    has revent closeEvent = true

theorem readsAt_read {revent : Events} {rest : List (Chan × Events)} {io : Io} {conn : Tcpconn Chan}
    (hh : s.Handles c revent rest conn) (hev : Channel.handleEvent revent = some .cbRead) :
    s.readsAt (.handle io) = some (c, io.read) := by
  simp only [readsAt, hh.pc, if_pos (And.intro hev (Option.isSome_of_eq_some hh.conn))]

theorem readsAt_other {revent : Events} {rest : List (Chan × Events)} {io : Io} {conn : Tcpconn Chan}
    (hh : s.Handles c revent rest conn) (hev : Channel.handleEvent revent ≠ some .cbRead) :
    s.readsAt (.handle io) = none := by
  have hno : ¬ (Channel.handleEvent revent = some .cbRead ∧ (s.conns c).isSome) := fun h => hev h.1
  simp only [readsAt, hh.pc, if_neg hno]

/-! ## The callbacks a step calls -/

/-- `handleClose` is started: by a reported event, by a failed read, or as a task. -/
inductive StartsClose (s : Server) (e : ServerEv) (c : ConnId) : Prop
  | reported (h : s.ReportsClose e c) (hread : s.readsAt e = none)
  | failed {read : Option (List UInt8)} (h : s.readsAt e = some (c, read)) (hret : readRet read = -1)
  | task (h : .handleClose c ∈ s.queue) (hread : s.readsAt e = none)

/-- No callback is called that has to do with a stream or its end. -/
def Quiet (called : List Callback) : Prop :=
  ∀ c, .connectionCallBack c .kClosed ∉ called ∧ .msgCallBack c ∉ called

theorem quiet_nil : Quiet [] := fun _ => ⟨List.not_mem_nil, List.not_mem_nil⟩

/-- Everything a step can do to the log. -/
inductive Logged (s : Server) (e : ServerEv) (s' : Server) : Prop
  | quiet (called : List Callback) (hlog : s'.log = s.log ++ called) (hquiet : Quiet called)
      (hread : s.readsAt e = none)
  | closes (c : ConnId) (hlog : s'.log = s.log ++ [.connectionCallBack c .kClosed]) (hstarts : s.StartsClose e c)
  | message (c : ConnId) (read : Option (List UInt8)) (hlog : s'.log = s.log ++ [.msgCallBack c])
      (hread : s.readsAt e = some (c, read)) (hret : readRet read ≠ -1)

theorem Logged.silent (hlog : s'.log = s.log) (hread : s.readsAt e = none) : Logged s e s' :=
  .quiet [] (by rw [hlog, List.append_nil]) quiet_nil hread

theorem log_destroy (s : Server) (c : ConnId) : (s.destroy c).log = s.log := by
  obtain ⟨openFds, epfd, h⟩ := s.destroy_eq c
  rw [h]

theorem log_sweep (s : Server) : s.sweep.log = s.log :=
  sweep_induction (P := fun t => t.log = s.log) rfl fun t c ht _ => (log_destroy t c).trans ht

theorem log_handleRead {revent : Events} {rest : List (Chan × Events)} {io : Io} {conn : Tcpconn Chan}
    (hh : s.Handles c revent rest conn) (hev : Channel.handleEvent revent = some .cbRead)
    (hread : s.handleRead c conn io.read (.dispatch rest) = some s') : Logged s (.handle io) s' := by
  have hreads : s.readsAt (.handle io) = some (c, io.read) := readsAt_read hh hev
  obtain ⟨r, hr, rfl⟩ := Option.map_eq_some_iff.mp hread
  have hret := readToBuf_ret hr
  by_cases hfail : r.1 = -1
  · simp only [if_pos hfail]
    exact .closes c rfl (.failed hreads (hret ▸ hfail))
  · simp only [if_neg hfail]
    by_cases heof : r.1 = 0
    · simp only [if_pos heof]
      refine .message c io.read ?_ hreads (hret ▸ hfail)
      simp only [msgCallBack, log_connectDestroyed, setConn]
    · simp only [if_neg heof]
      exact .message c io.read rfl hreads (hret ▸ hfail)

theorem log_step (h : machine.step s e = some s') : Logged s e s' := by
  cases step_cases h with
  | read hh hev hread => exact log_handleRead hh hev hread
  | @closeEvent c revent rest io conn hh hev =>
    have hnone : s.readsAt (.handle io) = none := readsAt_other hh (by rw [hev]; decide)
    have hmask : has revent closeEvent = true := by
      by_contra hmask
      rw [Channel.handleEvent, if_neg hmask] at hev
      split at hev
      · cases hev
      · split at hev <;> cases hev
    exact .closes c rfl (.reported ⟨io, revent, rest, rfl, hh.pc, hmask⟩ hnone)
  | @closeTask c rest conn hpc hconn =>
    refine .closes c rfl (.task ?_ rfl)
    rw [queue_drain hpc]
    exact List.mem_cons_self
  | write hh hev hwrite =>
    obtain ⟨w, -, rfl⟩ := Option.map_eq_some_iff.mp hwrite
    exact .silent rfl (readsAt_other hh (by rw [hev]; decide))
  | noCallBack hh hev => exact .silent rfl (readsAt_other hh (by rw [hev]; decide))
  | wakeup hpc | timerfd hpc | acceptFailed hpc hio => exact .silent rfl (by simp only [readsAt, hpc])
  | handleFault hpc hconn => exact .silent rfl (by simp [readsAt, hpc, hconn])
  | @accept revent rest io fd address event s' hpc hio haccept =>
    obtain ⟨hfd, heq⟩ := Option.ite_none_left_eq_some.mp haccept
    cases heq
    refine .quiet [.connectionCallBack s.next .kConnected] rfl (fun c => ?_) (by simp only [readsAt, hpc])
    simp
  | endPendingFunc hpc => exact .silent (log_sweep _) rfl
  | drop hpc => exact .silent (log_sweep _) rfl
  | back hpc => exact .silent (log_sweep _) rfl
  | connectDestroyed hcall => exact .silent (log_connectDestroyed _ _ _) rfl
  | send hcall hholds hsend =>
    obtain ⟨w, -, rfl⟩ := Option.map_eq_some_iff.mp hsend
    exact .silent rfl rfl
  | @closed c p conn hcall =>
    refine .quiet [.closeCallback c] ?_ (fun c' => by simp) rfl
    unfold handleCloseRest
    split <;> rfl
  | poll | doPendingFunc | functorTask | removeTask | closeFault | shutdown | queInLoop | established | retFault =>
    exact .silent rfl rfl

/-! ## The tasks a step queues -/

theorem mem_pendingList_connectDestroyed {conn : Tcpconn Chan} {c' : ConnId}
    (h : .handleClose c' ∈ (s.connectDestroyed c conn).loop.pendingList) :
    .handleClose c' ∈ s.loop.pendingList ∨ c' = c := by
  obtain ⟨loop, heq, hpending⟩ := s.connectDestroyed_eq c conn
  rw [heq] at h
  exact (hpending _ h).imp_right ServerTask.handleClose.inj

theorem queue_destroy (s : Server) (c : ConnId) : (s.destroy c).queue = s.queue := by
  obtain ⟨openFds, epfd, h⟩ := s.destroy_eq c
  rw [h]
  rfl

theorem queue_sweep (s : Server) : s.sweep.queue = s.queue :=
  sweep_induction (P := fun t => t.queue = s.queue) rfl fun t c ht _ => (queue_destroy t c).trans ht

theorem closeTask_handleRead {revent : Events} {rest : List (Chan × Events)} {io : Io} {conn : Tcpconn Chan}
    {c' : ConnId} (hh : s.Handles c revent rest conn) (hev : Channel.handleEvent revent = some .cbRead)
    (hread : s.handleRead c conn io.read (.dispatch rest) = some s') (hmem : .handleClose c' ∈ s'.queue) :
    .handleClose c' ∈ s.queue ∨ ∃ read, s.readsAt (.handle io) = some (c', read) ∧ readRet read = 0 := by
  obtain ⟨r, hr, rfl⟩ := Option.map_eq_some_iff.mp hread
  have hret := readToBuf_ret hr
  have hqueue : s.queue = s.loop.pendingList := by
    simp only [queue, hh.pc]
    rfl
  rw [hqueue]
  by_cases hfail : r.1 = -1
  · simp only [if_pos hfail] at hmem
    exact Or.inl hmem
  · simp only [if_neg hfail] at hmem
    by_cases heof : r.1 = 0
    · simp only [if_pos heof] at hmem
      refine (mem_pendingList_connectDestroyed hmem).imp_right ?_
      rintro rfl
      exact ⟨io.read, readsAt_read hh hev, hret ▸ heof⟩
    · simp only [if_neg heof] at hmem
      exact Or.inl hmem

theorem mem_queue {t : ServerTask} (ht : t ∈ s'.queue) (hbatch : s'.pc.batch ⊆ s.pc.batch)
    (hpending : s'.loop.pendingList = s.loop.pendingList) : t ∈ s.queue := by
  rw [queue, hpending] at ht
  exact (List.mem_append.mp ht).elim (fun h => List.mem_append_left _ (hbatch h)) (List.mem_append_right _)

theorem mem_queue_handleCloseRest {conn : Tcpconn Chan} {p : Place} (hcall : s.Called c (.handleClose c) p conn)
    {c' : ConnId} (hmem : .handleClose c' ∈ (s.handleCloseRest c conn p).queue) : .handleClose c' ∈ s.queue := by
  have hbatch : p.batch = s.pc.batch := by rw [hcall.pc]; rfl
  unfold handleCloseRest at hmem
  split at hmem
  · rcases List.mem_append.mp hmem with hmem | hmem
    · exact List.mem_append_left _ (hbatch ▸ hmem)
    · rw [pendingList_queInLoop, List.mem_append, List.mem_singleton] at hmem
      exact List.mem_append_right _ (hmem.resolve_right fun h => by cases h)
  · refine mem_queue hmem ?_ rfl
    rw [← hbatch]
    exact List.Subset.refl _

/-- A `handleClose` task is queued at the end of a stream, or by the user's code. -/
theorem closeTask_step (h : machine.step s e = some s') (hmem : .handleClose c ∈ s'.queue) :
    .handleClose c ∈ s.queue ∨ e = .connectDestroyed c ∨ ∃ read, s.readsAt e = some (c, read) ∧ readRet read = 0 := by
  cases step_cases h with
  | poll | wakeup | timerfd | acceptFailed | handleFault | closeEvent | noCallBack | closeFault | retFault =>
    exact Or.inl (mem_queue hmem (List.nil_subset _) rfl)
  | accept hpc hio haccept =>
    obtain ⟨hfd, heq⟩ := Option.ite_none_left_eq_some.mp haccept
    cases heq
    exact Or.inl (mem_queue hmem (List.nil_subset _) rfl)
  | read hh hev hread => exact (closeTask_handleRead hh hev hread hmem).imp_right Or.inr
  | write hh hev hwrite =>
    obtain ⟨w, -, rfl⟩ := Option.map_eq_some_iff.mp hwrite
    exact Or.inl (mem_queue hmem (List.nil_subset _) rfl)
  | doPendingFunc hpc =>
    left
    simp only [queue, hpc]
    rcases List.mem_append.mp hmem with hmem | hmem
    · exact hmem
    · exact (List.not_mem_nil hmem).elim
  | functorTask hpc | removeTask hpc | closeTask hpc =>
    refine Or.inl (mem_queue hmem ?_ rfl)
    rw [hpc]
    exact List.subset_cons_self _ _
  | endPendingFunc hpc =>
    rw [endPendingFunc, queue_sweep] at hmem
    exact Or.inl (mem_queue hmem (List.nil_subset _) rfl)
  | connectDestroyed hcall =>
    rcases List.mem_append.mp hmem with hmem | hmem
    · rw [pc_connectDestroyed] at hmem
      exact Or.inl (List.mem_append_left _ hmem)
    · rcases mem_pendingList_connectDestroyed hmem with hmem | rfl
      · exact Or.inl (List.mem_append_right _ hmem)
      · exact Or.inr (Or.inl rfl)
  | send hcall hholds hsend =>
    obtain ⟨w, -, rfl⟩ := Option.map_eq_some_iff.mp hsend
    exact Or.inl hmem
  | shutdown => exact Or.inl hmem
  | queInLoop =>
    rw [queue_queInLoop, List.mem_append, List.mem_singleton] at hmem
    exact hmem.imp_right fun h => by cases h
  | drop =>
    rw [queue_sweep] at hmem
    exact Or.inl hmem
  | back hpc =>
    rw [queue_sweep] at hmem
    refine Or.inl (mem_queue hmem ?_ rfl)
    rw [hpc]
    exact List.Subset.refl _
  | established hcall =>
    refine Or.inl (mem_queue hmem ?_ rfl)
    rw [hcall.pc]
    exact List.Subset.refl _
  | closed hcall => exact Or.inl (mem_queue_handleCloseRest hcall hmem)

end Server

/-! ## Streams -/

/-- A server, and the bytes that the reads of each connection have taken from its socket into `inBuffer`. -/
structure Stream where
  server : Server
  taken : ConnId → List UInt8

namespace Stream
variable {sent : ConnId → List UInt8} {s s' : Stream} {e : ServerEv} {c : ConnId}

def new (base : BaseFds) (tid : Tid) (cb : CloseCallBack) : Stream := ⟨Server.new base tid cb, fun _ => []⟩

/-- What the event reads from the connection. -/
def delivered (s : Stream) (e : ServerEv) (c : ConnId) : List UInt8 :=
  match s.server.readsAt e with
  | some (c', some chunk) => if c' = c then chunk else []
  | _ => []

def step (s : Stream) (e : ServerEv) : Option Stream :=
  (Server.machine.step s.server e).map fun server => ⟨server, fun c => s.taken c ++ s.delivered e c⟩

def machine : Machine Stream ServerEv := ⟨step⟩

/-- What a read may find where `taken` of the bytes `sent` have been taken: a next piece, whose length is an `int`, and
none only behind the last one. -/
def Piece (sent taken : List UInt8) : Option (List UInt8) → Prop
  | none => False
  | some chunk => chunk.length < 2 ^ 31 ∧ taken ++ chunk <+: sent ∧ (chunk = [] → taken = sent)

instance (sent taken : List UInt8) (read : Option (List UInt8)) : Decidable (Piece sent taken read) := by
  unfold Piece
  split <;> infer_instance

/-- The peer of each connection `c` sends `sent c` and then closes its side; the user's code itself closes no connection
that has not been read to its end. -/
def Peer (sent : ConnId → List UInt8) (s : Stream) (e : ServerEv) : Prop :=
  (∀ r ∈ s.server.readsAt e, Piece (sent r.1) (s.taken r.1) r.2) ∧ ∀ c ∈ e.closes, s.taken c = sent c

instance (sent : ConnId → List UInt8) (s : Stream) (e : ServerEv) : Decidable (s.Peer sent e) := by
  unfold Peer
  infer_instance

/-- The callbacks that were called on the way to `s'`. -/
def called (s s' : Stream) : List Callback := s'.server.log.drop s.server.log.length

/-- The step closes no connection with bytes of its stream untaken, unless `EPOLLRDHUP` was reported for it; a read that
delivers bytes is followed by its message callback, and nothing but a read is. -/
def Handled (sent : ConnId → List UInt8) (s : Stream) (e : ServerEv) : Prop :=
  ∀ s', machine.step s e = some s' → ∀ c,
    (.connectionCallBack c .kClosed ∈ s.called s' → s.taken c = sent c ∨ s.server.ReportsClose e c) ∧
    (.msgCallBack c ∈ s.called s' → ∃ chunk, s.server.readsAt e = some (c, some chunk)) ∧
    ∀ chunk, s.server.readsAt e = some (c, some chunk) → chunk ≠ [] → s.called s' = [.msgCallBack c]

/-- A `handleClose` waits only for connections whose stream was taken in whole. -/
def Ended (sent : ConnId → List UInt8) (s : Stream) : Prop :=
  ∀ c, .handleClose c ∈ s.server.queue → s.taken c = sent c

theorem step_some (h : machine.step s e = some s') :
    Server.machine.step s.server e = some s'.server ∧ ∀ c, s'.taken c = s.taken c ++ s.delivered e c := by
  obtain ⟨server, hserver, rfl⟩ := Option.map_eq_some_iff.mp h
  exact ⟨hserver, fun _ => rfl⟩

theorem called_eq {called : List Callback} (h : s'.server.log = s.server.log ++ called) : s.called s' = called := by
  rw [Stream.called, h, List.drop_left]

/-- A read that the peer allows does not fail. -/
theorem readRet_of_peer (hpeer : s.Peer sent e) {read : Option (List UInt8)}
    (hread : s.server.readsAt e = some (c, read)) : Server.readRet read ≠ -1 := by
  have hpiece := hpeer.1 (c, read) hread
  cases read with
  | none => exact hpiece.elim
  | some chunk =>
    rw [Server.readRet, int32_natCast hpiece.1]
    omega

/-- A stream that was taken in whole stays so. -/
theorem taken_step (hpeer : s.Peer sent e) (h : machine.step s e = some s') (hc : s.taken c = sent c) :
    s'.taken c = sent c := by
  rw [(step_some h).2, delivered, hc]
  split
  · rename_i c' chunk hread
    split
    · rename_i heq
      obtain ⟨-, hprefix, -⟩ := hpeer.1 _ hread
      simp only [heq, hc] at hprefix
      have hle := hprefix.length_le
      rw [List.length_append] at hle
      rw [List.length_eq_zero_iff.mp (show chunk.length = 0 by omega), List.append_nil]
    · rw [List.append_nil]
  · rw [List.append_nil]

/-- A read returns 0 only behind the last piece. -/
theorem taken_of_readRet (hpeer : s.Peer sent e) {read : Option (List UInt8)}
    (hread : s.server.readsAt e = some (c, read)) (hret : Server.readRet read = 0) : s.taken c = sent c := by
  have hpiece := hpeer.1 (c, read) hread
  cases read with
  | none => exact hpiece.elim
  | some chunk =>
    obtain ⟨hlt, -, hend⟩ := hpiece
    rw [Server.readRet, int32_natCast hlt] at hret
    exact hend (List.length_eq_zero_iff.mp (by omega))

theorem Ended.step (hs : s.Ended sent) (hpeer : s.Peer sent e) (h : machine.step s e = some s') : s'.Ended sent := by
  intro c hc
  refine taken_step hpeer h ?_
  rcases Server.closeTask_step (step_some h).1 hc with hc | rfl | ⟨read, hread, hret⟩
  · exact hs c hc
  · exact hpeer.2 c rfl
  · exact taken_of_readRet hpeer hread hret

theorem Ended.handled (hs : s.Ended sent) (hpeer : s.Peer sent e) : s.Handled sent e := by
  intro s' h c
  cases Server.log_step (step_some h).1 with
  | quiet called hlog hquiet hread =>
    rw [called_eq hlog, hread]
    exact ⟨fun hc => absurd hc (hquiet c).1, fun hc => absurd hc (hquiet c).2, fun _ h => by cases h⟩
  | closes c' hlog hstarts =>
    rw [called_eq hlog]
    refine ⟨?_, by simp, ?_⟩
    · intro hc
      obtain ⟨rfl, -⟩ := Callback.connectionCallBack.inj (List.mem_singleton.mp hc)
      cases hstarts with
      | reported hmask hread => exact Or.inr hmask
      | failed hread hret => exact absurd hret (readRet_of_peer hpeer hread)
      | task hqueue hread => exact Or.inl (hs c hqueue)
    · intro chunk hchunk
      cases hstarts with
      | reported hmask hread => rw [hread] at hchunk; cases hchunk
      | failed hread hret => exact absurd hret (readRet_of_peer hpeer hread)
      | task hqueue hread => rw [hread] at hchunk; cases hchunk
  | message c' read hlog hread hret =>
    rw [called_eq hlog, hread]
    refine ⟨by simp, ?_, ?_⟩
    · intro hc
      cases List.mem_singleton.mp hc
      cases read with
      | none => exact absurd rfl hret
      | some chunk => exact ⟨chunk, rfl⟩
    · intro chunk hchunk _
      cases hchunk
      rfl

end Stream

end NetImitate
