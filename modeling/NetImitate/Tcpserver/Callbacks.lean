import NetImitate.Tcpserver.Accounting
import NetImitate.Tcpserver.Registry

/-!
# The callbacks of one connection

What the user's code is told about a connection, from the first callback to the last.

* `Session` : a connection as its callbacks tell it; `Session.machine`;
* `Dispatched` : between two handlers the connections that are still to be handled are open;
* `session_step` : the callbacks a step calls take every connection's session along;
* `callbacks_in_order` : a connection is announced once, then come its messages, then its end.
-/

namespace NetImitate

/-- A connection as its callbacks tell it. -/
inductive Session where
  | fresh
  | connected
  /-- Between `connectionCallBack(kClosed)` and `closeCallback`. -/
  | closing
  | closed
deriving DecidableEq

def Callback.conn : Callback → ConnId
  | .connectionCallBack c _ => c
  | .msgCallBack c => c
  | .closeCallback c => c

namespace Session

/-- `again` : a closed connection may be closed once more. -/
def step (again : Bool) : Session → Callback → Option Session
  | .fresh, .connectionCallBack _ .kConnected => some .connected
  | .connected, .msgCallBack _ => some .connected
  | .connected, .connectionCallBack _ .kClosed => some .closing
  | .closing, .closeCallback _ => some .closed
  | .closed, .connectionCallBack _ .kClosed => if again then some .closing else none
  | _, _ => none

def machine (again : Bool) : Machine Session Callback := ⟨step again⟩

end Session

namespace Server
variable {s s' : Server} {c : ConnId}

/-! ## What is dispatched -/

/-- The connections still to be handled are open, and each is handled once. -/
structure Dispatched (s : Server) : Prop where
  nodup : (s.pc.channelList.map Prod.fst).Nodup
  connected : ∀ c revent, (.conn c, revent) ∈ s.pc.channelList → s.stateOf c = some .kConnected

theorem dispatched_new (base : BaseFds) (tid : Tid) (cb : CloseCallBack) : (new base tid cb).Dispatched :=
  ⟨List.nodup_nil, fun _ _ h => (List.not_mem_nil h).elim⟩

/-- No further channel is to be handled, and the connections among them stay open. -/
theorem Dispatched.goOn (hs : s.Dispatched) (hsub : s'.pc.channelList.Sublist s.pc.channelList)
    (hstate : ∀ c revent, (.conn c, revent) ∈ s'.pc.channelList → s.stateOf c = some .kConnected →
      s'.stateOf c = some .kConnected) : s'.Dispatched where
  nodup := hs.nodup.sublist (hsub.map Prod.fst)
  connected := fun c revent h => hstate c revent h (hs.connected c revent (hsub.subset h))

theorem Dispatched.of_nil (h : s.pc.channelList = []) : s.Dispatched :=
  ⟨by rw [h]; exact List.nodup_nil, fun c revent hmem => by rw [h] at hmem; exact (List.not_mem_nil hmem).elim⟩

/-- The connection that is handled is not among those that are left. -/
theorem Dispatched.not_mem (hs : s.Dispatched) {ch : Chan} {revent : Events} {rest : List (Chan × Events)}
    (hpc : s.pc = .between (.dispatch ((ch, revent) :: rest))) {revent' : Events} : (ch, revent') ∉ rest := by
  have hnodup := hs.nodup
  rw [hpc] at hnodup
  exact fun hmem => (List.nodup_cons.mp hnodup).1 (List.mem_map.mpr ⟨_, hmem, rfl⟩)

theorem stateOf_handleClose (s : Server) (c : ConnId) (conn : Tcpconn Chan) (p : Place) :
    (s.handleClose c conn p).stateOf = Function.update s.stateOf c (some .kClosed) :=
  stateOf_update s c (some { conn with state := .kClosed })

/-- Sweeping destroys no open connection. -/
theorem stateOf_sweep (hlt : ∀ c, s.conns c ≠ none → c < s.next)
    (hlisted : ∀ c, s.stateOf c = some .kConnected → c ∈ s.tcpconnList) (c : ConnId) :
    s.sweep.stateOf c = some .kConnected ↔ s.stateOf c = some .kConnected := by
  rw [stateOf, conns_sweep hlt]
  split
  · exact Iff.rfl
  · rename_i href
    refine iff_of_false (fun h => by cases h) fun h => href ?_
    exact (referenced_iff s c).mpr (Or.inl (hlisted c h))

theorem Dispatched.sweep (hs : s.Dispatched) (hlt : ∀ c, s.conns c ≠ none → c < s.next)
    (hlisted : ∀ c, s.stateOf c = some .kConnected → c ∈ s.tcpconnList) : s.sweep.Dispatched := by
  obtain ⟨conns, openFds, epfd, h⟩ := s.sweep_eq
  refine hs.goOn ?_ fun c _ _ hopen => (stateOf_sweep hlt hlisted c).mpr hopen
  rw [h]

/-- The rest of `handleClose` changes no connection's state. -/
theorem handleCloseRest_frame {p : Place} {conn : Tcpconn Chan} (hcall : s.Called c (.handleClose c) p conn) :
    (s.handleCloseRest c conn p).stateOf = s.stateOf ∧
      (s.handleCloseRest c conn p).pc.channelList = p.channelList := by
  have hset : (s.unregister c conn).stateOf = s.stateOf := stateOf_setConn (s := s) hcall.conn rfl
  unfold handleCloseRest
  split <;> exact ⟨hset, rfl⟩

/-- What `epoll_wait` reports is registered, hence open. -/
theorem Registry.reported (hs : s.Registry) (hpc : s.pc = .wait) {reported : List (Chan × Events)}
    (hrep : s.Reported reported) {revent : Events} (hmem : (.conn c, revent) ∈ reported) :
    s.stateOf c = some .kConnected := by
  obtain ⟨-, ⟨entry, hentry, hptr, -⟩, -⟩ := hrep.2.2 _ hmem
  have hepfd : s.poll.epfd.lookup entry.1 = some entry.2 := AList.mem_lookup_iff.mpr hentry
  refine hs.connected (by rw [hpc]; rfl) (?_ : s.poll.channelMap.lookup entry.1 = some (.conn c))
  rw [hs.wiring.wired.inStep entry.1, hepfd, Option.map_some, hptr]

/-- `handleClose` of the connection that is handled leaves the others as they are. -/
theorem Dispatched.handleClose {t : Server} {conn : Tcpconn Chan} {revent : Events} {rest : List (Chan × Events)}
    (hs : s.Dispatched) (hpc : s.pc = .between (.dispatch ((.conn c, revent) :: rest)))
    (ht : t.stateOf = s.stateOf) : (t.handleClose c conn (.dispatch rest)).Dispatched := by
  refine hs.goOn ?_ ?_
  · rw [hpc]
    exact List.sublist_cons_self _ _
  · intro c' revent' hmem hopen
    have hne : c' ≠ c := fun heq => hs.not_mem hpc (heq ▸ hmem)
    rw [stateOf_handleClose, Function.update_of_ne hne, ht]
    exact hopen

theorem Dispatched.handleRead {revent : Events} {rest : List (Chan × Events)} {conn : Tcpconn Chan}
    {read : Option (List UInt8)} (hs : s.Dispatched) (hh : s.Handles c revent rest conn)
    (hread : s.handleRead c conn read (.dispatch rest) = some s') : s'.Dispatched := by
  obtain ⟨r, -, rfl⟩ := Option.map_eq_some_iff.mp hread
  have hset : (s.setConn c { conn with inBuffer := r.2 }).stateOf = s.stateOf := stateOf_setConn hh.conn rfl
  have hsub : rest.Sublist s.pc.channelList := by
    rw [hh.pc]
    exact List.sublist_cons_self _ _
  by_cases hfail : r.1 = -1
  · simp only [if_pos hfail]
    exact hs.handleClose hh.pc hset
  · simp only [if_neg hfail]
    by_cases heof : r.1 = 0
    · simp only [if_pos heof]
      refine hs.goOn hsub fun c' revent' _ hopen => ?_
      simp only [stateOf, msgCallBack, conns_connectDestroyed]
      exact (congrFun hset c').trans hopen
    · simp only [if_neg heof]
      exact hs.goOn hsub fun c' revent' _ hopen => (congrFun hset c').trans hopen

theorem Dispatched.step {e : ServerEv} (hs : s.Dispatched) (hinv : s.lifecycle.Inv) (hreg : s.Registry)
    (h : machine.step s e = some s') : s'.Dispatched := by
  have hlt : ∀ c, s.conns c ≠ none → c < s.next :=
    fun c hc => hinv.live_lt c fun hnone => hc (Option.map_eq_none_iff.mp hnone)
  cases step_cases h with
  | poll hpc hrep => exact ⟨hrep.2.1, fun c revent hmem => hreg.reported hpc hrep hmem⟩
  | wakeup hpc | timerfd hpc | acceptFailed hpc hio =>
    exact hs.goOn (by rw [hpc]; exact List.sublist_cons_self _ _) fun _ _ _ hopen => hopen
  | noCallBack hh hev =>
    exact hs.goOn (by rw [hh.pc]; exact List.sublist_cons_self _ _) fun _ _ _ hopen => hopen
  | accept hpc hio haccept =>
    obtain ⟨-, heq⟩ := Option.ite_none_left_eq_some.mp haccept
    cases heq
    refine hs.goOn (by rw [hpc]; exact List.sublist_cons_self _ _) fun c revent _ hopen => ?_
    refine (congrFun (stateOf_update s s.next (some (Tcpconn.new _ _ _ _))) c).trans ?_
    by_cases heq : c = s.next
    · rw [heq, Function.update_self]
      rfl
    · rw [Function.update_of_ne heq]
      exact hopen
  | closeEvent hh hev => exact hs.handleClose hh.pc rfl
  | read hh hev hread => exact hs.handleRead hh hread
  | write hh hev hwrite =>
    obtain ⟨w, hw, rfl⟩ := Option.map_eq_some_iff.mp hwrite
    obtain ⟨-, hstate, -⟩ := Tcpconn.handleWrite_frame hw
    refine hs.goOn (by rw [hh.pc]; exact List.sublist_cons_self _ _) fun c' _ _ hopen => ?_
    exact (congrFun (stateOf_setConn hh.conn hstate) c').trans hopen
  | handleFault | closeFault | retFault | functorTask | removeTask | closeTask | doPendingFunc => exact .of_nil rfl
  | endPendingFunc hpc =>
    have hidle : Dispatched { s with
        loop := { s.loop with callingPendingFunc := false }
        funcList := []
        pc := .wait } := .of_nil rfl
    exact hidle.sweep hlt hinv.connected_listed
  | @connectDestroyed c k p conn hcall =>
    refine hs.goOn (by rw [pc_connectDestroyed]) fun c' _ _ hopen => ?_
    rw [stateOf, conns_connectDestroyed]
    exact hopen
  | send hcall hholds hsend =>
    obtain ⟨w, hw, rfl⟩ := Option.map_eq_some_iff.mp hsend
    exact hs.goOn (List.Sublist.refl _) fun c' _ _ hopen =>
      (congrFun (stateOf_setConn hcall.conn (Tcpconn.state_sendInLoop hw)) c').trans hopen
  | @shutdown c k p conn hcall hholds =>
    have hset : (s.shutdown c conn).stateOf = s.stateOf := stateOf_setConn (s := s) hcall.conn rfl
    exact hs.goOn (List.Sublist.refl _) fun c' _ _ hopen => (congrFun hset c').trans hopen
  | queInLoop hpc => exact hs.goOn (List.Sublist.refl _) fun _ _ _ hopen => hopen
  | @drop c k p hpc =>
    have hdropped : Dispatched { s with held := s.held.erase c } :=
      hs.goOn (List.Sublist.refl _) fun _ _ _ hopen => hopen
    exact hdropped.sweep hlt hinv.connected_listed
  | @back arg p hpc =>
    have hbetween : Dispatched { s with pc := .between p } :=
      hs.goOn (by rw [hpc]; exact List.Sublist.refl _) fun _ _ _ hopen => hopen
    exact hbetween.sweep hlt hinv.connected_listed
  | @established c p conn hcall =>
    have hset : (s.setConn c (conn.connectEstablished s.poll).1).stateOf = s.stateOf := stateOf_setConn hcall.conn rfl
    exact hs.goOn (by rw [hcall.pc]; exact List.Sublist.refl _) fun c' _ _ hopen => (congrFun hset c').trans hopen
  | @closed c p conn hcall =>
    obtain ⟨hstate, hchannels⟩ := handleCloseRest_frame hcall
    exact hs.goOn (by rw [hchannels, hcall.pc]; exact List.Sublist.refl _) fun c' _ _ hopen =>
      (congrFun hstate c').trans hopen

/-! ## Sessions -/

/-- The callbacks of one connection. -/
def callbacks (s : Server) (c : ConnId) : List Callback := s.log.filter fun cb => cb.conn = c

/-- What the callbacks of a connection should have told. -/
def session (s : Server) (c : ConnId) : Session :=
  if s.next ≤ c then .fresh
  else if s.pc.closing = some c then .closing
  else if s.stateOf c = some .kConnected then .connected
  else .closed

theorem session_of_lt (hlt : c < s.next) (hclosing : s.pc.closing ≠ some c) :
    s.session c = if s.stateOf c = some .kConnected then .connected else .closed := by
  rw [session, if_neg (Nat.not_le.mpr hlt), if_neg hclosing]

theorem session_connected (hlt : c < s.next) (hclosing : s.pc.closing ≠ some c)
    (hopen : s.stateOf c = some .kConnected) : s.session c = .connected := by
  rw [session_of_lt hlt hclosing, if_pos hopen]

theorem session_closing (hlt : c < s.next) (hclosing : s.pc.closing = some c) : s.session c = .closing := by
  rw [session, if_neg (Nat.not_le.mpr hlt), if_pos hclosing]

theorem session_eq (hnext : s'.next ≤ c ↔ s.next ≤ c) (hclosing : s'.pc.closing = some c ↔ s.pc.closing = some c)
    (hstate : s'.stateOf c = some .kConnected ↔ s.stateOf c = some .kConnected) : s'.session c = s.session c := by
  simp only [session, hnext, hclosing, hstate]

/-- The callbacks called on the way to `s'` take every session along. -/
def Follows (again : Bool) (s s' : Server) : Prop :=
  ∃ called, s'.log = s.log ++ called ∧
    ∀ c, (Session.machine again).run (s.session c) (called.filter fun cb => cb.conn = c) = some (s'.session c)

variable {again : Bool}

theorem Follows.silent (hlog : s'.log = s.log) (hnext : s'.next = s.next) (hclosing : s'.pc.closing = s.pc.closing)
    (hstate : s'.stateOf = s.stateOf) : Follows again s s' := by
  refine ⟨[], by rw [hlog, List.append_nil], fun c => ?_⟩
  rw [List.filter_nil, Machine.run_nil, session_eq (by rw [hnext]) (by rw [hclosing]) (by rw [hstate])]

theorem Follows.sweep {t : Server} (hlog : t.log = s.log) (hnext : t.next = s.next)
    (hclosing : t.pc.closing = s.pc.closing) (hstate : t.stateOf = s.stateOf)
    (hlt : ∀ c, t.conns c ≠ none → c < t.next)
    (hlisted : ∀ c, t.stateOf c = some .kConnected → c ∈ t.tcpconnList) : Follows again s t.sweep := by
  obtain ⟨conns, openFds, epfd, hsweep⟩ := t.sweep_eq
  refine ⟨[], by rw [hsweep, ← hlog, List.append_nil], fun c => ?_⟩
  rw [List.filter_nil, Machine.run_nil, session_eq]
  · rw [hsweep, ← hnext]
  · rw [hsweep, ← hclosing]
  · rw [stateOf_sweep hlt hlisted, hstate]

/-- One callback is called: it takes the session of its connection along and no other. -/
theorem Follows.call (cb : Callback) (hlog : s'.log = s.log ++ [cb])
    (hself : Session.step again (s.session cb.conn) cb = some (s'.session cb.conn))
    (hother : ∀ c, c ≠ cb.conn → s'.session c = s.session c) : Follows again s s' := by
  refine ⟨[cb], hlog, fun c => ?_⟩
  by_cases heq : cb.conn = c
  · subst heq
    rw [List.filter_singleton, decide_eq_true rfl, cond_true, Machine.run_singleton]
    exact hself
  · rw [List.filter_singleton, decide_eq_false heq, cond_false, Machine.run_nil, hother c (Ne.symm heq)]

/-- `handleClose` starts. -/
theorem Follows.close {t : Server} {conn : Tcpconn Chan} {p : Place} (hstate : t.stateOf = s.stateOf)
    (hnext : t.next = s.next) (hlog : t.log = s.log) (hlt : c < s.next) (hclosing : s.pc.closing = none)
    (hstart : again = true ∨ s.stateOf c = some .kConnected) : Follows again s (t.handleClose c conn p) := by
  have hnot : ∀ c', s.pc.closing ≠ some c' := fun c' h => by rw [hclosing] at h; cases h
  refine .call (.connectionCallBack c .kClosed) (by rw [← hlog]; rfl) ?_ ?_
  · have hafter : (t.handleClose c conn p).session c = .closing := session_closing (hnext.symm ▸ hlt) rfl
    rw [show (Callback.connectionCallBack c .kClosed).conn = c from rfl, hafter, session_of_lt hlt (hnot c)]
    split
    · rfl
    · rename_i hclosed
      exact if_pos (hstart.resolve_right hclosed)
  · intro c' hc'
    have hne : c' ≠ c := hc'
    refine session_eq (by rw [← hnext]; rfl) (iff_of_false (fun h => hne (Option.some.inj h).symm) (hnot c')) ?_
    rw [stateOf_handleClose, Function.update_of_ne hne, hstate]

/-- A message is passed on for an open connection. -/
theorem Follows.message {t : Server} {p : Place} (hstate : t.stateOf = s.stateOf) (hnext : t.next = s.next)
    (hlog : t.log = s.log) (hlt : c < s.next) (hclosing : s.pc.closing = none)
    (hopen : s.stateOf c = some .kConnected) : Follows again s (t.msgCallBack c p) := by
  have hnot : ∀ c', s.pc.closing ≠ some c' := fun c' h => by rw [hclosing] at h; cases h
  have hsame : ∀ c', (t.msgCallBack c p).session c' = s.session c' := by
    intro c'
    refine session_eq (by rw [← hnext]; rfl) (iff_of_false (fun h => by cases h) (hnot c')) ?_
    rw [show (t.msgCallBack c p).stateOf = t.stateOf from rfl, hstate]
  refine .call (.msgCallBack c) (by rw [← hlog]; rfl) ?_ fun c' _ => hsame c'
  rw [hsame, show (Callback.msgCallBack c).conn = c from rfl, session_connected hlt (hnot c) hopen]
  rfl

theorem Follows.handleRead {revent : Events} {rest : List (Chan × Events)} {conn : Tcpconn Chan}
    {read : Option (List UInt8)} (hlt : c < s.next) (hopen : s.stateOf c = some .kConnected)
    (hh : s.Handles c revent rest conn) (hread : s.handleRead c conn read (.dispatch rest) = some s') :
    Follows again s s' := by
  obtain ⟨r, -, rfl⟩ := Option.map_eq_some_iff.mp hread
  have hset : (s.setConn c { conn with inBuffer := r.2 }).stateOf = s.stateOf := stateOf_setConn hh.conn rfl
  have hclosing : s.pc.closing = none := by rw [hh.pc]; rfl
  by_cases hfail : r.1 = -1
  · simp only [if_pos hfail]
    exact .close hset rfl rfl hlt hclosing (Or.inr hopen)
  · simp only [if_neg hfail]
    by_cases heof : r.1 = 0
    · simp only [if_pos heof]
      obtain ⟨loop, hloop, -⟩ := connectDestroyed_eq (s.setConn c { conn with inBuffer := r.2 }) c
        { conn with inBuffer := r.2 }
      rw [hloop]
      exact .message hset rfl rfl hlt hclosing hopen
    · simp only [if_neg heof]
      exact .message hset rfl rfl hlt hclosing hopen

/-- A new connection is announced. -/
theorem Follows.accept {ch : Chan × Events} {rest : List (Chan × Events)} {fd : Nat} {address : String}
    {event : Events} (hpc : s.pc = .between (.dispatch (ch :: rest)))
    (haccept : s.tcpserverConnection fd address event (.dispatch rest) = some s') : Follows again s s' := by
  obtain ⟨-, heq⟩ := Option.ite_none_left_eq_some.mp haccept
  cases heq
  have hnot : ∀ c, s.pc.closing ≠ some c := fun c h => by rw [hpc] at h; cases h
  have hstate := stateOf_update s s.next (some (Tcpconn.new (.conn s.next) fd address event))
  refine .call (.connectionCallBack s.next .kConnected) rfl ?_ ?_
  · have hfresh : s.session s.next = .fresh := if_pos (Nat.le_refl _)
    rw [show (Callback.connectionCallBack s.next .kConnected).conn = s.next from rfl, hfresh, session_connected]
    · rfl
    · exact Nat.lt_succ_self _
    · exact fun h => by cases h
    · exact (congrFun hstate s.next).trans (by rw [Function.update_self]; rfl)
  · intro c hc
    have hne : c ≠ s.next := hc
    refine session_eq ?_ (iff_of_false (fun h => by cases h) (hnot c)) ?_
    · exact ⟨Nat.le_of_succ_le, fun h => Nat.lt_of_le_of_ne h (Ne.symm hne)⟩
    · exact Eq.congr_left ((congrFun hstate c).trans (Function.update_of_ne hne _ _))

/-- `closeCallback` ends the session of the connection that is being closed. -/
theorem Follows.closed (hinv : s.lifecycle.Inv) {p : Place} {conn : Tcpconn Chan}
    (hcall : s.Called c (.handleClose c) p conn) : Follows again s (s.handleCloseRest c conn p) := by
  have hclosing : s.pc.closing = some c := by rw [hcall.pc]; rfl
  obtain ⟨hlt, hshut⟩ : c < s.next ∧ s.stateOf c ≠ some .kConnected := hinv.closing_closed c hclosing
  obtain ⟨hstate, -⟩ := handleCloseRest_frame hcall
  have hafter : (s.handleCloseRest c conn p).pc.closing = none ∧ (s.handleCloseRest c conn p).next = s.next ∧
      (s.handleCloseRest c conn p).log = s.log ++ [.closeCallback c] := by
    unfold handleCloseRest
    split <;> exact ⟨rfl, rfl, rfl⟩
  obtain ⟨hnone, hnext, hlog⟩ := hafter
  refine .call (.closeCallback c) hlog ?_ ?_
  · rw [show (Callback.closeCallback c).conn = c from rfl, session_closing hlt hclosing, session_of_lt, hstate,
      if_neg hshut]
    · rfl
    · rw [hnext]
      exact hlt
    · rw [hnone]
      exact fun h => by cases h
  · intro c' hc'
    have hne : c' ≠ c := hc'
    refine session_eq (by rw [hnext]) (iff_of_false (fun h => ?_) fun h => ?_) (by rw [hstate])
    · rw [hnone] at h
      cases h
    · rw [hclosing] at h
      exact hne (Option.some.inj h).symm

/-- **Every step calls callbacks that the connections' sessions allow.** -/
theorem session_step {e : ServerEv} (hinv : s.lifecycle.Inv) (hreg : s.Registry) (hdisp : s.Dispatched)
    (hagain : again = true ∨ ∀ c, .handleClose c ∈ s.queue → s.stateOf c = some .kConnected)
    (h : machine.step s e = some s') : Follows again s s' := by
  have hlt : ∀ c, s.conns c ≠ none → c < s.next :=
    fun c hc => hinv.live_lt c fun hnone => hc (Option.map_eq_none_iff.mp hnone)
  have hlive : ∀ c conn, s.conns c = some conn → c < s.next :=
    fun c conn hconn => hlt c (by rw [hconn]; exact Option.some_ne_none _)
  cases step_cases h with
  | poll hpc hrep | wakeup hpc | timerfd hpc | acceptFailed hpc hio | handleFault hpc hconn | closeFault hpc hconn
  | functorTask hpc | doPendingFunc hpc | removeTask hpc => exact .silent rfl rfl (by rw [hpc]; rfl) rfl
  | accept hpc hio haccept => exact .accept hpc haccept
  | @closeEvent c revent rest io conn hh hev =>
    refine .close rfl rfl rfl (hlive c conn hh.conn) (by rw [hh.pc]; rfl) (Or.inr ?_)
    exact hdisp.connected c revent (by rw [hh.pc]; exact List.mem_cons_self)
  | @read c revent rest io conn s' hh hev hread =>
    have hopen := hdisp.connected c revent (by rw [hh.pc]; exact List.mem_cons_self)
    exact .handleRead (hlive c conn hh.conn) hopen hh hread
  | write hh hev hwrite =>
    obtain ⟨w, hw, rfl⟩ := Option.map_eq_some_iff.mp hwrite
    obtain ⟨-, hstate, -⟩ := Tcpconn.handleWrite_frame hw
    exact .silent rfl rfl (by rw [hh.pc]; rfl) (stateOf_setConn hh.conn hstate)
  | noCallBack hh hev => exact .silent rfl rfl (by rw [hh.pc]; rfl) rfl
  | @closeTask c rest conn hpc hconn =>
    refine .close rfl rfl rfl (hlive c conn hconn) (by rw [hpc]; rfl) (hagain.imp_right fun h => h c ?_)
    rw [queue_drain hpc]
    exact List.mem_cons_self
  | endPendingFunc hpc => exact .sweep rfl rfl (by rw [hpc]; rfl) rfl hlt hinv.connected_listed
  | @connectDestroyed c k p conn hcall =>
    obtain ⟨loop, hloop, -⟩ := s.connectDestroyed_eq c conn
    rw [hloop]
    exact .silent rfl rfl rfl rfl
  | send hcall hholds hsend =>
    obtain ⟨w, hw, rfl⟩ := Option.map_eq_some_iff.mp hsend
    exact .silent rfl rfl rfl (stateOf_setConn hcall.conn (Tcpconn.state_sendInLoop hw))
  | shutdown hcall hholds => exact .silent rfl rfl rfl (stateOf_setConn (s := s) hcall.conn rfl)
  | queInLoop hpc => exact .silent rfl rfl rfl rfl
  | drop hpc => exact .sweep rfl rfl rfl rfl hlt hinv.connected_listed
  | back hpc => exact .sweep rfl rfl (by rw [hpc]; rfl) rfl hlt hinv.connected_listed
  | @established c p conn hcall =>
    have hset : (s.setConn c (conn.connectEstablished s.poll).1).stateOf = s.stateOf := stateOf_setConn hcall.conn rfl
    exact .silent rfl rfl (by rw [hcall.pc]; rfl) hset
  | closed hcall => exact .closed hinv hcall
  | @retFault c k p hpc hk hconn =>
    have hnone : s.stateOf c = none := Option.map_eq_none_iff.mpr hconn
    rcases hk with rfl | rfl
    · exact .silent rfl rfl (by rw [hpc]; rfl) rfl
    · -- the connection that is being closed is in `tcpconnList`
      exact absurd hnone (hinv.listed_live c (hreg.closing_listed c (by rw [hpc]; rfl)))

/-! ## Runs -/

/-- The callbacks of every connection are a run of its session. -/
def InOrder (again : Bool) (s : Server) : Prop :=
  ∀ c, (Session.machine again).run .fresh (s.callbacks c) = some (s.session c)

theorem inOrder_new (base : BaseFds) (tid : Tid) (cb : CloseCallBack) : (new base tid cb).InOrder again :=
  fun c => congrArg some (if_pos (Nat.zero_le c)).symm

theorem InOrder.follow (hs : s.InOrder again) (h : Follows again s s') : s'.InOrder again := by
  obtain ⟨called, hlog, hcalled⟩ := h
  intro c
  have hbefore : (Session.machine again).run .fresh (s.log.filter fun cb => cb.conn = c) = some (s.session c) := hs c
  rw [callbacks, hlog, List.filter_append, Machine.run_append, hbefore]
  exact hcalled c

/-- The invariants a step without a short write on a closed connection keeps. -/
structure Orderly (s : Server) : Prop where
  inv : s.lifecycle.Inv
  registry : s.Registry
  dispatched : s.Dispatched

theorem orderly_new (base : BaseFds) (tid : Tid) (cb : CloseCallBack) : (new base tid cb).Orderly :=
  ⟨inv_new base tid cb, registry_new base tid cb, dispatched_new base tid cb⟩

theorem Orderly.step {e : ServerEv} (hs : s.Orderly) (hopen : s.OpenWrites e) (h : machine.step s e = some s') :
    s'.Orderly where
  inv := step_lifecycle (fun _ _ _ hl hop => hl.step hop) hs.inv h
  registry := hs.registry.step hs.inv hopen h
  dispatched := hs.dispatched.step hs.inv hs.registry h

/-- **The callbacks of a connection come in order.** Where no short write registers a closed connection again, each
connection is first announced; its messages come before its end; and its end is announced by `connectionCallBack` and
then by `closeCallback`, once where each close is triggered once. -/
theorem callbacks_in_order (base : BaseFds) (tid : Tid) (cb : CloseCallBack) (es : List ServerEv) (s : Server)
    (h : machine.run (new base tid cb) es = some s) (hopen : machine.Meets OpenWrites (new base tid cb) es) :
    (∀ c, (Session.machine true).run .fresh (s.callbacks c) = some (s.session c)) ∧
    (machine.Meets TriggersOnce (new base tid cb) es →
      ∀ c, (Session.machine false).run .fresh (s.callbacks c) = some (s.session c)) := by
  constructor
  · have hs : s.Orderly ∧ s.InOrder true := by
      refine machine.run_invariant_of_meets (I := fun s => s.Orderly ∧ s.InOrder true) ?_ es _ s
        ⟨orderly_new base tid cb, inOrder_new base tid cb⟩ hopen h
      rintro t e t' ⟨ht, horder⟩ hopen hstep
      exact ⟨ht.step hopen hstep,
        horder.follow (session_step ht.inv ht.registry ht.dispatched (Or.inl rfl) hstep)⟩
    exact hs.2
  · intro honce
    have hs : (s.Orderly ∧ s.lifecycle.ClosedOnce) ∧ s.InOrder false := by
      refine machine.run_invariant_of_meets (I := fun s => (s.Orderly ∧ s.lifecycle.ClosedOnce) ∧ s.InOrder false) ?_ es
        _ s ⟨⟨orderly_new base tid cb, closedOnce_new base tid cb⟩, inOrder_new base tid cb⟩ (hopen.and honce) h
      rintro t e t' ⟨⟨ht, hclosed⟩, horder⟩ ⟨hopen, honce⟩ hstep
      exact ⟨⟨ht.step hopen hstep, ClosedOnce.step t e t' hclosed honce hstep⟩,
        horder.follow (session_step ht.inv ht.registry ht.dispatched (Or.inr hclosed.waiting_open) hstep)⟩
    exact hs.2

/-- A message comes, and then the peer closes the connection. -/
def messageThenClose : List ServerEv :=
  acceptSeven ++ [.poll [(.conn 0, readEvent)], .handle ⟨none, some [97], 0⟩, .ret, .doPendingFunc, .endPendingFunc,
    .poll [(.conn 0, closeEvent)], .handle ⟨none, none, 0⟩, .ret, .doPendingFunc, .runTask, .endPendingFunc]

theorem callbacks_in_order_messageThenClose :
    ∃ s, machine.run (new smallBase 1 .removeTcpConnInloop) messageThenClose = some s ∧
      s.callbacks 0 = [.connectionCallBack 0 .kConnected, .msgCallBack 0, .connectionCallBack 0 .kClosed,
        .closeCallback 0] ∧ (Session.machine false).run .fresh (s.callbacks 0) = some (s.session 0) := by
  have hrun : (machine.run (new smallBase 1 .removeTcpConnInloop) messageThenClose).map (fun s => s.callbacks 0) =
      some [.connectionCallBack 0 .kConnected, .msgCallBack 0, .connectionCallBack 0 .kClosed, .closeCallback 0] := by
    decide +kernel
  have hopen : machine.Meets OpenWrites (new smallBase 1 .removeTcpConnInloop) messageThenClose := by decide +kernel
  have honce : machine.Meets TriggersOnce (new smallBase 1 .removeTcpConnInloop) messageThenClose := by decide +kernel
  obtain ⟨s, hs, hlog⟩ := Option.map_eq_some_iff.mp hrun
  exact ⟨s, hs, hlog, (callbacks_in_order smallBase 1 .removeTcpConnInloop messageThenClose s hs hopen).2 honce 0⟩

end Server

end NetImitate
