import NetImitate.Tcpserver.Close

/-!
# Closed connections and the poller

Between two handlers the connections registered with the poller are to be the open ones. A send that ends in a short
write registers its connection again, whatever the connection's state.

* `Wiring` : every connection's channel watches the descriptor of that connection, which is open;
* `Registry`, `Registry.step` : a registered connection is open, or its `handleClose` is under way;
* `closed_is_final` : so it is in a run without a short write on a closed connection, and a descriptor that is handed
  out again gets its new connection;
* `closed_registered` : what one short write on a closed connection does.
-/

namespace NetImitate

/-! ## Wiring -/

/-- The descriptor of a channel; a connection's goes with the connection. -/
def fdOf (base : BaseFds) (conns : ConnId → Option (Tcpconn Chan)) : Chan → Option Nat
  | .wakeup => some base.wakeupFd
  | .timerfd => some base.timerfd
  | .acceptor => some base.acceptFd
  | .conn c => (conns c).map fun conn => conn.connectSocket.socketfd

/-- The channel of connection `c` watches the connection's own descriptor. -/
structure Tcpconn.Own (conn : Tcpconn Chan) (c : ConnId) : Prop where
  self : conn.socketChannel.self = .conn c
  socketFd : conn.socketChannel.socketFd = conn.connectSocket.socketfd
  index : conn.socketChannel.index = conn.socketChannel.socketFd

structure Wiring (base : BaseFds) (conns : ConnId → Option (Tcpconn Chan)) (openFds : Finset Nat) (poll : Poll Chan) :
    Prop where
  wired : poll.Wired (fdOf base conns)
  own : ∀ c conn, conns c = some conn → conn.Own c
  fd_open : ∀ ch fd, fdOf base conns ch = some fd → fd ∈ openFds

section Wiring
variable {base : BaseFds} {conns : ConnId → Option (Tcpconn Chan)} {openFds : Finset Nat} {poll : Poll Chan}
  {c : ConnId} {conn conn' : Tcpconn Chan}

theorem Tcpconn.Own.event (h : conn.Own c) (event : Events) :
    Tcpconn.Own { conn with socketChannel := { conn.socketChannel with event := event } } c :=
  ⟨h.self, h.socketFd, h.index⟩

theorem fdOf_conn (base : BaseFds) (hconn : conns c = some conn) :
    fdOf base conns (.conn c) = some conn.connectSocket.socketfd := by
  simp only [fdOf, hconn, Option.map_some]

theorem fdOf_update (base : BaseFds) (conns : ConnId → Option (Tcpconn Chan)) (c : ConnId)
    (conn : Option (Tcpconn Chan)) : fdOf base (Function.update conns c conn) =
      Function.update (fdOf base conns) (.conn c) (conn.map fun conn => conn.connectSocket.socketfd) := by
  funext ch
  cases ch with
  | wakeup | timerfd | acceptor => rfl
  | conn c' =>
    by_cases heq : c' = c
    · simp only [fdOf, heq, Function.update_self]
    · have hne : Chan.conn c' ≠ .conn c := fun h => heq (by cases h; rfl)
      simp only [fdOf, Function.update_of_ne heq, Function.update_of_ne hne]

/-- A connection is written back with the descriptor it had. -/
theorem fdOf_setConn (base : BaseFds) (hconn : conns c = some conn)
    (hfd : conn'.connectSocket.socketfd = conn.connectSocket.socketfd) :
    fdOf base (Function.update conns c (some conn')) = fdOf base conns := by
  rw [fdOf_update, Option.map_some, hfd, ← fdOf_conn base hconn, Function.update_eq_self]

theorem own_update {o : Option (Tcpconn Chan)} (h : ∀ c conn, conns c = some conn → conn.Own c)
    (ho : ∀ conn, o = some conn → conn.Own c) :
    ∀ c' conn, Function.update conns c o c' = some conn → conn.Own c' := by
  intro c' conn hconn
  by_cases heq : c' = c
  · rw [heq, Function.update_self] at hconn
    exact heq ▸ ho conn hconn
  · rw [Function.update_of_ne heq] at hconn
    exact h c' conn hconn

theorem Wiring.setConn (h : Wiring base conns openFds poll) (hconn : conns c = some conn)
    (hfd : conn'.connectSocket.socketfd = conn.connectSocket.socketfd) (hown : conn'.Own c) :
    Wiring base (Function.update conns c (some conn')) openFds poll := by
  have hfdOf := fdOf_setConn base hconn hfd
  refine ⟨by rw [hfdOf]; exact h.wired, own_update h.own ?_, by rw [hfdOf]; exact h.fd_open⟩
  intro conn'' hconn''
  exact Option.some.inj hconn'' ▸ hown

/-- What stands under a connection's descriptor is the connection. -/
theorem Wiring.eq_of_lookup (h : Wiring base conns openFds poll) (hconn : conns c = some conn) {ch : Chan}
    (hlookup : poll.channelMap.lookup conn.connectSocket.socketfd = some ch) : ch = .conn c :=
  h.wired.eq_of_lookup (fdOf_conn base hconn) hlookup

/-- A registered connection is in memory, and stands under its own descriptor. -/
theorem Wiring.live (h : Wiring base conns openFds poll) {fd : Nat}
    (hlookup : poll.channelMap.lookup fd = some (.conn c)) :
    ∃ conn, conns c = some conn ∧ conn.connectSocket.socketfd = fd :=
  Option.map_eq_some_iff.mp (h.wired.owner fd (.conn c) hlookup)

theorem Wiring.fdOf_self (h : Wiring base conns openFds poll) (hconn : conns c = some conn) :
    fdOf base conns conn.socketChannel.self = some conn.socketChannel.socketFd := by
  rw [(h.own c conn hconn).self, (h.own c conn hconn).socketFd]
  exact fdOf_conn base hconn

/-- `RegistEvennt` of a connection's channel. -/
theorem Wiring.registEvennt (h : Wiring base conns openFds poll) (hconn : conns c = some conn) :
    Wiring base conns openFds (poll.registEvennt conn.socketChannel) :=
  ⟨h.wired.registEvennt (h.own c conn hconn).index (h.fdOf_self hconn), h.own, h.fd_open⟩

theorem Wiring.lookup_registEvennt (h : Wiring base conns openFds poll) (hconn : conns c = some conn) (fd : Nat) :
    (poll.registEvennt conn.socketChannel).channelMap.lookup fd =
      if fd = conn.connectSocket.socketfd then some (.conn c) else poll.channelMap.lookup fd := by
  rw [h.wired.lookup_registEvennt (h.own c conn hconn).index (h.fdOf_self hconn), (h.own c conn hconn).self,
    (h.own c conn hconn).socketFd]

theorem Wiring.removeChannel (h : Wiring base conns openFds poll) (hconn : conns c = some conn) :
    Wiring base conns openFds (poll.removeChannel conn.socketChannel) :=
  ⟨h.wired.removeChannel (h.own c conn hconn).index, h.own, h.fd_open⟩

/-- The entries that are left are those of other channels. -/
theorem Wiring.of_removeChannel (h : Wiring base conns openFds poll) (hconn : conns c = some conn) {fd : Nat}
    {ch : Chan} (hlookup : (poll.removeChannel conn.socketChannel).channelMap.lookup fd = some ch) :
    ch ≠ .conn c ∧ poll.channelMap.lookup fd = some ch := by
  rw [Poll.channelMap_removeChannel, (h.own c conn hconn).index, (h.own c conn hconn).socketFd] at hlookup
  split at hlookup
  · cases hlookup
  · rename_i hfd
    refine ⟨fun heq => hfd ?_, hlookup⟩
    have howner := h.wired.owner fd ch hlookup
    rw [heq, fdOf_conn base hconn, Option.some.injEq] at howner
    exact howner.symm

/-- A connection is made for a descriptor that was not open. -/
theorem Wiring.accept (h : Wiring base conns openFds poll) (hc : conns c = none) {fd : Nat} (hfd : fd ∉ openFds)
    (hopen : conn.connectSocket.socketfd = fd) (hown : conn.Own c) :
    Wiring base (Function.update conns c (some conn)) (insert fd openFds) poll := by
  have hfdOf : fdOf base (Function.update conns c (some conn)) =
      Function.update (fdOf base conns) (.conn c) (some fd) := by
    rw [fdOf_update, Option.map_some, hopen]
  have hnone : fdOf base conns (.conn c) = none := by
    simp only [fdOf, hc, Option.map_none]
  refine ⟨?_, own_update h.own fun conn' hconn' => Option.some.inj hconn' ▸ hown, ?_⟩
  · rw [hfdOf]
    exact h.wired.open hnone fun ch hch => hfd (h.fd_open ch fd hch)
  · intro ch fd' hfd'
    rw [hfdOf] at hfd'
    by_cases heq : ch = .conn c
    · rw [heq, Function.update_self, Option.some.injEq] at hfd'
      exact hfd' ▸ Finset.mem_insert_self _ _
    · rw [Function.update_of_ne heq] at hfd'
      exact Finset.mem_insert_of_mem (h.fd_open ch fd' hfd')

/-- A connection that is not registered is destroyed, which closes its descriptor. -/
theorem Wiring.destroy (h : Wiring base conns openFds poll) (hconn : conns c = some conn)
    (hlookup : poll.channelMap.lookup conn.connectSocket.socketfd = none) :
    Wiring base (Function.update conns c none) (openFds.erase conn.connectSocket.socketfd)
      { poll with epfd := Epoll.ctlDel poll.epfd conn.connectSocket.socketfd } := by
  have hfd := fdOf_conn base hconn
  have hfdOf : fdOf base (Function.update conns c none) = Function.update (fdOf base conns) (.conn c) none :=
    fdOf_update base conns c none
  refine ⟨?_, own_update h.own (fun conn' hconn' => by cases hconn'), ?_⟩
  · rw [hfdOf]
    exact h.wired.close hlookup hfd
  · intro ch fd' hfd'
    rw [hfdOf] at hfd'
    by_cases heq : ch = .conn c
    · rw [heq, Function.update_self] at hfd'
      cases hfd'
    · rw [Function.update_of_ne heq] at hfd'
      -- no other channel has the descriptor that is closed
      refine Finset.mem_erase.mpr ⟨fun hclose => heq ?_, h.fd_open ch fd' hfd'⟩
      exact h.wired.inj ch (.conn c) _ (hclose ▸ hfd') hfd

end Wiring

/-! ## The invariant -/

/-- The connection whose `ConnectEstablished` is in its `connectionCallBack`. -/
def ServerPc.establishing : ServerPc → Option ConnId
  | .user (.connectEstablished c) _ => some c
  | _ => none

namespace Server

/-- Every registered connection is open, but for the one whose `handleClose` is under way; the connections that the
thread is about to use are in `tcpconnList`. -/
structure Registry (s : Server) : Prop where
  wiring : Wiring s.base s.conns s.openFds s.poll
  registered : ∀ c fd, s.poll.channelMap.lookup fd = some (.conn c) →
    s.stateOf c = some .kConnected ∨ s.pc.closing = some c
  dispatched : ∀ c revent, (.conn c, revent) ∈ s.pc.channelList → c ∈ s.tcpconnList
  closing_listed : ∀ c, s.pc.closing = some c → c ∈ s.tcpconnList
  establishing : ∀ c, s.pc.establishing = some c → s.stateOf c = some .kConnected ∧ c ∉ s.held ∧
    ∀ fd, s.poll.channelMap.lookup fd ≠ some (.conn c)
  held_live : ∀ c ∈ s.held, s.stateOf c ≠ none

variable {s : Server} {c : ConnId} {conn conn' : Tcpconn Chan}

/-- The thread goes on to `pc` and finds nothing there that it would not have found. -/
theorem Registry.goOn (hs : s.Registry) {loop : Eventloop ServerTask} {funcList : List ServerTask} {pc : ServerPc}
    {log : List Callback} (hchannels : pc.channelList ⊆ s.pc.channelList) (hclosing : pc.closing = s.pc.closing)
    (hestablishing : pc.establishing = none ∨ pc = s.pc) :
    Registry { s with loop := loop, funcList := funcList, pc := pc, log := log } where
  wiring := hs.wiring
  registered := fun c fd hlookup => by rw [hclosing]; exact hs.registered c fd hlookup
  dispatched := fun c revent hmem => hs.dispatched c revent (hchannels hmem)
  closing_listed := fun c hc => hs.closing_listed c (hclosing ▸ hc)
  establishing := fun c hc => by
    rcases hestablishing with hnone | hsame
    · rw [hnone] at hc
      cases hc
    · exact hs.establishing c (hsame ▸ hc)
  held_live := hs.held_live

/-- A connection is written back with its state, its descriptor and its channel. -/
theorem Registry.setConn (hs : s.Registry) (hconn : s.conns c = some conn) (hstate : conn'.state = conn.state)
    (hfd : conn'.connectSocket.socketfd = conn.connectSocket.socketfd) (hown : conn'.Own c) :
    (s.setConn c conn').Registry := by
  have hsame : (s.setConn c conn').stateOf = s.stateOf := stateOf_setConn hconn hstate
  refine ⟨hs.wiring.setConn hconn hfd hown, ?_, hs.dispatched, hs.closing_listed, ?_, ?_⟩
  · rw [hsame]
    exact hs.registered
  · rw [hsame]
    exact hs.establishing
  · rw [hsame]
    exact hs.held_live

/-- An open connection, or the one that is being closed, registers its channel again. -/
theorem Registry.registEvennt (hs : s.Registry) (hconn : s.conns c = some conn)
    (hopen : conn.state = .kConnected ∨ s.pc.closing = some c) (hnot : s.pc.establishing ≠ some c) :
    Registry { s with poll := s.poll.registEvennt conn.socketChannel } := by
  refine ⟨hs.wiring.registEvennt hconn, ?_, hs.dispatched, hs.closing_listed, ?_,
    hs.held_live⟩
  · intro c' fd hlookup
    rw [hs.wiring.lookup_registEvennt hconn] at hlookup
    split at hlookup
    · cases hlookup
      exact hopen.imp_left fun hst => by rw [← hst]; exact stateOf_eq hconn
    · exact hs.registered c' fd hlookup
  · intro c' hc'
    obtain ⟨hstate, hheld, hlookup⟩ := hs.establishing c' hc'
    refine ⟨hstate, hheld, ?_⟩
    intro fd hfd
    rw [hs.wiring.lookup_registEvennt hconn] at hfd
    split at hfd
    · cases hfd
      exact hnot hc'
    · exact hlookup fd hfd

/-- While no close is under way. -/
theorem Registry.connected (hs : s.Registry) (hclosing : s.pc.closing = none) {fd : Nat}
    (hlookup : s.poll.channelMap.lookup fd = some (.conn c)) : s.stateOf c = some .kConnected := by
  rcases hs.registered c fd hlookup with hopen | hc
  · exact hopen
  · rw [hclosing] at hc
    cases hc

/-- A registered connection is in `tcpconnList`. -/
theorem Registry.listed (hs : s.Registry) (hlisted : ∀ c, s.stateOf c = some .kConnected → c ∈ s.tcpconnList)
    {fd : Nat} (hlookup : s.poll.channelMap.lookup fd = some (.conn c)) : c ∈ s.tcpconnList := by
  rcases hs.registered c fd hlookup with hopen | hclosing
  · exact hlisted c hopen
  · exact hs.closing_listed c hclosing

theorem Registry.poll (hs : s.Registry) (hinv : s.lifecycle.Inv) (hpc : s.pc = .wait)
    {reported : List (Chan × Events)} (hrep : s.Reported reported) :
    Registry { s with pc := .between (.dispatch reported) } := by
  have hclosing : s.pc.closing = none := by rw [hpc]; rfl
  refine ⟨hs.wiring, ?_, ?_, (fun c hc => by cases hc),
    (fun c hc => by cases hc), hs.held_live⟩
  · intro c fd hlookup
    exact Or.inl (hs.connected hclosing hlookup)
  · intro c revent hmem
    -- what `epoll_wait` reports is in the interest list, hence in `channelMap`
    obtain ⟨-, ⟨entry, hentry, hptr, -⟩, -⟩ := hrep.2.2 _ hmem
    have hepfd : s.poll.epfd.lookup entry.1 = some entry.2 := AList.mem_lookup_iff.mpr hentry
    have hlookup : s.poll.channelMap.lookup entry.1 = some (.conn c) := by
      rw [hs.wiring.wired.inStep entry.1, hepfd, Option.map_some, hptr]
    exact hs.listed hinv.connected_listed hlookup

theorem Registry.accept {s' : Server} (hs : s.Registry) (hinv : s.lifecycle.Inv) {ch : Chan × Events}
    {rest : List (Chan × Events)} {fd : Nat} {address : String} {event : Events}
    (hpc : s.pc = .between (.dispatch (ch :: rest)))
    (haccept : s.tcpserverConnection fd address event (.dispatch rest) = some s') : s'.Registry := by
  have hfresh : s.stateOf s.next = none := by
    by_contra hlive
    exact Nat.lt_irrefl _ (hinv.live_lt s.next hlive)
  have hnone : s.conns s.next = none := Option.map_eq_none_iff.mp hfresh
  have hclosing : s.pc.closing = none := by rw [hpc]; rfl
  have hregistered : ∀ c fd, s.poll.channelMap.lookup fd = some (.conn c) → c ≠ s.next := by
    intro c fd' hlookup heq
    obtain ⟨conn, hconn, -⟩ := hs.wiring.live hlookup
    rw [heq, hnone] at hconn
    cases hconn
  obtain ⟨hfd, hsome⟩ := Option.ite_none_left_eq_some.mp haccept
  have heq := Option.some.inj hsome
  have hstate : s'.stateOf = Function.update s.stateOf s.next (some .kConnected) := by
    rw [← heq]
    exact stateOf_update s s.next (some (Tcpconn.new (.conn s.next) fd address event))
  subst heq
  refine ⟨hs.wiring.accept hnone hfd rfl ⟨rfl, rfl, rfl⟩, ?_, ?_,
    (fun c hc => by cases hc), ?_, ?_⟩
  · intro c fd' hlookup
    rw [hstate, Function.update_of_ne (hregistered c fd' hlookup)]
    exact Or.inl (hs.connected hclosing hlookup)
  · intro c revent hmem
    refine Finset.mem_insert_of_mem (hs.dispatched c revent ?_)
    rw [hpc]
    exact List.mem_cons_of_mem _ hmem
  · intro c hc
    obtain rfl : s.next = c := Option.some.inj hc
    refine ⟨?_, fun hheld => hs.held_live s.next hheld hfresh, fun fd' hlookup => hregistered _ fd' hlookup rfl⟩
    rw [hstate, Function.update_self]
  · intro c hc
    have hlive := hs.held_live c hc
    have hne : c ≠ s.next := fun heq => hlive (heq ▸ hfresh)
    rw [hstate, Function.update_of_ne hne]
    exact hlive

/-- `handleClose` of a connection in `tcpconnList` starts. -/
theorem Registry.handleClose (hs : s.Registry) (hconn : s.conns c = some conn) (hlisted : c ∈ s.tcpconnList)
    (hclosing : s.pc.closing = none) {p : Place} (hchannels : p.channelList ⊆ s.pc.channelList) :
    (s.handleClose c conn p).Registry := by
  have hstate : ∀ c', c' ≠ c → (s.handleClose c conn p).stateOf c' = s.stateOf c' := by
    intro c' hc'
    rw [show (s.handleClose c conn p).stateOf = Function.update s.stateOf c (some .kClosed) from stateOf_update s c _,
      Function.update_of_ne hc']
  have hown := hs.wiring.own c conn hconn
  refine ⟨hs.wiring.setConn hconn rfl ⟨hown.self, hown.socketFd, hown.index⟩, ?_,
    fun c' revent hmem => hs.dispatched c' revent (hchannels hmem), ?_, (fun c' hc' => by cases hc'),
    ?_⟩
  · intro c' fd hlookup
    by_cases heq : c' = c
    · exact Or.inr (heq ▸ rfl)
    · rw [hstate c' heq]
      exact Or.inl (hs.connected hclosing hlookup)
  · intro c' hc'
    obtain rfl : c = c' := Option.some.inj hc'
    exact hlisted
  · intro c' hc'
    by_cases heq : c' = c
    · rw [heq, stateOf_eq (Function.update_self _ _ _)]
      exact Option.some_ne_none _
    · rw [hstate c' heq]
      exact hs.held_live c' hc'

/-- The user's code runs next, with a `shared_ptr` to a connection as its argument. -/
theorem Registry.pass (hs : s.Registry) (hconn : s.conns c = some conn) (hclosing : s.pc.closing = none) {p : Place}
    (hchannels : p.channelList ⊆ s.pc.channelList) (log : List Callback) :
    Registry { s with held := insert c s.held, pc := .user (.back (some c)) p, log := log } := by
  refine ⟨hs.wiring, fun c fd hlookup => Or.inl (hs.connected hclosing hlookup),
    fun c revent hmem => hs.dispatched c revent (hchannels hmem), (fun c hc => by cases hc),
    (fun c hc => by cases hc), ?_⟩
  intro c' hc'
  rcases Finset.mem_insert.mp hc' with rfl | hc'
  · have hlive : s.stateOf c' ≠ none := by
      rw [stateOf_eq hconn]
      exact Option.some_ne_none _
    exact hlive
  · exact hs.held_live c' hc'

theorem Registry.connectDestroyed (hs : s.Registry) : (s.connectDestroyed c conn).Registry := by
  unfold Server.connectDestroyed
  split
  · exact hs
  · exact hs.goOn (List.Subset.refl _) rfl (Or.inr rfl)

theorem Registry.handleRead {s' : Server} (hs : s.Registry) {revent : Events} {rest : List (Chan × Events)}
    (hh : s.Handles c revent rest conn) {read : Option (List UInt8)}
    (hread : s.handleRead c conn read (.dispatch rest) = some s') : s'.Registry := by
  obtain ⟨r, -, rfl⟩ := Option.map_eq_some_iff.mp hread
  have hown := hs.wiring.own c conn hh.conn
  have hset : (s.setConn c { conn with inBuffer := r.2 }).Registry :=
    hs.setConn hh.conn rfl rfl ⟨hown.self, hown.socketFd, hown.index⟩
  have hconn : (s.setConn c { conn with inBuffer := r.2 }).conns c = some { conn with inBuffer := r.2 } :=
    Function.update_self _ _ _
  have hclosing : s.pc.closing = none := by rw [hh.pc]; rfl
  have hchannels : rest ⊆ s.pc.channelList := by
    rw [hh.pc]
    exact List.subset_cons_self _ _
  have hlisted : c ∈ s.tcpconnList := hs.dispatched c revent (by rw [hh.pc]; exact List.mem_cons_self)
  by_cases hfail : r.1 = -1
  · simp only [if_pos hfail]
    exact hset.handleClose hconn hlisted hclosing hchannels
  · simp only [if_neg hfail]
    by_cases heof : r.1 = 0
    · simp only [if_pos heof]
      unfold msgCallBack
      refine hset.connectDestroyed.pass (by rw [conns_connectDestroyed]; exact hconn) ?_ ?_ _
      · rw [pc_connectDestroyed]
        exact hclosing
      · rw [pc_connectDestroyed]
        exact hchannels
    · simp only [if_neg heof]
      exact hset.pass (p := .dispatch rest) hconn hclosing hchannels _

theorem Registry.handleWrite {s' : Server} (hs : s.Registry) {revent : Events} {rest : List (Chan × Events)}
    (hh : s.Handles c revent rest conn) {ret : Int} (hwrite : s.handleWrite c conn ret (.dispatch rest) = some s') :
    s'.Registry := by
  obtain ⟨w, hw, rfl⟩ := Option.map_eq_some_iff.mp hwrite
  obtain ⟨hpoll, hstate, hsocket, event, hchannel⟩ := Tcpconn.handleWrite_frame hw
  have hown := hs.wiring.own c conn hh.conn
  have hbetween : Registry { s with pc := .between (.dispatch rest) } := by
    refine hs.goOn ?_ ?_ (Or.inl rfl)
    · rw [hh.pc]
      exact List.subset_cons_self _ _
    · rw [hh.pc]
      rfl
  rw [hpoll]
  refine hbetween.setConn hh.conn hstate (by rw [hsocket]) ⟨?_, ?_, ?_⟩
  · rw [hchannel]
    exact hown.self
  · rw [hchannel, hsocket]
    exact hown.socketFd
  · rw [hchannel]
    exact hown.index

theorem Registry.drop (hs : s.Registry) : Registry { s with held := s.held.erase c } := by
  refine ⟨hs.wiring, hs.registered, hs.dispatched, hs.closing_listed, ?_, ?_⟩
  · intro c' hc'
    obtain ⟨hopen, hheld, hlookup⟩ := hs.establishing c' hc'
    exact ⟨hopen, fun hmem => hheld (Finset.mem_of_mem_erase hmem), hlookup⟩
  · intro c' hc'
    exact hs.held_live c' (Finset.mem_of_mem_erase hc')

/-- The rest of `handleClose` takes the connection out of the registry. -/
theorem Registry.closed (hs : s.Registry) {p : Place} (hcall : s.Called c (.handleClose c) p conn) :
    (s.handleCloseRest c conn p).Registry := by
  have hown := hs.wiring.own c conn hcall.conn
  have hclosing : s.pc.closing = some c := by rw [hcall.pc]; rfl
  set conn' : Tcpconn Chan := { conn with socketChannel := { conn.socketChannel with event := noneEvent } }
  have hconn' : (s.setConn c conn').conns c = some conn' := Function.update_self _ _ _
  have hset : (s.setConn c conn').Registry := hs.setConn hcall.conn rfl rfl (hown.event noneEvent)
  have hdisabled := hset.registEvennt hconn' (Or.inr hclosing)
    (by rw [show (s.setConn c conn').pc = s.pc from rfl, hcall.pc]; exact fun h => by cases h)
  have hwiring := hdisabled.wiring.removeChannel hconn'
  have hconnected : ∀ c' fd, (s.unregister c conn).poll.channelMap.lookup fd = some (.conn c') →
      (s.unregister c conn).stateOf c' = some .kConnected := by
    intro c' fd hlookup
    obtain ⟨hne, hbefore⟩ := hdisabled.wiring.of_removeChannel hconn' hlookup
    rcases hdisabled.registered c' fd hbefore with hopen | hc
    · exact hopen
    · obtain rfl : c = c' := Option.some.inj (hclosing.symm.trans hc)
      exact absurd rfl hne
  have hremoved : Registry { s.unregister c conn with pc := .between p } := by
    refine ⟨hwiring, fun c' fd hlookup => Or.inl (hconnected c' fd hlookup), ?_,
      (fun c hc => by cases hc), (fun c hc => by cases hc), hdisabled.held_live⟩
    intro c' revent hmem
    refine hs.dispatched c' revent ?_
    rw [hcall.pc]
    exact hmem
  unfold handleCloseRest
  cases s.tcpCloseCallBack with
  | removeTcpConnInloop => exact hremoved.goOn (List.Subset.refl _) rfl (Or.inl rfl)
  | user => exact hremoved.pass hconn' rfl (List.Subset.refl _) _

/-- A connection nothing refers to is not registered, and is destroyed. -/
theorem Registry.destroy (hs : s.Registry) (hlisted : ∀ c, s.stateOf c = some .kConnected → c ∈ s.tcpconnList)
    (href : s.referenced c = false) : (s.destroy c).Registry := by
  have hlist : c ∉ s.tcpconnList := fun hmem => by simp [referenced, hmem] at href
  have hheld : c ∉ s.held := fun hmem => by simp [referenced, hmem] at href
  cases hconn : s.conns c with
  | none =>
    have hsame : s.destroy c = s := by
      unfold Server.destroy
      rw [hconn]
    rw [hsame]
    exact hs
  | some conn =>
    have hlookup : s.poll.channelMap.lookup conn.connectSocket.socketfd = none := by
      by_contra hsome
      obtain ⟨ch, hch⟩ := Option.ne_none_iff_exists'.mp hsome
      rw [hs.wiring.eq_of_lookup hconn hch] at hch
      exact hlist (hs.listed hlisted hch)
    have hother : ∀ c', c' ≠ c → (s.destroy c).stateOf c' = s.stateOf c' := by
      intro c' hc'
      rw [stateOf_destroy, Function.update_of_ne hc']
    have heq : s.destroy c = { s with
        conns := Function.update s.conns c none
        openFds := s.openFds.erase conn.connectSocket.socketfd
        poll := { s.poll with epfd := Epoll.ctlDel s.poll.epfd conn.connectSocket.socketfd } } := by
      unfold Server.destroy
      rw [hconn]
    rw [heq] at hother ⊢
    refine ⟨hs.wiring.destroy hconn hlookup, ?_, hs.dispatched, hs.closing_listed, ?_,
      ?_⟩
    · intro c' fd hfd
      rw [hother c' (fun heq => hlist (heq ▸ hs.listed hlisted hfd))]
      exact hs.registered c' fd hfd
    · intro c' hc'
      obtain ⟨hopen, hrest⟩ := hs.establishing c' hc'
      rw [hother c' (fun heq => hlist (heq ▸ hlisted c' hopen))]
      exact ⟨hopen, hrest⟩
    · intro c' hc'
      rw [hother c' (fun heq => hheld (heq ▸ hc'))]
      exact hs.held_live c' hc'

theorem Registry.sweep (hs : s.Registry) (hlisted : ∀ c, s.stateOf c = some .kConnected → c ∈ s.tcpconnList) :
    s.sweep.Registry := by
  refine (sweep_induction (P := fun t => (∀ c, t.stateOf c = some .kConnected → c ∈ t.tcpconnList) ∧ t.Registry)
    ⟨hlisted, hs⟩ ?_).2
  rintro t c ⟨hlisted, ht⟩ href
  refine ⟨?_, ht.destroy hlisted href⟩
  intro c' hc'
  have hlist : (t.destroy c).tcpconnList = t.tcpconnList := by
    obtain ⟨openFds, epfd, hdestroy⟩ := t.destroy_eq c
    rw [hdestroy]
  rw [stateOf_destroy] at hc'
  rw [hlist]
  by_cases heq : c' = c
  · rw [heq, Function.update_self] at hc'
    cases hc'
  · exact hlisted c' (by rwa [Function.update_of_ne heq] at hc')

/-! ## The step lemma -/

/-- No short write on a closed connection, but for the one whose `handleClose` is under way. -/
def OpenWrites (s : Server) : ServerEv → Prop
  | .send c str ret => ∀ conn ∈ s.conns c, conn.ShortWrite str ret → conn.state = .kConnected ∨ s.pc.closing = some c
  | _ => True

instance (s : Server) (e : ServerEv) : Decidable (s.OpenWrites e) := by
  unfold OpenWrites
  cases e <;> infer_instance

/-- While a connection is being established the user's code has no `shared_ptr` to it. -/
theorem Registry.not_establishing (hs : s.Registry) (hholds : s.Holds c) : s.pc.establishing ≠ some c := by
  intro hestablishing
  rcases hholds with hheld | harg
  · exact (hs.establishing c hestablishing).2.1 hheld
  · unfold ServerPc.arg at harg
    split at harg
    · rename_i hpc
      rw [hpc] at hestablishing
      cases hestablishing
    · cases harg

theorem Registry.send {s' : Server} (hs : s.Registry) {str : List UInt8} {ret : Int} (hconn : s.conns c = some conn)
    (hholds : s.Holds c) (hopen : s.OpenWrites (.send c str ret)) (hsend : s.send c conn str ret = some s') :
    s'.Registry := by
  have hown := hs.wiring.own c conn hconn
  obtain ⟨w, hw, rfl⟩ := Option.map_eq_some_iff.mp hsend
  rcases Tcpconn.sendInLoop_cases hw with ⟨hshort, -, -, restStr, hwconn, hwpoll⟩ | ⟨-, -, -, -, rfl⟩ | ⟨-, rfl⟩
  · have hset : (s.setConn c w.conn).Registry := by
      rw [hwconn]
      exact hs.setConn hconn rfl rfl ⟨hown.self, hown.socketFd, hown.index⟩
    have hwrite : w.conn.state = .kConnected ∨ s.pc.closing = some c := by
      rw [hwconn]
      exact hopen conn hconn hshort
    have hregistered := hset.registEvennt (Function.update_self _ _ _) hwrite (hs.not_establishing hholds)
    have hpoll : w.poll = s.poll.registEvennt w.conn.socketChannel := by
      rw [hwpoll, hwconn]
      rfl
    rw [hpoll]
    exact hregistered
  · exact hs.setConn hconn rfl rfl hown
  · exact hs.setConn hconn rfl rfl ⟨hown.self, hown.socketFd, hown.index⟩

/-- The rest of `ConnectEstablished` registers the connection. -/
theorem Registry.established (hs : s.Registry) {p : Place} (hcall : s.Called c (.connectEstablished c) p conn) :
    Registry { s.setConn c (conn.connectEstablished s.poll).1 with
      poll := (conn.connectEstablished s.poll).2, pc := .between p } := by
  have hown := hs.wiring.own c conn hcall.conn
  have hopen : s.stateOf c = some .kConnected := (hs.establishing c (by rw [hcall.pc]; rfl)).1
  rw [stateOf_eq hcall.conn, Option.some.injEq] at hopen
  have hbetween : Registry { s with pc := .between p } := by
    refine hs.goOn ?_ ?_ (Or.inl rfl)
    · rw [hcall.pc]
      exact List.Subset.refl _
    · rw [hcall.pc]
      rfl
  have hset := hbetween.setConn hcall.conn (show (conn.connectEstablished s.poll).1.state = conn.state from rfl) rfl
    (hown.event _)
  exact hset.registEvennt (Function.update_self _ _ _) (Or.inl hopen) (fun h => by cases h)

/-- **A step without a short write on a closed connection keeps the registry.** -/
theorem Registry.step {s' : Server} {e : ServerEv} (hs : s.Registry) (hinv : s.lifecycle.Inv)
    (hopen : s.OpenWrites e) (h : machine.step s e = some s') : s'.Registry := by
  cases step_cases h with
  | poll hpc hrep => exact hs.poll hinv hpc hrep
  | wakeup hpc | timerfd hpc | acceptFailed hpc hio =>
    exact hs.goOn (by rw [hpc]; exact List.subset_cons_self _ _) (by rw [hpc]; rfl) (Or.inl rfl)
  | accept hpc hio haccept => exact hs.accept hinv hpc haccept
  | @handleFault c revent rest io hpc hconn =>
    refine absurd ?_ (hinv.listed_live c (hs.dispatched c revent (by rw [hpc]; exact List.mem_cons_self)))
    exact Option.map_eq_none_iff.mpr hconn
  | @closeEvent c revent rest io conn hh hev =>
    refine hs.handleClose hh.conn (hs.dispatched c revent ?_) ?_ ?_
    · rw [hh.pc]
      exact List.mem_cons_self
    · rw [hh.pc]
      rfl
    · rw [hh.pc]
      exact List.subset_cons_self _ _
  | read hh hev hread => exact hs.handleRead hh hread
  | write hh hev hwrite => exact hs.handleWrite hh hwrite
  | noCallBack hh hev =>
    exact hs.goOn (by rw [hh.pc]; exact List.subset_cons_self _ _) (by rw [hh.pc]; rfl) (Or.inl rfl)
  | doPendingFunc hpc => exact hs.goOn (List.nil_subset _) (by rw [hpc]; rfl) (Or.inl rfl)
  | functorTask hpc => exact hs.goOn (List.nil_subset _) (by rw [hpc]; rfl) (Or.inl rfl)
  | removeTask hpc =>
    have hclosing : s.pc.closing = none := by rw [hpc]; rfl
    exact ⟨hs.wiring, fun c fd hlookup => Or.inl (hs.connected hclosing hlookup),
      fun c revent hmem => (List.not_mem_nil hmem).elim, (fun c hc => by cases hc), (fun c hc => by cases hc),
      hs.held_live⟩
  | @closeTask c rest conn hpc hconn =>
    refine hs.handleClose hconn (hinv.close_listed c ?_) ?_ (List.nil_subset _)
    · simp only [lifecycle, queue_drain hpc]
      exact List.mem_cons_self
    · rw [hpc]
      rfl
  | @closeFault c rest hpc hconn =>
    refine absurd (Option.map_eq_none_iff.mpr hconn) (hinv.listed_live c (hinv.close_listed c ?_))
    simp only [lifecycle, queue_drain hpc]
    exact List.mem_cons_self
  | endPendingFunc hpc =>
    refine Registry.sweep (hs.goOn (List.nil_subset _) ?_ (Or.inl rfl)) hinv.connected_listed
    rw [hpc]
    rfl
  | connectDestroyed hcall => exact hs.connectDestroyed
  | send hcall hholds hsend => exact hs.send hcall.conn hholds hopen hsend
  | shutdown hcall hholds =>
    have hown := hs.wiring.own _ _ hcall.conn
    exact hs.setConn hcall.conn rfl rfl ⟨hown.self, hown.socketFd, hown.index⟩
  | queInLoop hpc => exact hs.goOn (List.Subset.refl _) rfl (Or.inr rfl)
  | drop hpc => exact hs.drop.sweep hinv.connected_listed
  | back hpc =>
    refine Registry.sweep (hs.goOn ?_ ?_ (Or.inl rfl)) hinv.connected_listed
    · rw [hpc]
      exact List.Subset.refl _
    · rw [hpc]
      rfl
  | established hcall => exact hs.established hcall
  | closed hcall => exact hs.closed hcall
  | @retFault c k p hpc hk hconn =>
    have hnone : s.stateOf c = none := Option.map_eq_none_iff.mpr hconn
    rcases hk with rfl | rfl
    · have hlive := (hs.establishing c (by rw [hpc]; rfl)).1
      rw [hnone] at hlive
      cases hlive
    · exact absurd hnone (hinv.listed_live c (hs.closing_listed c (by rw [hpc]; rfl)))

/-! ## Runs -/

theorem fdOf_base_injective (base : BaseFds) (ch ch' : Chan) (fd : Nat) (h : fdOf base (fun _ => none) ch = some fd)
    (h' : fdOf base (fun _ => none) ch' = some fd) : ch = ch' := by
  have hdistinct := base.distinct
  simp only [List.nodup_cons, List.mem_cons, List.not_mem_nil, or_false, not_or] at hdistinct
  cases ch <;> cases ch' <;> simp only [fdOf, Option.map_none, Option.some.injEq, reduceCtorEq] at h h' <;> grind

theorem wiring_startPoll (base : BaseFds) :
    Wiring base (fun _ => none) {base.wakeupFd, base.timerfd, base.acceptFd} (startPoll base) := by
  have hempty : (Poll.empty : Poll Chan).Wired (fdOf base fun _ => none) :=
    ⟨Poll.inStep_empty, (fun _ _ h => by cases h), fdOf_base_injective base⟩
  have hwakeup := hempty.enableReading .wakeup base.wakeupFd 0 rfl
  have htimerfd := hwakeup.enableReading .timerfd base.timerfd 0 rfl
  have hacceptor := htimerfd.enableReading .acceptor base.acceptFd 0 rfl
  refine ⟨hacceptor, (fun c conn hconn => by cases hconn), ?_⟩
  intro ch fd hfd
  cases ch <;> simp only [fdOf, Option.map_none, Option.some.injEq, reduceCtorEq] at hfd <;> simp [hfd]

theorem registry_new (base : BaseFds) (tid : Tid) (cb : CloseCallBack) : (new base tid cb).Registry := by
  have hwiring := wiring_startPoll base
  refine ⟨hwiring, ?_, fun c revent hmem => (List.not_mem_nil hmem).elim,
    (fun c hc => by cases hc), (fun c hc => by cases hc), fun c hc => absurd hc (Finset.notMem_empty _)⟩
  intro c fd hlookup
  have hown := hwiring.wired.owner fd (.conn c) hlookup
  cases hown

theorem registry_run {s s' : Server} {es : List ServerEv} (hinv : s.lifecycle.Inv) (hs : s.Registry)
    (hopen : machine.Meets OpenWrites s es) (h : machine.run s es = some s') : s'.Registry := by
  refine (machine.run_invariant_of_meets (I := fun s => s.lifecycle.Inv ∧ s.Registry) ?_ es s s' ⟨hinv, hs⟩ hopen h).2
  rintro t e t' ⟨hinv, ht⟩ hopen hstep
  exact ⟨step_lifecycle (fun _ _ _ hl hop => hl.step hop) hinv hstep, ht.step hinv hopen hstep⟩

/-- A connection that was made and is not open, whether in memory or not. -/
def Shut (c : ConnId) (l : Lifecycle) : Prop := c < l.next ∧ l.state c ≠ some .kConnected

theorem Shut.step {c : ConnId} {l l' : Lifecycle} {op : LifeOp} (hl : Shut c l)
    (h : Lifecycle.machine.step l op = some l') : Shut c l' := by
  obtain ⟨hlt, hshut⟩ := hl
  have hupdate : ∀ c' st, st ≠ some .kConnected → Function.update l.state c' st c ≠ some .kConnected := by
    intro c' st hst
    by_cases heq : c = c'
    · rwa [heq, Function.update_self]
    · rwa [Function.update_of_ne heq]
  cases Lifecycle.step_cases h with
  | accept =>
    refine ⟨Nat.lt_succ_of_lt hlt, ?_⟩
    rw [show l.accepts.state c = l.state c from Function.update_of_ne (Nat.ne_of_lt hlt) _ _]
    exact hshut
  | close | closeTask => exact ⟨hlt, hupdate _ _ (by decide)⟩
  | destroy hlist => exact ⟨hlt, hupdate _ _ (by decide)⟩
  | finish | defer | functor | functorTask | removeTask | abandon => exact ⟨hlt, hshut⟩

/-- The rest of `ConnectEstablished` finds the descriptor free and takes it. -/
theorem Registry.takes_over (hs : s.Registry) {p : Place} (hcall : s.Called c (.connectEstablished c) p conn) :
    s.poll.channelMap.lookup conn.connectSocket.socketfd = none ∧
      s.poll.epfd.lookup conn.connectSocket.socketfd = none ∧
      ∃ s', machine.step s .ret = some s' ∧
        s'.poll.channelMap.lookup conn.connectSocket.socketfd = some (.conn c) ∧
        s'.poll.epfd.lookup conn.connectSocket.socketfd = some ⟨.conn c, readEvent ||| closeEvent⟩ := by
  have hown := hs.wiring.own c conn hcall.conn
  have hmap : s.poll.channelMap.lookup conn.connectSocket.socketfd = none := by
    by_contra hsome
    obtain ⟨ch, hch⟩ := Option.ne_none_iff_exists'.mp hsome
    rw [hs.wiring.eq_of_lookup hcall.conn hch] at hch
    exact (hs.establishing c (by rw [hcall.pc]; rfl)).2.2 _ hch
  have hepfd : s.poll.epfd.lookup conn.connectSocket.socketfd = none := by
    have hstep := hs.wiring.wired.inStep conn.connectSocket.socketfd
    rw [hmap] at hstep
    exact Option.map_eq_none_iff.mp hstep.symm
  refine ⟨hmap, hepfd, s.ret (.connectEstablished c) p, by simp only [machine, Server.step, hcall.pc], ?_, ?_⟩
  · simp only [ret, hcall.conn, Tcpconn.connectEstablished, Channel.enableReading, Channel.update]
    rw [Poll.channelMap_registEvennt, hmap, if_pos (hown.index.trans hown.socketFd).symm, Option.getD_none, hown.self]
  · simp only [ret, hcall.conn, Tcpconn.connectEstablished, Channel.enableReading, Channel.update]
    rw [Poll.epfd_registEvennt hs.wiring.wired.inStep (hown.event _).index, if_pos hown.socketFd.symm, hown.self]

/-- **Closed is final for the poller** in a run without a short write on a closed connection: a registered connection
is open, a closed one is not registered again, and a new one takes over its descriptor. -/
theorem closed_is_final (base : BaseFds) (tid : Tid) (cb : CloseCallBack) (es : List ServerEv) (s : Server)
    (h : machine.run (new base tid cb) es = some s) (hopen : machine.Meets OpenWrites (new base tid cb) es) :
    (∀ c fd, s.poll.channelMap.lookup fd = some (.conn c) → s.pc.closing ≠ some c →
      s.stateOf c = some .kConnected) ∧
    (∀ c, s.stateOf c = some .kClosed → ∀ fs s', machine.run s fs = some s' → machine.Meets OpenWrites s fs →
      s'.pc.closing ≠ some c → ∀ fd, s'.poll.channelMap.lookup fd ≠ some (.conn c)) ∧
    ∀ c p conn, s.Called c (.connectEstablished c) p conn →
      s.poll.channelMap.lookup conn.connectSocket.socketfd = none ∧
      s.poll.epfd.lookup conn.connectSocket.socketfd = none ∧
      ∃ s', machine.step s .ret = some s' ∧
        s'.poll.channelMap.lookup conn.connectSocket.socketfd = some (.conn c) ∧
        s'.poll.epfd.lookup conn.connectSocket.socketfd = some ⟨.conn c, readEvent ||| closeEvent⟩ := by
  have hinv := inv_run h
  have hs := registry_run (inv_new base tid cb) (registry_new base tid cb) hopen h
  refine ⟨fun c fd hlookup hclosing => (hs.registered c fd hlookup).resolve_right hclosing,
    ?_, ?_⟩
  · intro c hc fs s' hrun hmeets hclosing fd hlookup
    have hs' := registry_run hinv hs hmeets hrun
    have hstart : Shut c s.lifecycle :=
      ⟨hinv.live_lt c (by rw [show s.lifecycle.state c = _ from hc]; exact Option.some_ne_none _),
        by rw [show s.lifecycle.state c = _ from hc]; decide⟩
    have hshut : Shut c s'.lifecycle := run_lifecycle (fun _ _ _ hl hop => hl.step hop) hstart hrun
    exact hshut.2 ((hs'.registered c fd hlookup).resolve_right hclosing)
  · intro c p conn hcall
    exact hs.takes_over hcall

/-- One byte of two is written on the open connection, the peer closes, and descriptor 7 is handed out again. -/
def writeThenAgain : List ServerEv :=
  acceptSeven ++ [.poll [(.conn 0, readEvent)], .handle ⟨none, some [97], 0⟩, .send 0 [97, 98] 1, .drop 0, .ret,
    .doPendingFunc, .endPendingFunc, .poll [(.conn 0, closeEvent)], .handle ⟨none, none, 0⟩, .ret, .doPendingFunc,
    .runTask, .endPendingFunc, .poll [(.acceptor, readEvent)], .handle ⟨some (7, "peer", 0), none, 0⟩]

theorem closed_is_final_writeThenAgain :
    ∃ s, machine.run (new smallBase 1 .removeTcpConnInloop) writeThenAgain = some s ∧
      s.poll.channelMap.lookup 7 = none ∧ ∃ s', machine.step s .ret = some s' ∧
        s'.poll.channelMap.lookup 7 = some (.conn 1) := by
  have hrun : (machine.run (new smallBase 1 .removeTcpConnInloop) writeThenAgain).map
      (fun s => (s.pc, (s.conns 1).map fun conn => conn.connectSocket.socketfd)) =
      some (.user (.connectEstablished 1) (.dispatch []), some 7) := by decide +kernel
  have hopen : machine.Meets OpenWrites (new smallBase 1 .removeTcpConnInloop) writeThenAgain := by decide +kernel
  obtain ⟨s, hs, heq⟩ := Option.map_eq_some_iff.mp hrun
  rw [Prod.mk.injEq] at heq
  obtain ⟨conn, hconn, hfd⟩ := Option.map_eq_some_iff.mp heq.2
  obtain ⟨hmap, -, s', hstep, hmap', -⟩ :=
    (closed_is_final smallBase 1 .removeTcpConnInloop writeThenAgain s hs hopen).2.2 1 (.dispatch []) conn
      ⟨heq.1, hconn⟩
  rw [hfd] at hmap hmap'
  exact ⟨s, hs, hmap, s', hstep, hmap'⟩

/-- The stream of a connection ends, and a timer's function sends on it after the close: one byte of two is taken. -/
def sendAfterClose : List ServerEv :=
  acceptSeven ++ [.poll [(.conn 0, readEvent)], .handle ⟨none, some [], 0⟩, .ret, .doPendingFunc, .runTask, .ret,
    .endPendingFunc, .poll [(.timerfd, readEvent)], .handle ⟨none, none, 0⟩, .send 0 [97, 98] 1, .ret]

/-- The connection is removed and dropped, and descriptor 7 is handed out again. -/
def reuseSeven : List ServerEv :=
  [.doPendingFunc, .runTask, .endPendingFunc, .poll [(.timerfd, readEvent)], .handle ⟨none, none, 0⟩, .drop 0, .ret,
    .doPendingFunc, .endPendingFunc, .poll [(.acceptor, readEvent)], .handle ⟨some (7, "peer", 0), none, 0⟩, .ret]

/-- A short write on a closed connection registers it again, and the next connection on the descriptor is never
registered with the kernel. -/
theorem closed_registered :
    ∃ s, machine.run (new smallBase 1 .removeTcpConnInloop) sendAfterClose = some s ∧
      s.pc = .between (.dispatch []) ∧ s.poll.channelMap.lookup 7 = some (.conn 0) ∧
      s.stateOf 0 = some .kClosed ∧ ∃ s', machine.run s reuseSeven = some s' ∧ s'.stateOf 1 = some .kConnected ∧
        s'.poll.channelMap.lookup 7 = some (.conn 0) ∧ 7 ∉ s'.poll.epfd := by
  have hrun : (machine.run (new smallBase 1 .removeTcpConnInloop) sendAfterClose).map
      (fun s => (s.pc, s.poll.channelMap.lookup 7, s.stateOf 0)) =
      some (.between (.dispatch []), some (.conn 0), some .kClosed) := by decide +kernel
  have hreuse : (machine.run (new smallBase 1 .removeTcpConnInloop) (sendAfterClose ++ reuseSeven)).map
      (fun s => (s.stateOf 1, s.poll.channelMap.lookup 7, decide (7 ∉ s.poll.epfd))) =
      some (some .kConnected, some (.conn 0), true) := by decide +kernel
  obtain ⟨s, hs, heq⟩ := Option.map_eq_some_iff.mp hrun
  obtain ⟨s', hs', heq'⟩ := Option.map_eq_some_iff.mp hreuse
  rw [machine.run_append, hs, Option.bind_some] at hs'
  simp only [Prod.mk.injEq, decide_eq_true_eq] at heq heq'
  exact ⟨s, hs, heq.1, heq.2.1, heq.2.2, s', hs', heq'⟩

end Server

end NetImitate
