import NetImitate.Library.Shared
import NetImitate.Tcpserver.Close

/-!
# What a server keeps in memory

Connections are objects behind `shared_ptr`s, each the owner of its descriptor.

* `Server.shared` : the connections in memory with their descriptors, those referred to, and the open descriptors;
* `Kept` : the batch of `DoPendingFunc` keeps its references to its end, and no longer;
* `shared_step` : every step of a server is a run of `Shared`;
* `memory_exact` : no connection leaks and none is used after it has gone; no descriptor leaks and none is closed twice.
-/

namespace NetImitate

/-- Outside `DoPendingFunc`. -/
def Place.dispatching : Place → Bool
  | .dispatch _ => true
  | .drain _ => false

def ServerPc.dispatching : ServerPc → Bool
  | .wait => true
  | .between p | .user _ p => p.dispatching
  | .fault => false

/-- The descriptors that are no connection's. -/
def BaseFds.fds (base : BaseFds) : Finset Nat := {base.wakeupFd, base.timerfd, base.acceptFd}

namespace Server
variable {s s' t : Server} {c : ConnId}

/-- The descriptor of a connection in memory. -/
def connFd (s : Server) (c : ConnId) : Option Nat := (s.conns c).map fun conn => conn.connectSocket.socketfd

def shared (s : Server) : Shared ConnId Nat := ⟨s.connFd, {c | s.referenced c = true}, s.openFds⟩

theorem referenced_iff (s : Server) (c : ConnId) : s.referenced c = true ↔ c ∈ s.tcpconnList ∨ c ∈ s.held ∨
    .removeTcpConn c ∈ s.loop.pendingList ∨ .removeTcpConn c ∈ s.funcList ∨ s.pc.arg = some c := by
  simp only [referenced, Bool.or_eq_true, decide_eq_true_eq, or_assoc]

/-- What holds a reference in `t` holds it in `s`. -/
theorem referenced_mono (h : t.referenced c = true) (hlist : t.tcpconnList ⊆ s.tcpconnList) (hheld : t.held ⊆ s.held)
    (hpending : t.loop.pendingList ⊆ s.loop.pendingList) (hfunc : t.funcList ⊆ s.funcList)
    (harg : t.pc.arg = none ∨ t.pc.arg = s.pc.arg) : s.referenced c = true := by
  rw [referenced_iff] at h ⊢
  rcases h with h | h | h | h | h
  · exact Or.inl (hlist h)
  · exact Or.inr (Or.inl (hheld h))
  · exact Or.inr (Or.inr (Or.inl (hpending h)))
  · exact Or.inr (Or.inr (Or.inr (Or.inl (hfunc h))))
  · rcases harg with hnone | hsame
    · rw [hnone] at h
      cases h
    · exact Or.inr (Or.inr (Or.inr (Or.inr (hsame ▸ h))))

theorem connFd_ne_none (s : Server) (c : ConnId) : s.connFd c ≠ none ↔ s.conns c ≠ none :=
  not_congr Option.map_eq_none_iff

theorem connFd_eq_some (s : Server) (c : ConnId) (fd : Nat) :
    s.connFd c = some fd ↔ ∃ conn, s.conns c = some conn ∧ conn.connectSocket.socketfd = fd :=
  Option.map_eq_some_iff

/-- A connection is written back with its descriptor. -/
theorem connFd_setConn {conn conn' : Tcpconn Chan} (hconn : s.conns c = some conn)
    (hfd : conn'.connectSocket.socketfd = conn.connectSocket.socketfd) : (s.setConn c conn').connFd = s.connFd := by
  funext c'
  by_cases heq : c' = c
  · subst heq
    simp only [connFd, setConn, Function.update_self, hconn, Option.map_some, hfd]
  · simp only [connFd, setConn, Function.update_of_ne heq]

/-! ## Sweeping -/

theorem conns_destroy (s : Server) (c : ConnId) : (s.destroy c).conns = Function.update s.conns c none := by
  obtain ⟨openFds, epfd, h⟩ := s.destroy_eq c
  rw [h]

theorem conns_foldl_destroy (cs : List ConnId) (s : Server) (c : ConnId) :
    (cs.foldl destroy s).conns c = if c ∈ cs then none else s.conns c := by
  induction cs generalizing s with
  | nil => simp
  | cons c' cs ih =>
    rw [List.foldl_cons, ih, conns_destroy]
    by_cases heq : c = c'
    · simp [heq]
    · simp [heq]

theorem mem_openFds_destroy (s : Server) (c : ConnId) (fd : Nat) :
    fd ∈ (s.destroy c).openFds ↔ fd ∈ s.openFds ∧ s.connFd c ≠ some fd := by
  cases hconn : s.conns c with
  | none => simp [destroy, connFd, hconn]
  | some conn => simp [destroy, connFd, hconn, Finset.mem_erase, and_comm, eq_comm]

theorem mem_openFds_foldl_destroy (cs : List ConnId) (s : Server) (fd : Nat) :
    fd ∈ (cs.foldl destroy s).openFds ↔ fd ∈ s.openFds ∧ ∀ c ∈ cs, s.connFd c ≠ some fd := by
  induction cs generalizing s with
  | nil => simp
  | cons c' cs ih =>
    rw [List.foldl_cons, ih, mem_openFds_destroy, List.forall_mem_cons, and_assoc]
    refine and_congr_right fun _ => and_congr_right fun hfd => forall₂_congr fun c _ => ?_
    rw [connFd, connFd, conns_destroy]
    by_cases heq : c = c'
    · subst heq
      exact iff_of_true (by simp) hfd
    · rw [Function.update_of_ne heq]

theorem sweep_eq (s : Server) : ∃ conns openFds epfd,
    s.sweep = { s with conns := conns, openFds := openFds, poll := { s.poll with epfd := epfd } } := by
  refine sweep_induction (P := fun t => ∃ conns openFds epfd,
    t = { s with conns := conns, openFds := openFds, poll := { s.poll with epfd := epfd } })
    ⟨s.conns, s.openFds, s.poll.epfd, rfl⟩ ?_
  rintro t c ⟨conns, openFds, epfd, rfl⟩ -
  obtain ⟨openFds', epfd', h⟩ := destroy_eq { s with
    conns := conns
    openFds := openFds
    poll := { s.poll with epfd := epfd } } c
  exact ⟨_, openFds', epfd', h⟩

theorem referenced_sweep (s : Server) (c : ConnId) : s.sweep.referenced c = s.referenced c := by
  obtain ⟨conns, openFds, epfd, h⟩ := s.sweep_eq
  rw [h]
  rfl

theorem mem_unreferenced (s : Server) (c : ConnId) :
    c ∈ (List.range s.next).filter (fun c => !s.referenced c) ↔ c < s.next ∧ s.referenced c ≠ true := by
  simp

/-- What is referred to stays, and nothing else. -/
theorem conns_sweep (hlt : ∀ c, s.conns c ≠ none → c < s.next) (c : ConnId) :
    s.sweep.conns c = if s.referenced c = true then s.conns c else none := by
  rw [sweep, conns_foldl_destroy]
  simp only [mem_unreferenced]
  by_cases href : s.referenced c = true
  · simp [href]
  · by_cases hc : c < s.next
    · simp [href, hc]
    · have hnone : s.conns c = none := by
        by_contra hsome
        exact hc (hlt c hsome)
      simp [hnone]

/-- **Sweeping releases what is not referred to.** -/
theorem shared_sweep (hlt : ∀ c, s.conns c ≠ none → c < s.next) :
    s.sweep.shared = s.shared.release {c | s.referenced c = true} := by
  have hobjs : s.sweep.connFd = (s.shared.release {c | s.referenced c = true}).objs := by
    funext c
    simp only [connFd, conns_sweep hlt, Shared.release, shared, Set.mem_ofPred_eq]
    split <;> rfl
  have hrefs : {c | s.sweep.referenced c = true} = {c | s.referenced c = true} := by
    ext c
    rw [Set.mem_ofPred_eq, referenced_sweep, Set.mem_ofPred_eq]
  have hused : (s.sweep.openFds : Set Nat) = (s.shared.release {c | s.referenced c = true}).used := by
    ext fd
    simp only [Finset.mem_coe, sweep, mem_openFds_foldl_destroy, mem_unreferenced, Shared.release, shared,
      Set.mem_ofPred_eq]
    refine and_congr_right fun _ => ⟨fun h c href hfd => h c ⟨?_, href⟩ hfd, fun h c hc => h c hc.2⟩
    exact hlt c ((connFd_ne_none s c).mp (by rw [hfd]; exact Option.some_ne_none fd))
  simp only [shared, hrefs]
  rw [hobjs, hused]
  rfl

/-! ## The batch -/

/-- The tasks of the batch that are left are still in memory, and outside `DoPendingFunc` no batch is. -/
structure Kept (s : Server) : Prop where
  idle : s.pc.dispatching = true → s.funcList = []
  batch : s.pc.batch ⊆ s.funcList

theorem kept_new (base : BaseFds) (tid : Tid) (cb : CloseCallBack) : (new base tid cb).Kept :=
  ⟨fun _ => rfl, List.nil_subset _⟩

/-- The thread goes on in the same phase, its batch no longer. -/
theorem Kept.goOn (hs : s.Kept) (hfunc : t.funcList = s.funcList)
    (hdisp : t.pc.dispatching = true → s.pc.dispatching = true) (hbatch : t.pc.batch ⊆ s.pc.batch) : t.Kept where
  idle := fun h => hfunc.trans (hs.idle (hdisp h))
  batch := fun _ ht => hfunc ▸ hs.batch (hbatch ht)

theorem Kept.sweep (hs : s.Kept) : s.sweep.Kept := by
  obtain ⟨conns, openFds, epfd, h⟩ := s.sweep_eq
  rw [h]
  exact hs.goOn rfl id (List.Subset.refl _)

theorem kept_handleRead {revent : Events} {rest : List (Chan × Events)} {conn : Tcpconn Chan}
    {read : Option (List UInt8)} (hs : s.Kept) (hh : s.Handles c revent rest conn)
    (hread : s.handleRead c conn read (.dispatch rest) = some s') : s'.Kept := by
  have hdisp : s.pc.dispatching = true := by rw [hh.pc]; rfl
  obtain ⟨r, -, rfl⟩ := Option.map_eq_some_iff.mp hread
  by_cases hfail : r.1 = -1
  · simp only [if_pos hfail]
    exact hs.goOn rfl (fun _ => hdisp) (List.nil_subset _)
  · simp only [if_neg hfail]
    by_cases heof : r.1 = 0
    · simp only [if_pos heof]
      obtain ⟨loop, hloop, -⟩ := connectDestroyed_eq (s.setConn c { conn with inBuffer := r.2 }) c
        { conn with inBuffer := r.2 }
      rw [hloop]
      exact hs.goOn rfl (fun _ => hdisp) (List.nil_subset _)
    · simp only [if_neg heof]
      exact hs.goOn rfl (fun _ => hdisp) (List.nil_subset _)

theorem handleCloseRest_place (s : Server) (c : ConnId) (conn : Tcpconn Chan) (p : Place) :
    (s.handleCloseRest c conn p).funcList = s.funcList ∧
      (s.handleCloseRest c conn p).pc.dispatching = p.dispatching ∧
      (s.handleCloseRest c conn p).pc.batch = p.batch := by
  unfold handleCloseRest
  split <;> exact ⟨rfl, rfl, rfl⟩

theorem Kept.step {e : ServerEv} (hs : s.Kept) (h : machine.step s e = some s') : s'.Kept := by
  cases step_cases h with
  | poll hpc hrep | wakeup hpc | timerfd hpc | acceptFailed hpc hio =>
    exact hs.goOn rfl (fun _ => by rw [hpc]; rfl) (List.nil_subset _)
  | accept hpc hio haccept =>
    obtain ⟨-, heq⟩ := Option.ite_none_left_eq_some.mp haccept
    cases heq
    exact hs.goOn rfl (fun _ => by rw [hpc]; rfl) (List.nil_subset _)
  | handleFault | closeFault | retFault => exact hs.goOn rfl (fun h => by cases h) (List.nil_subset _)
  | closeEvent hh hev | noCallBack hh hev => exact hs.goOn rfl (fun _ => by rw [hh.pc]; rfl) (List.nil_subset _)
  | read hh hev hread => exact kept_handleRead hs hh hread
  | write hh hev hwrite =>
    obtain ⟨w, -, rfl⟩ := Option.map_eq_some_iff.mp hwrite
    exact hs.goOn rfl (fun _ => by rw [hh.pc]; rfl) (List.nil_subset _)
  | doPendingFunc hpc => exact ⟨(fun h => by cases h), List.Subset.refl _⟩
  | functorTask hpc | removeTask hpc | closeTask hpc =>
    exact hs.goOn rfl (fun h => by cases h) (by rw [hpc]; exact List.subset_cons_self _ _)
  | endPendingFunc hpc =>
    have hidle : Kept { s with
        loop := { s.loop with callingPendingFunc := false }
        funcList := []
        pc := .wait } := ⟨fun _ => rfl, List.nil_subset _⟩
    exact hidle.sweep
  | @connectDestroyed c k p conn hcall =>
    obtain ⟨loop, hloop, -⟩ := s.connectDestroyed_eq c conn
    rw [hloop]
    exact hs.goOn rfl id (List.Subset.refl _)
  | send hcall hholds hsend =>
    obtain ⟨w, -, rfl⟩ := Option.map_eq_some_iff.mp hsend
    exact hs.goOn rfl id (List.Subset.refl _)
  | shutdown hcall | queInLoop hpc => exact hs.goOn rfl id (List.Subset.refl _)
  | @drop c k p hpc =>
    have hdropped : Kept { s with held := s.held.erase c } := hs.goOn rfl id (List.Subset.refl _)
    exact hdropped.sweep
  | @back arg p hpc =>
    have hbetween : Kept { s with pc := .between p } := by
      refine hs.goOn rfl (fun h => ?_) ?_
      · rw [hpc]
        exact h
      · rw [hpc]
        exact List.Subset.refl _
    exact hbetween.sweep
  | established hcall =>
    refine hs.goOn rfl (fun h => ?_) ?_
    · rw [hcall.pc]
      exact h
    · rw [hcall.pc]
      exact List.Subset.refl _
  | @closed c p conn hcall =>
    obtain ⟨hfunc, hdisp, hbatch⟩ := handleCloseRest_place s c conn p
    refine hs.goOn hfunc (fun h => ?_) ?_
    · rw [hdisp] at h
      rw [hcall.pc]
      exact h
    · rw [hbatch, hcall.pc]
      exact List.Subset.refl _

/-! ## The simulation -/

/-- Objects in memory, references and open descriptors change as `Shared` says. -/
def SharedStep (s s' : Server) : Prop := ∃ ops, Shared.machine.run s.shared ops = some s'.shared

theorem SharedStep.nothing (h : s'.shared = s.shared) : SharedStep s s' := ⟨[], by rw [Machine.run_nil, h]⟩

theorem SharedStep.op (op : Shared.Op ConnId Nat) (h : Shared.machine.step s.shared op = some s'.shared) :
    SharedStep s s' := ⟨[op], by rw [Machine.run_singleton, h]⟩

theorem shared_eq (hfd : s'.connFd = s.connFd) (hopen : s'.openFds = s.openFds)
    (href : ∀ c, s'.referenced c = true ↔ s.referenced c = true) : s'.shared = s.shared := by
  have hrefs : {c | s'.referenced c = true} = {c | s.referenced c = true} := Set.ext href
  simp only [shared, hfd, hopen, hrefs]

/-- A step that neither makes nor drops a reference. -/
theorem SharedStep.quiet (hfd : s'.connFd = s.connFd) (hopen : s'.openFds = s.openFds)
    (hlist : s'.tcpconnList = s.tcpconnList) (hheld : s'.held = s.held)
    (hpending : ∀ c, .removeTcpConn c ∈ s'.loop.pendingList ↔ .removeTcpConn c ∈ s.loop.pendingList)
    (hfunc : s'.funcList = s.funcList) (harg : s'.pc.arg = s.pc.arg) : SharedStep s s' := by
  refine .nothing (shared_eq hfd hopen fun c => ?_)
  rw [referenced_iff, referenced_iff, hlist, hheld, hpending c, hfunc, harg]

/-- A step that makes references to connections in memory. -/
theorem SharedStep.share (hfd : s'.connFd = s.connFd) (hopen : s'.openFds = s.openFds)
    (hkeep : ∀ c, s.referenced c = true → s'.referenced c = true)
    (hlive : ∀ c, s'.referenced c = true → s.conns c ≠ none) : SharedStep s s' := by
  refine .op (.share {c | s'.referenced c = true}) ?_
  have hsub : s.shared.refs ⊆ {c | s'.referenced c = true} := fun c hc => hkeep c hc
  rw [Shared.step_share hsub fun c hc => (connFd_ne_none s c).mpr (hlive c hc)]
  simp only [shared, hfd, hopen]

/-- A step that drops references, and destroys what is left without one. -/
theorem SharedStep.sweep (hfd : t.connFd = s.connFd) (hopen : t.openFds = s.openFds)
    (hdrop : ∀ c, t.referenced c = true → s.referenced c = true) (hlt : ∀ c, t.conns c ≠ none → c < t.next) :
    SharedStep s t.sweep := by
  refine .op (.release {c | t.referenced c = true}) ?_
  have hsub : {c | t.referenced c = true} ⊆ s.shared.refs := fun c hc => hdrop c hc
  have hused : t.shared.used = s.shared.used := by simp only [shared, hopen]
  rw [Shared.step_release hsub, shared_sweep hlt, Shared.release_congr hfd hused]

theorem pending_connectDestroyed (s : Server) (c : ConnId) (conn : Tcpconn Chan) (c' : ConnId) :
    .removeTcpConn c' ∈ (s.connectDestroyed c conn).loop.pendingList ↔ .removeTcpConn c' ∈ s.loop.pendingList := by
  unfold connectDestroyed
  split
  · exact Iff.rfl
  · rw [pendingList_queInLoop, List.mem_append, List.mem_singleton]
    exact or_iff_left fun h => by cases h

/-- `handleClose` makes no reference: its task was bound to a raw pointer, its channel to another. -/
theorem SharedStep.handleClose {conn : Tcpconn Chan} {p : Place} (ht : t.shared = s.shared)
    (hconn : t.conns c = some conn) (harg : t.pc.arg = none) : SharedStep s (t.handleClose c conn p) := by
  have hstep : SharedStep t (t.handleClose c conn p) :=
    .quiet (connFd_setConn hconn rfl) rfl rfl rfl (fun _ => Iff.rfl) rfl harg.symm
  unfold SharedStep at hstep ⊢
  rw [← ht]
  exact hstep

/-- A callback gets a `shared_ptr` to a connection in memory. -/
theorem SharedStep.pass {p : Place} {log : List Callback} (hexact : ∀ c, t.referenced c = true → t.conns c ≠ none)
    (hfd : t.connFd = s.connFd) (hopen : t.openFds = s.openFds)
    (href : ∀ c', s.referenced c' = true → t.referenced c' = true) (hlive : t.conns c ≠ none) (harg : t.pc.arg = none) :
    SharedStep s { t with held := insert c t.held, pc := .user (.back (some c)) p, log := log } := by
  refine .share hfd hopen ?_ ?_
  · intro c' hc'
    exact referenced_mono (href c' hc') (Finset.Subset.refl _) (Finset.subset_insert c _) (List.Subset.refl _)
      (List.Subset.refl _) (Or.inl harg)
  · intro c' hc'
    have hsame : s.conns c' ≠ none ↔ t.conns c' ≠ none := by
      rw [← connFd_ne_none, ← connFd_ne_none, hfd]
    rw [hsame]
    rcases (referenced_iff _ c').mp hc' with hlist | hheld | hpending | hfunc | h
    · exact hexact c' ((referenced_iff t c').mpr (Or.inl hlist))
    · rcases Finset.mem_insert.mp hheld with rfl | hheld
      · exact hlive
      · exact hexact c' ((referenced_iff t c').mpr (Or.inr (Or.inl hheld)))
    · exact hexact c' ((referenced_iff t c').mpr (Or.inr (Or.inr (Or.inl hpending))))
    · exact hexact c' ((referenced_iff t c').mpr (Or.inr (Or.inr (Or.inr (Or.inl hfunc)))))
    · obtain rfl : c = c' := Option.some.inj h
      exact hlive

theorem shared_handleRead {revent : Events} {rest : List (Chan × Events)} {conn : Tcpconn Chan}
    {read : Option (List UInt8)} (hexact : ∀ c, s.referenced c = true → s.conns c ≠ none)
    (hh : s.Handles c revent rest conn) (hread : s.handleRead c conn read (.dispatch rest) = some s') :
    SharedStep s s' := by
  obtain ⟨r, -, rfl⟩ := Option.map_eq_some_iff.mp hread
  set conn' : Tcpconn Chan := { conn with inBuffer := r.2 }
  have harg : s.pc.arg = none := by rw [hh.pc]; rfl
  have hfd : (s.setConn c conn').connFd = s.connFd := connFd_setConn hh.conn rfl
  have hconn : (s.setConn c conn').conns c = some conn' := Function.update_self _ _ _
  have hlive : ∀ c', s.conns c' ≠ none → (s.setConn c conn').conns c' ≠ none := by
    intro c' hc'
    rw [← connFd_ne_none, hfd, connFd_ne_none]
    exact hc'
  by_cases hfail : r.1 = -1
  · simp only [if_pos hfail]
    exact .handleClose (shared_eq hfd rfl fun _ => Iff.rfl) hconn harg
  · simp only [if_neg hfail]
    have hpass : ∀ u : Server, u.conns = (s.setConn c conn').conns → u.openFds = s.openFds →
        (∀ c', u.referenced c' = true ↔ s.referenced c' = true) → u.pc.arg = none →
        SharedStep s (u.msgCallBack c (.dispatch rest)) := by
      intro u hconns hopen href huarg
      have hufd : u.connFd = s.connFd := by
        rw [← hfd]
        funext c'
        simp only [connFd, hconns]
      refine .pass ?_ hufd hopen (fun c' hc' => (href c').mpr hc') ?_ huarg
      · intro c' hc'
        rw [hconns]
        exact hlive c' (hexact c' ((href c').mp hc'))
      · rw [hconns, hconn]
        exact Option.some_ne_none _
    by_cases heof : r.1 = 0
    · simp only [if_pos heof]
      obtain ⟨loop, hloop, -⟩ := connectDestroyed_eq (s.setConn c conn') c conn'
      refine hpass _ ?_ ?_ ?_ ?_
      · rw [hloop]
      · rw [hloop]
        rfl
      · intro c'
        rw [referenced_iff, referenced_iff, pending_connectDestroyed, hloop]
        exact Iff.rfl
      · rw [hloop]
        exact harg
    · simp only [if_neg heof]
      exact hpass _ rfl rfl (fun _ => Iff.rfl) harg

/-- The rest of `handleClose` hands on a `shared_ptr` to its connection. -/
theorem shared_handleCloseRest {conn : Tcpconn Chan} {p : Place}
    (hexact : ∀ c, s.referenced c = true → s.conns c ≠ none) (hcall : s.Called c (.handleClose c) p conn) :
    SharedStep s (s.handleCloseRest c conn p) := by
  have hfd : (s.unregister c conn).connFd = s.connFd := by
    exact connFd_setConn hcall.conn rfl
  have hlive : ∀ c', (s.unregister c conn).conns c' ≠ none ↔ s.conns c' ≠ none := by
    intro c'
    rw [← connFd_ne_none, ← connFd_ne_none, hfd]
  have harg : s.pc.arg = none := by rw [hcall.pc]; rfl
  have hconn : s.conns c ≠ none := by rw [hcall.conn]; exact Option.some_ne_none _
  have hexact' : ∀ c', (s.unregister c conn).referenced c' = true → (s.unregister c conn).conns c' ≠ none :=
    fun c' hc' => (hlive c').mpr (hexact c' hc')
  unfold handleCloseRest
  split
  · have hpending := pendingList_queInLoop (s.unregister c conn) (.removeTcpConn c)
    refine .share hfd rfl ?_ ?_
    · intro c' hc'
      refine referenced_mono hc' (Finset.Subset.refl _) (Finset.Subset.refl _) ?_ (List.Subset.refl _) (Or.inl harg)
      rw [hpending]
      exact List.subset_append_left _ _
    · intro c' hc'
      rw [referenced_iff, hpending] at hc'
      rcases hc' with hlist | hheld | hwait | hfunc | h
      · exact hexact c' ((referenced_iff s c').mpr (Or.inl hlist))
      · exact hexact c' ((referenced_iff s c').mpr (Or.inr (Or.inl hheld)))
      · rcases List.mem_append.mp hwait with hwait | hwait
        · exact hexact c' ((referenced_iff s c').mpr (Or.inr (Or.inr (Or.inl hwait))))
        · cases List.mem_singleton.mp hwait
          exact hconn
      · exact hexact c' ((referenced_iff s c').mpr (Or.inr (Or.inr (Or.inr (Or.inl hfunc)))))
      · cases h
  · exact .pass hexact' hfd rfl (fun _ h => h) ((hlive c).mpr hconn) harg

/-- A connection is made, and `tcpconnList` refers to it. -/
theorem shared_accepted {ch : Chan × Events} {rest : List (Chan × Events)} {fd : Nat} {address : String}
    {event : Events} (hpc : s.pc = .between (.dispatch (ch :: rest)))
    (haccept : s.tcpserverConnection fd address event (.dispatch rest) = some s') :
    fd ∉ s.openFds ∧ s'.shared = s.shared.alloc s.next fd := by
  obtain ⟨hfd, heq⟩ := Option.ite_none_left_eq_some.mp haccept
  cases heq
  refine ⟨hfd, ?_⟩
  set conn := Tcpconn.new (Chan.conn s.next) fd address event
  have hconnFd : (s.setConn s.next conn).connFd = Function.update s.connFd s.next (some fd) := by
    funext c
    by_cases heq : c = s.next
    · subst heq
      simp only [connFd, setConn, Function.update_self, Option.map_some]
      rfl
    · simp only [connFd, setConn, Function.update_of_ne heq]
  refine congr (congr (congrArg Shared.mk hconnFd) ?_) (Finset.coe_insert fd s.openFds)
  ext c
  simp only [referenced_iff, Set.mem_ofPred_eq, setConn, Finset.mem_insert, hpc, ServerPc.arg, reduceCtorEq, or_false,
    or_assoc, shared, Set.mem_insert_iff]

/-- **Every step of a server is a run of `Shared`.** -/
theorem shared_step {e : ServerEv} (hinv : s.lifecycle.Inv) (hkept : s.Kept)
    (hexact : ∀ c, s.referenced c = true → s.conns c ≠ none) (h : machine.step s e = some s') : SharedStep s s' := by
  have hlt : ∀ c, s.conns c ≠ none → c < s.next :=
    fun c hc => hinv.live_lt c fun hnone => hc (Option.map_eq_none_iff.mp hnone)
  cases step_cases h with
  | poll hpc hrep | wakeup hpc | timerfd hpc | acceptFailed hpc hio | handleFault hpc hconn | closeFault hpc hconn
  | functorTask hpc => exact .quiet rfl rfl rfl rfl (fun _ => Iff.rfl) rfl (by rw [hpc]; rfl)
  | @accept revent rest io fd address event s' hpc hio haccept =>
    have hnone : s.conns s.next = none := by
      by_contra hsome
      exact Nat.lt_irrefl _ (hlt s.next hsome)
    obtain ⟨hfd, hshared⟩ := shared_accepted hpc haccept
    refine .op (.alloc s.next fd) ?_
    rw [Shared.step_alloc (Option.map_eq_none_iff.mpr hnone) hfd, hshared]
  | @closeEvent c revent rest io conn hh hev => exact .handleClose rfl hh.conn (by rw [hh.pc]; rfl)
  | read hh hev hread => exact shared_handleRead hexact hh hread
  | write hh hev hwrite =>
    obtain ⟨w, hw, rfl⟩ := Option.map_eq_some_iff.mp hwrite
    obtain ⟨-, -, hsocket, -⟩ := Tcpconn.handleWrite_frame hw
    exact .quiet (connFd_setConn hh.conn (by rw [hsocket])) rfl rfl rfl (fun _ => Iff.rfl) rfl (by rw [hh.pc]; rfl)
  | noCallBack hh hev => exact .quiet rfl rfl rfl rfl (fun _ => Iff.rfl) rfl (by rw [hh.pc]; rfl)
  | doPendingFunc hpc =>
    have hidle : s.funcList = [] := hkept.idle (by rw [hpc]; rfl)
    refine .nothing (shared_eq rfl rfl fun c => ?_)
    rw [referenced_iff, referenced_iff, hidle, hpc]
    simp only [doPendingFunc, Eventloop.swapPending, List.not_mem_nil, false_or, ServerPc.arg, reduceCtorEq, or_false]
  | @removeTask c rest hpc =>
    have hmem : .removeTcpConn c ∈ s.funcList := hkept.batch (by rw [hpc]; exact List.mem_cons_self)
    refine .nothing (shared_eq rfl rfl fun c' => ?_)
    rw [referenced_iff, referenced_iff]
    by_cases heq : c' = c
    · subst heq
      exact iff_of_true (Or.inr (Or.inr (Or.inr (Or.inl hmem)))) (Or.inr (Or.inr (Or.inr (Or.inl hmem))))
    · simp only [removeTcpConn, Finset.mem_erase, heq, hpc, ServerPc.arg, ne_eq, not_false_iff, true_and]
  | @closeTask c rest conn hpc hconn => exact .handleClose rfl hconn (by rw [hpc]; rfl)
  | endPendingFunc hpc =>
    refine .sweep rfl rfl ?_ hlt
    exact fun c hc => referenced_mono hc (Finset.Subset.refl _) (Finset.Subset.refl _) (List.Subset.refl _)
      (List.nil_subset _) (Or.inl rfl)
  | @connectDestroyed c k p conn hcall =>
    obtain ⟨loop, hloop, -⟩ := s.connectDestroyed_eq c conn
    refine .quiet ?_ ?_ ?_ ?_ (pending_connectDestroyed s c conn) ?_ (by rw [pc_connectDestroyed])
    all_goals rw [hloop]
    rfl
  | send hcall hholds hsend =>
    obtain ⟨w, hw, rfl⟩ := Option.map_eq_some_iff.mp hsend
    have hsocket := Tcpconn.connectSocket_sendInLoop hw
    exact .quiet (connFd_setConn hcall.conn (by rw [hsocket])) rfl rfl rfl (fun _ => Iff.rfl) rfl rfl
  | shutdown hcall hholds => exact .quiet (connFd_setConn hcall.conn rfl) rfl rfl rfl (fun _ => Iff.rfl) rfl rfl
  | queInLoop hpc =>
    refine .quiet rfl rfl rfl rfl (fun c => ?_) rfl rfl
    rw [pendingList_queInLoop, List.mem_append, List.mem_singleton]
    exact or_iff_left fun h => by cases h
  | drop hpc =>
    refine .sweep rfl rfl ?_ hlt
    exact fun c hc => referenced_mono hc (Finset.Subset.refl _) (Finset.erase_subset _ _) (List.Subset.refl _)
      (List.Subset.refl _) (Or.inr rfl)
  | back hpc =>
    refine .sweep rfl rfl ?_ hlt
    exact fun c hc => referenced_mono hc (Finset.Subset.refl _) (Finset.Subset.refl _) (List.Subset.refl _)
      (List.Subset.refl _) (Or.inl rfl)
  | established hcall =>
    exact .quiet (connFd_setConn hcall.conn rfl) rfl rfl rfl (fun _ => Iff.rfl) rfl (by rw [hcall.pc]; rfl)
  | closed hcall => exact shared_handleCloseRest hexact hcall
  | retFault hpc hk hconn =>
    refine .quiet rfl rfl rfl rfl (fun _ => Iff.rfl) rfl ?_
    rw [hpc]
    rcases hk with rfl | rfl <;> rfl

/-! ## Runs -/

theorem exact_new (base : BaseFds) (tid : Tid) (cb : CloseCallBack) :
    (new base tid cb).shared.Exact (base.fds : Set Nat) := by
  have hrefs : {c | (new base tid cb).referenced c = true} = ∅ := by
    ext c
    simp [referenced_iff, new, Eventloop.new, ServerPc.arg]
  have hshared : (new base tid cb).shared = ⟨fun _ => none, ∅, base.fds⟩ := by
    rw [shared, hrefs]
    rfl
  rw [hshared]
  exact Shared.exact_empty _

theorem exact_run {base : BaseFds} {tid : Tid} {cb : CloseCallBack} {es : List ServerEv}
    (h : machine.run (new base tid cb) es = some s) : s.Kept ∧ s.shared.Exact (base.fds : Set Nat) := by
  refine (machine.run_invariant (I := fun s => s.lifecycle.Inv ∧ s.Kept ∧ s.shared.Exact (base.fds : Set Nat)) ?_ es
    (new base tid cb) s ⟨inv_new base tid cb, kept_new base tid cb, exact_new base tid cb⟩ h).2
  rintro t e t' ⟨hinv, hkept, hexact⟩ hstep
  have hlive : ∀ c, t.referenced c = true → t.conns c ≠ none :=
    fun c hc => (connFd_ne_none t c).mp ((hexact.live_iff c).mpr hc)
  obtain ⟨ops, hops⟩ := shared_step hinv hkept hlive hstep
  exact ⟨step_lifecycle (fun _ _ _ hl hop => hl.step hop) hinv hstep, hkept.step hstep, Shared.run_exact hexact hops⟩

/-- **Nothing leaks and nothing dangles.** At every point of every run the connections in memory are those something
refers to, and the open descriptors are those of the loop and the acceptor and one for each connection in memory. -/
theorem memory_exact (base : BaseFds) (tid : Tid) (cb : CloseCallBack) (es : List ServerEv) (s : Server)
    (h : machine.run (new base tid cb) es = some s) :
    (∀ c, s.conns c ≠ none ↔ s.referenced c = true) ∧
    (∀ fd, fd ∈ s.openFds ↔ fd ∈ base.fds ∨ ∃ c conn, s.conns c = some conn ∧ conn.connectSocket.socketfd = fd) ∧
    (∀ c c' conn conn', s.conns c = some conn → s.conns c' = some conn' →
      conn.connectSocket.socketfd = conn'.connectSocket.socketfd → c = c') ∧
    ∀ c conn, s.conns c = some conn → conn.connectSocket.socketfd ∉ base.fds := by
  obtain ⟨-, hexact⟩ := exact_run h
  refine ⟨?_, ?_, ?_, ?_⟩
  · intro c
    rw [← connFd_ne_none]
    exact hexact.live_iff c
  · intro fd
    simp only [← connFd_eq_some]
    exact hexact.used_iff fd
  · intro c c' conn conn' hconn hconn' hfd
    exact hexact.owner c c' _ ((connFd_eq_some s c _).mpr ⟨conn, hconn, hfd⟩)
      ((connFd_eq_some s c' _).mpr ⟨conn', hconn', rfl⟩)
  · intro c conn hconn hfd
    exact hexact.base_free c _ hfd ((connFd_eq_some s c _).mpr ⟨conn, hconn, rfl⟩)

theorem memory_exact_closeByPeer :
    ∃ s, machine.run (new smallBase 1 .removeTcpConnInloop) closeByPeer = some s ∧ s.next = 1 ∧ s.conns 0 = none := by
  have hrun : (machine.run (new smallBase 1 .removeTcpConnInloop) closeByPeer).map
      (fun s => (s.next, s.referenced 0)) = some (1, false) := by decide +kernel
  obtain ⟨s, hs, heq⟩ := Option.map_eq_some_iff.mp hrun
  rw [Prod.mk.injEq] at heq
  refine ⟨s, hs, heq.1, ?_⟩
  by_contra hlive
  have href := ((memory_exact smallBase 1 .removeTcpConnInloop closeByPeer s hs).1 0).mp hlive
  rw [heq.2] at href
  cases href

end Server

end NetImitate
