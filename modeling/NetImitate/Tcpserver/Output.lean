import NetImitate.Tcpserver.Accounting
import NetImitate.Tcpserver.Registry

/-!
# What the kernel is given of a connection

The output of every connection of a server, over whole runs.

* `ServerEv.sends`, `accepts` : the sends on a connection, and the bytes the kernel accepts of it in a step;
* `ShortRet`, `upToShort` : a short write, and what is accepted up to the first one;
* `Line` : what a connection that is open has accepted, and whether it still sends; `Line.step`;
* `output_up_to_short` : a short write is the last that is ever sent on a connection while it is open.
-/

namespace NetImitate

/-- The string passed to `Send` on `c`, with what its `::write` returns where it gets to one. -/
def ServerEv.sends (c : ConnId) : ServerEv → Option (List UInt8 × Int)
  | .send c' str nwrite => if c' = c then some (str, nwrite) else none
  | _ => none

/-- The write took some of the string and not all of it. -/
def ShortRet (w : List UInt8 × Int) : Prop := 0 < int32 w.2 ∧ int32 w.2 < int32 w.1.length

instance : DecidablePred ShortRet := fun w => by
  unfold ShortRet
  infer_instance

/-- What the writes take up to the first short one, and of that. -/
def upToShort : List (List UInt8 × Int) → List UInt8
  | [] => []
  | w :: ws => w.1.take w.2.toNat ++ if ShortRet w then [] else upToShort ws

theorem upToShort_snoc (ws : List (List UInt8 × Int)) (w : List UInt8 × Int) :
    upToShort (ws ++ [w]) = upToShort ws ++ if ∃ v ∈ ws, ShortRet v then [] else w.1.take w.2.toNat := by
  induction ws with
  | nil => simp [upToShort]
  | cons v ws ih =>
    simp only [List.cons_append, upToShort, ih, List.append_assoc]
    by_cases hv : ShortRet v
    · simp [hv]
    · have hex : (∃ u ∈ v :: ws, ShortRet u) ↔ ∃ u ∈ ws, ShortRet u := by simp [hv]
      simp only [if_neg hv, hex]

namespace Server
variable {s s' t : Server} {e : ServerEv} {c : ConnId} {sent : List (List UInt8 × Int)} {accepted : List UInt8}

/-- The bytes the kernel accepts of the connection in a step. -/
def accepts (c : ConnId) (s : Server) : ServerEv → List UInt8
  | .send c' str ret =>
    if c' = c then ((s.conns c).bind fun conn => conn.sendInLoop s.poll str ret).elim [] Wrote.accepted else []
  | .handle io => match s.pc with
    | .between (.dispatch ((.conn c', revent) :: _)) =>
      if c' = c ∧ Channel.handleEvent revent = some .cbWrite then
        ((s.conns c).bind fun conn => conn.handleWrite s.poll io.write).elim [] Wrote.accepted
      else []
    | _ => []
  | _ => []

/-- A connection after the sends `sent`, of which the kernel has accepted the bytes `accepted`. -/
structure Line (s : Server) (c : ConnId) (sent : List (List UInt8 × Int)) (accepted : List UInt8) : Prop where
  unborn : s.next ≤ c → s.conns c = none ∧ c ∉ s.held ∧ sent = [] ∧ accepted = []
  establishing : s.pc.establishing = some c → c ∉ s.held ∧ sent = [] ∧ accepted = []
  open_ : ∀ conn, s.conns c = some conn → conn.state = .kConnected →
    (conn.outBuffer.Wf ∧ conn.outBuffer.content = []) ∧ accepted = upToShort sent ∧
      (s.pc.establishing ≠ some c → (conn.socketChannel.isWriting = true ↔ ∃ w ∈ sent, ShortRet w))

theorem line_new (base : BaseFds) (tid : Tid) (cb : CloseCallBack) (c : ConnId) : (new base tid cb).Line c [] [] :=
  ⟨fun _ => ⟨rfl, Finset.notMem_empty c, rfl, rfl⟩, (fun h => by cases h), (fun _ h => by cases h)⟩

/-- A step in which the connection sends nothing, and does not become open. -/
theorem Line.goOn (hs : s.Line c sent accepted)
    (hconn : ∀ conn', s'.conns c = some conn' → conn'.state = .kConnected → ∃ conn, s.conns c = some conn ∧
      conn.state = .kConnected ∧ conn'.outBuffer = conn.outBuffer ∧ conn'.socketChannel = conn.socketChannel)
    (hnone : s.conns c = none → s'.conns c = none) (hnext : s'.next = s.next)
    (hheld : c ∈ s'.held → c ∈ s.held ∨ s.conns c ≠ none ∧ s'.pc.establishing = none)
    (hpc : s'.pc.establishing = none ∨ s'.pc.establishing = s.pc.establishing)
    (hwas : s.pc.establishing = some c → s'.pc.establishing = some c ∨ s'.conns c = none) :
    s'.Line c sent accepted where
  unborn := fun hle => by
    obtain ⟨hc, hnot, hsent, hacc⟩ := hs.unborn (hnext ▸ hle)
    refine ⟨hnone hc, fun hmem => ?_, hsent, hacc⟩
    rcases hheld hmem with h | ⟨h, -⟩
    · exact hnot h
    · exact h hc
  establishing := fun hest => by
    have hest' : s.pc.establishing = some c := by
      rcases hpc with h | h
      · rw [h] at hest
        cases hest
      · exact h ▸ hest
    obtain ⟨hnot, hsent, hacc⟩ := hs.establishing hest'
    refine ⟨fun hmem => ?_, hsent, hacc⟩
    rcases hheld hmem with h | ⟨-, h⟩
    · exact hnot h
    · rw [h] at hest
      cases hest
  open_ := fun conn' hconn' hopen' => by
    obtain ⟨conn, hc, hopen, hout, hch⟩ := hconn conn' hconn' hopen'
    obtain ⟨hbuf, hacc, hwriting⟩ := hs.open_ conn hc hopen
    rw [hout, hch]
    refine ⟨hbuf, hacc, fun hest => hwriting fun hwas' => ?_⟩
    rcases hwas hwas' with h | h
    · exact hest h
    · rw [h] at hconn'
      cases hconn'

/-- What is not open says nothing of its output. -/
theorem Line.dead (hlt : c < s.next) (hest : s.pc.establishing ≠ some c)
    (hclosed : ∀ conn, s.conns c = some conn → conn.state ≠ .kConnected) : s.Line c sent accepted :=
  ⟨fun hle => absurd hlt (not_lt.mpr hle), fun h => absurd h hest, fun conn hconn h => absurd h (hclosed conn hconn)⟩

/-- A connection in memory has been accepted. -/
theorem Line.lt_next (hs : s.Line c sent accepted) (hconn : s.conns c ≠ none) : c < s.next :=
  not_le.mp fun hle => hconn (hs.unborn hle).1

/-- A step that leaves every connection as it is. -/
theorem Line.pass (hs : s.Line c sent accepted) (hconns : s'.conns = s.conns) (hnext : s'.next = s.next)
    (hheld : s'.held = s.held) (hpc : s'.pc.establishing = s.pc.establishing) : s'.Line c sent accepted :=
  hs.goOn (fun conn' h ho => ⟨conn', hconns ▸ h, ho, rfl, rfl⟩) (fun h => hconns ▸ h) hnext
    (fun h => Or.inl (hheld ▸ h)) (Or.inr hpc) fun h => Or.inl (hpc.trans h)

/-- A step that writes one connection, which sends nothing and does not become open. -/
theorem Line.write {c' : ConnId} {conn : Tcpconn Chan} (conn' : Tcpconn Chan) (hs : s.Line c sent accepted)
    (hconn : s.conns c' = some conn) (hset : s'.conns = Function.update s.conns c' (some conn'))
    (hsame : c = c' → conn'.state = .kConnected → conn.state = .kConnected ∧ conn'.outBuffer = conn.outBuffer ∧
      conn'.socketChannel = conn.socketChannel) (hnext : s'.next = s.next)
    (hheld : c ∈ s'.held → c ∈ s.held ∨ s.conns c ≠ none ∧ s'.pc.establishing = none)
    (hpc : s'.pc.establishing = s.pc.establishing) : s'.Line c sent accepted := by
  refine hs.goOn ?_ ?_ hnext hheld (Or.inr hpc) fun h => Or.inl (hpc.trans h)
  · intro conn1 hconn1 hopen1
    by_cases heq : c = c'
    · subst heq
      rw [hset, Function.update_self, Option.some.injEq] at hconn1
      subst hconn1
      exact ⟨conn, hconn, hsame rfl hopen1⟩
    · rw [hset, Function.update_of_ne heq] at hconn1
      exact ⟨conn1, hconn1, hopen1, rfl, rfl⟩
  · intro hnone
    have hne : c ≠ c' := fun heq => by
      rw [heq, hconn] at hnone
      cases hnone
    rw [hset, Function.update_of_ne hne, hnone]

theorem Line.sweep (hs : s.Line c sent accepted) : s.sweep.Line c sent accepted := by
  refine sweep_induction (P := fun t => t.Line c sent accepted) hs fun t c' ht _ => ?_
  obtain ⟨openFds, epfd, hdestroy⟩ := t.destroy_eq c'
  have hconns : (t.destroy c').conns = Function.update t.conns c' none := by rw [hdestroy]
  have hpc : (t.destroy c').pc = t.pc := by rw [hdestroy]
  refine ht.goOn (fun conn hconn hopen => ?_) (fun hnone => ?_) (by rw [hdestroy]) (fun h => Or.inl ?_)
    (Or.inr (by rw [hpc])) fun h => Or.inl (by rw [hpc]; exact h)
  · rw [hconns] at hconn
    by_cases heq : c = c'
    · rw [heq, Function.update_self] at hconn
      cases hconn
    · rw [Function.update_of_ne heq] at hconn
      exact ⟨conn, hconn, hopen, rfl, rfl⟩
  · rw [hconns]
    by_cases heq : c = c'
    · rw [heq, Function.update_self]
    · rw [Function.update_of_ne heq, hnone]
  · rw [hdestroy] at h
    exact h

/-! ## Steps -/

theorem Line.accept {ch : Chan × Events} {rest : List (Chan × Events)} {fd : Nat} {address : String} {event : Events}
    (hs : s.Line c sent accepted) (hpc : s.pc = .between (.dispatch (ch :: rest)))
    (haccept : s.tcpserverConnection fd address event (.dispatch rest) = some s') : s'.Line c sent accepted := by
  obtain ⟨-, heq⟩ := Option.ite_none_left_eq_some.mp haccept
  cases heq
  by_cases hc : c = s.next
  · obtain ⟨hnone, hheld, rfl, rfl⟩ := hs.unborn hc.ge
    refine ⟨fun hle => absurd hle (by rw [hc]; exact Nat.not_succ_le_self _), fun _ => ⟨hheld, rfl, rfl⟩, ?_⟩
    intro conn hconn _
    refine ⟨?_, rfl, fun hest => absurd (by rw [hc]; rfl) hest⟩
    have hnew : conn = Tcpconn.new (.conn s.next) fd address event := by
      have hself : Function.update s.conns s.next (some (Tcpconn.new (.conn s.next) fd address event)) c = some conn :=
        hconn
      rw [hc, Function.update_self, Option.some.injEq] at hself
      exact hself.symm
    rw [hnew]
    exact ⟨Buffer.wf_new, Buffer.content_new⟩
  · have hne : s.pc.establishing ≠ some c := by
      rw [hpc]
      exact fun h => by cases h
    refine ⟨fun hle => ?_, fun h => absurd (Option.some.inj h).symm hc, fun conn hconn hopen => ?_⟩
    · obtain ⟨hnone, hheld, hsent, hacc⟩ := hs.unborn (Nat.le_of_succ_le hle)
      exact ⟨(Function.update_of_ne hc _ _).trans hnone, hheld, hsent, hacc⟩
    · obtain ⟨hbuf, hacc, hwriting⟩ := hs.open_ conn ((Function.update_of_ne hc _ _).symm.trans hconn) hopen
      exact ⟨hbuf, hacc, fun _ => hwriting hne⟩

/-- The first part of `handleClose`, of a connection that has just been written. -/
theorem Line.handleClose {c' : ConnId} {conn conn' : Tcpconn Chan} {p : Place} (hs : s.Line c sent accepted)
    (hconn : s.conns c' = some conn) (hest : s.pc.establishing = none)
    (ht : t.conns = s.conns ∨ t.conns = Function.update s.conns c' (some conn')) (hnext : t.next = s.next)
    (hheld : t.held = s.held) : (t.handleClose c' conn' p).Line c sent accepted := by
  refine hs.write { conn' with state := .kClosed } hconn ?_ (fun _ h => by cases h) hnext
    (fun h => Or.inl (hheld ▸ h)) hest.symm
  show Function.update t.conns c' _ = _
  rcases ht with h | h
  · rw [h]
  · rw [h, Function.update_idem]

theorem Line.handleRead {c' : ConnId} {revent : Events} {rest : List (Chan × Events)} {conn : Tcpconn Chan}
    {read : Option (List UInt8)} (hs : s.Line c sent accepted) (hh : s.Handles c' revent rest conn)
    (hread : s.handleRead c' conn read (.dispatch rest) = some s') : s'.Line c sent accepted := by
  have hest : s.pc.establishing = none := by rw [hh.pc]; rfl
  have hlive : c = c' → s.conns c ≠ none := fun heq => by rw [heq, hh.conn]; exact Option.some_ne_none _
  obtain ⟨r, -, rfl⟩ := Option.map_eq_some_iff.mp hread
  -- the callback may keep the connection, which is in memory
  have hmsg : ∀ loop : Eventloop ServerTask, (msgCallBack { s.setConn c' { conn with inBuffer := r.2 } with
      loop := loop } c' (.dispatch rest)).Line c sent accepted := by
    intro loop
    refine hs.write { conn with inBuffer := r.2 } hh.conn rfl (fun _ h => ⟨h, rfl, rfl⟩) rfl (fun hmem => ?_)
      hest.symm
    rcases Finset.mem_insert.mp hmem with heq | hmem
    · exact Or.inr ⟨hlive heq, rfl⟩
    · exact Or.inl hmem
  by_cases hfail : r.1 = -1
  · simp only [if_pos hfail]
    exact hs.handleClose hh.conn hest (Or.inr rfl) rfl rfl
  · simp only [if_neg hfail]
    by_cases heof : r.1 = 0
    · simp only [if_pos heof]
      obtain ⟨loop, hloop, -⟩ := connectDestroyed_eq (s.setConn c' { conn with inBuffer := r.2 }) c'
        { conn with inBuffer := r.2 }
      rw [hloop]
      exact hmsg loop
    · simp only [if_neg heof]
      exact hmsg s.loop

/-- The rest of `handleClose`, of a connection that is closed. -/
theorem Line.closed {c' : ConnId} {p : Place} {conn : Tcpconn Chan} (hs : s.Line c sent accepted)
    (hcall : s.Called c' (.handleClose c') p conn) (hclosed : conn.state ≠ .kConnected) :
    (s.handleCloseRest c' conn p).Line c sent accepted := by
  have hest : s.pc.establishing = none := by rw [hcall.pc]; rfl
  have hlive : c = c' → s.conns c ≠ none := fun heq => by rw [heq, hcall.conn]; exact Option.some_ne_none _
  unfold handleCloseRest
  cases s.tcpCloseCallBack with
  | removeTcpConnInloop =>
    exact hs.write _ hcall.conn rfl (fun _ h => absurd h hclosed) rfl (fun h => Or.inl h) hest.symm
  | user =>
    refine hs.write _ hcall.conn rfl (fun _ h => absurd h hclosed) rfl (fun hmem => ?_) hest.symm
    rcases Finset.mem_insert.mp hmem with heq | hmem
    · exact Or.inr ⟨hlive heq, rfl⟩
    · exact Or.inl hmem

/-- The rest of `ConnectEstablished`: the channel of a connection that has not sent anything starts reading. -/
theorem Line.established {c' : ConnId} {p : Place} {conn : Tcpconn Chan} (hs : s.Line c sent accepted)
    (hcall : s.Called c' (.connectEstablished c') p conn) :
    Line { s.setConn c' (conn.connectEstablished s.poll).1 with
      poll := (conn.connectEstablished s.poll).2, pc := .between p } c sent accepted := by
  have hest : s.pc.establishing = some c' := by rw [hcall.pc]; rfl
  refine ⟨fun hle => ?_, (fun h => by cases h), fun conn' hconn' hopen => ?_⟩
  · obtain ⟨hnone, hrest⟩ := hs.unborn hle
    have hne : c ≠ c' := fun heq => by
      rw [heq, hcall.conn] at hnone
      cases hnone
    exact ⟨(Function.update_of_ne hne _ _).trans hnone, hrest⟩
  · by_cases heq : c = c'
    · subst heq
      obtain ⟨-, rfl, rfl⟩ := hs.establishing hest
      have hnew : (conn.connectEstablished s.poll).1 = conn' :=
        Option.some.inj ((Function.update_self c _ s.conns).symm.trans hconn')
      subst hnew
      obtain ⟨hbuf, hacc, -⟩ := hs.open_ conn hcall.conn hopen
      refine ⟨hbuf, hacc, fun _ => ?_⟩
      rw [Tcpconn.isWriting_connectEstablished]
      simp
    · obtain ⟨hbuf, hacc, hwriting⟩ := hs.open_ conn' ((Function.update_of_ne heq _ _).symm.trans hconn') hopen
      exact ⟨hbuf, hacc, fun _ => hwriting fun h => heq (Option.some.inj (hest.symm.trans h)).symm⟩

/-- A writability event: nothing in `outBuffer` is readable, so nothing is offered to the kernel. -/
theorem Line.handleWrite {c' : ConnId} {revent : Events} {rest : List (Chan × Events)} {conn : Tcpconn Chan}
    {ret : Int} {w : Wrote Chan} (hs : s.Line c sent accepted) (hh : s.Handles c' revent rest conn)
    (hw : conn.handleWrite s.poll ret = some w) :
    Line { s.setConn c' w.conn with poll := w.poll, pc := .between (.dispatch rest) } c sent
      (accepted ++ if c' = c then w.accepted else []) := by
  have hest : s.pc.establishing = none := by rw [hh.pc]; rfl
  by_cases heq : c' = c
  · subst heq
    by_cases hopen : conn.state = .kConnected
    · obtain ⟨⟨hwf, hempty⟩, -⟩ := hs.open_ conn hh.conn hopen
      rw [Tcpconn.handleWrite_of_empty hwf hempty hw, if_pos rfl, List.append_nil]
      exact hs.write _ hh.conn rfl (fun _ h => ⟨h, rfl, rfl⟩) rfl (fun h => Or.inl h) hest.symm
    · have hlt : c' < s.next := hs.lt_next (by rw [hh.conn]; exact Option.some_ne_none _)
      refine Line.dead hlt (fun h => by cases h) fun conn' hconn' => ?_
      have hnew : w.conn = conn' := Option.some.inj ((Function.update_self c' _ s.conns).symm.trans hconn')
      rw [← hnew, (Tcpconn.handleWrite_frame hw).2.1]
      exact hopen
  · rw [if_neg heq, List.append_nil]
    exact hs.write _ hh.conn rfl (fun h => absurd h.symm heq) rfl (fun h => Or.inl h) hest.symm

/-- While a connection is being established the user's code has no `shared_ptr` to it. -/
theorem Line.not_establishing (hs : s.Line c sent accepted) (hholds : s.Holds c) : s.pc.establishing ≠ some c := by
  intro hest
  rcases hholds with hheld | harg
  · exact (hs.establishing hest).1 hheld
  · unfold ServerPc.arg at harg
    split at harg
    · rename_i hpc
      rw [hpc] at hest
      cases hest
    · cases harg

/-- What a send on an open connection does to its line. -/
theorem Line.sendInLoop {conn : Tcpconn Chan} {str : List UInt8} {ret : Int} {w : Wrote Chan}
    (hbuf : conn.outBuffer.Wf ∧ conn.outBuffer.content = []) (hacc : accepted = upToShort sent)
    (hwriting : conn.socketChannel.isWriting = true ↔ ∃ v ∈ sent, ShortRet v)
    (hw : conn.sendInLoop s.poll str ret = some w) :
    accepted ++ w.accepted = upToShort (sent ++ [(str, ret)]) ∧
      (w.conn.socketChannel.isWriting = true ↔ ∃ v ∈ sent ++ [(str, ret)], ShortRet v) := by
  have hread : conn.outBuffer.readableBytes = 0 := by
    rw [Buffer.readableBytes_of_lt hbuf.1 (by simp [hbuf.2]), hbuf.2]
    rfl
  have hsnoc : (∃ v ∈ sent ++ [(str, ret)], ShortRet v) ↔ (∃ v ∈ sent, ShortRet v) ∨ ShortRet (str, ret) := by
    simp [or_and_right, exists_or]
  rw [upToShort_snoc, hsnoc, hacc]
  rcases Tcpconn.sendInLoop_cases hw with
    ⟨hshort, -, hwacc, restStr, hwconn, -⟩ | ⟨hidle, -, hwhole, -, rfl⟩ | ⟨hqueued, rfl⟩
  · have hnot : ¬ ∃ v ∈ sent, ShortRet v := fun h => by
      have hidle := hshort.1
      rw [hwriting.mpr h] at hidle
      cases hidle
    rw [if_neg hnot, hwacc, hwconn]
    exact ⟨rfl, iff_of_true (Channel.isWriting_enableWriting conn.socketChannel s.poll) (Or.inr hshort.2.2)⟩
  · have hnot : ¬ ∃ v ∈ sent, ShortRet v := fun h => by
      rw [hwriting.mpr h] at hidle
      cases hidle
    rw [if_neg hnot]
    refine ⟨rfl, iff_of_false (by rw [hidle]; exact Bool.false_ne_true) ?_⟩
    rintro (h | h)
    · exact hnot h
    · exact hwhole ⟨hidle, hread, h⟩
  · have hmuted : conn.socketChannel.isWriting = true := hqueued.resolve_right fun h => h hread
    rw [if_pos (hwriting.mp hmuted)]
    exact ⟨rfl, iff_of_true hmuted (Or.inl (hwriting.mp hmuted))⟩

theorem Line.send {c' : ConnId} {conn : Tcpconn Chan} {str : List UInt8} {ret : Int} {w : Wrote Chan}
    (hs : s.Line c sent accepted) (hconn : s.conns c' = some conn) (hholds : s.Holds c')
    (hw : conn.sendInLoop s.poll str ret = some w) :
    Line { s.setConn c' w.conn with poll := w.poll } c (sent ++ if c' = c then [(str, ret)] else [])
      (accepted ++ if c' = c then w.accepted else []) := by
  by_cases heq : c' = c
  · subst heq
    have hlt : c' < s.next := hs.lt_next (by rw [hconn]; exact Option.some_ne_none _)
    have hest := hs.not_establishing hholds
    rw [if_pos rfl, if_pos rfl]
    refine ⟨fun hle => absurd hlt (not_lt.mpr hle), fun h => absurd h hest, fun conn' hconn' hopen => ?_⟩
    have hnew : w.conn = conn' := Option.some.inj ((Function.update_self c' _ s.conns).symm.trans hconn')
    subst hnew
    obtain ⟨hbuf, hacc, hwriting⟩ := hs.open_ conn hconn (Tcpconn.state_sendInLoop hw ▸ hopen)
    obtain ⟨hwf, hcontent⟩ := Tcpconn.outBuffer_sendInLoop hbuf.1 hw
    obtain ⟨hacc', hwriting'⟩ := Line.sendInLoop hbuf hacc (hwriting hest) hw
    exact ⟨⟨hwf, hcontent.trans hbuf.2⟩, hacc', fun _ => hwriting'⟩
  · rw [if_neg heq, if_neg heq, List.append_nil, List.append_nil]
    exact hs.write _ hconn rfl (fun h => absurd h.symm heq) rfl (fun h => Or.inl h) rfl

/-- An event that sends nothing on the connection. -/
theorem Line.silent (hs : s'.Line c sent accepted) (hsends : e.sends c = none) (haccepts : s.accepts c e = []) :
    s'.Line c (sent ++ (e.sends c).toList) (accepted ++ s.accepts c e) := by
  rw [hsends, haccepts, Option.toList_none, List.append_nil, List.append_nil]
  exact hs

theorem Line.step (hs : s.Line c sent accepted) (hinv : s.lifecycle.Inv) (h : machine.step s e = some s') :
    s'.Line c (sent ++ (e.sends c).toList) (accepted ++ s.accepts c e) := by
  cases step_cases h with
  | poll hpc hrep => exact Line.silent (hs.pass rfl rfl rfl (by rw [hpc]; rfl)) rfl rfl
  | wakeup hpc | timerfd hpc | acceptFailed hpc hio =>
    exact Line.silent (hs.pass rfl rfl rfl (by rw [hpc]; rfl)) rfl (by simp only [accepts, hpc])
  | accept hpc hio haccept => exact Line.silent (hs.accept hpc haccept) rfl (by simp only [accepts, hpc])
  | @handleFault c' revent rest io hpc hconn =>
    refine Line.silent (hs.pass rfl rfl rfl (by rw [hpc]; rfl)) rfl ?_
    by_cases heq : c' = c
    · subst heq
      simp [accepts, hpc, hconn]
    · simp [accepts, hpc, heq]
  | closeEvent hh hev =>
    exact Line.silent (hs.handleClose hh.conn (by rw [hh.pc]; rfl) (Or.inl rfl) rfl rfl) rfl
      (by simp [accepts, hh.pc, hev])
  | read hh hev hread => exact Line.silent (hs.handleRead hh hread) rfl (by simp [accepts, hh.pc, hev])
  | noCallBack hh hev =>
    exact Line.silent (hs.pass rfl rfl rfl (by rw [hh.pc]; rfl)) rfl (by simp [accepts, hh.pc, hev])
  | @write c' revent rest io conn s' hh hev hwrite =>
    obtain ⟨w, hw, rfl⟩ := Option.map_eq_some_iff.mp hwrite
    have haccepts : s.accepts c (.handle io) = if c' = c then w.accepted else [] := by
      by_cases heq : c' = c
      · subst heq
        simp [accepts, hh.pc, hev, hh.conn, hw]
      · simp [accepts, hh.pc, heq]
    rw [haccepts]
    exact (List.append_nil sent).symm ▸ hs.handleWrite hh hw
  | doPendingFunc hpc | functorTask hpc | removeTask hpc | closeFault hpc _ =>
    exact Line.silent (hs.pass rfl rfl rfl (by rw [hpc]; rfl)) rfl rfl
  | closeTask hpc hconn =>
    exact Line.silent (hs.handleClose hconn (by rw [hpc]; rfl) (Or.inl rfl) rfl rfl) rfl rfl
  | endPendingFunc hpc =>
    refine Line.silent (Line.sweep ?_) rfl rfl
    exact hs.pass rfl rfl rfl (by rw [hpc]; rfl)
  | @connectDestroyed c' k p conn hcall =>
    obtain ⟨loop, hloop, -⟩ := s.connectDestroyed_eq c' conn
    rw [hloop]
    exact Line.silent (hs.pass rfl rfl rfl rfl) rfl rfl
  | @send c' str ret k p conn s' hcall hholds hsend =>
    obtain ⟨w, hw, rfl⟩ := Option.map_eq_some_iff.mp hsend
    have hsends : ((ServerEv.send c' str ret).sends c).toList = if c' = c then [(str, ret)] else [] := by
      by_cases heq : c' = c <;> simp [ServerEv.sends, heq]
    have haccepts : s.accepts c (.send c' str ret) = if c' = c then w.accepted else [] := by
      by_cases heq : c' = c
      · subst heq
        simp [accepts, hcall.conn, hw]
      · simp [accepts, heq]
    rw [hsends, haccepts]
    exact hs.send hcall.conn hholds hw
  | shutdown hcall hholds =>
    exact Line.silent (hs.write _ hcall.conn rfl (fun _ h => ⟨h, rfl, rfl⟩) rfl (fun h => Or.inl h) rfl) rfl rfl
  | queInLoop hpc => exact Line.silent (hs.pass rfl rfl rfl rfl) rfl rfl
  | drop hpc =>
    refine Line.silent (Line.sweep ?_) rfl rfl
    refine hs.goOn (fun conn hconn hopen => ⟨conn, hconn, hopen, rfl, rfl⟩) id rfl (fun hmem => ?_) (Or.inr rfl)
      fun h => Or.inl h
    exact Or.inl (Finset.mem_of_mem_erase hmem)
  | back hpc =>
    refine Line.silent (Line.sweep ?_) rfl rfl
    exact hs.pass rfl rfl rfl (by rw [hpc]; rfl)
  | established hcall => exact Line.silent (hs.established hcall) rfl rfl
  | @closed c' p conn hcall =>
    have hclosed : conn.state ≠ .kConnected := by
      have hstate := (hinv.closing_closed c' (by simp only [lifecycle, hcall.pc]; rfl)).2
      rw [show s.lifecycle.state c' = some conn.state from stateOf_eq hcall.conn] at hstate
      exact fun h => hstate (by rw [h])
    exact Line.silent (hs.closed hcall hclosed) rfl rfl
  | @retFault c' k p hpc hk hconn =>
    refine Line.silent ?_ rfl rfl
    refine hs.goOn (fun conn h hopen => ⟨conn, h, hopen, rfl, rfl⟩) id rfl (fun h => Or.inl h) (Or.inl rfl) fun h => ?_
    -- the one that was being established is gone
    rw [hpc] at h
    rcases hk with rfl | rfl
    · exact Or.inr (Option.some.inj h ▸ hconn)
    · cases h

theorem line_run {base : BaseFds} {tid : Tid} {cb : CloseCallBack} {es : List ServerEv} (c : ConnId)
    (h : machine.run (new base tid cb) es = some s) :
    s.Line c (es.filterMap (ServerEv.sends c)) (machine.outputs (accepts c) (new base tid cb) es) := by
  refine machine.run_induction (P := fun es s => s.Line c (es.filterMap (ServerEv.sends c))
    (machine.outputs (accepts c) (new base tid cb) es)) (line_new base tid cb c) ?_ es s h
  intro es e s1 s2 hrun hs hstep
  rw [machine.outputs_snoc _ hrun, List.filterMap_append]
  have hlast : [e].filterMap (ServerEv.sends c) = (e.sends c).toList := by
    rw [List.filterMap_cons]
    cases e.sends c <;> rfl
  rw [hlast]
  exact hs.step (inv_run hrun) hstep

/-- **A short write is the last one**: what the kernel has accepted of an open connection is what its sends wrote up to
and with the first short one; from then on the connection waits for writability, with nothing to write. -/
theorem output_up_to_short (base : BaseFds) (tid : Tid) (cb : CloseCallBack) (es : List ServerEv) (s : Server)
    (h : machine.run (new base tid cb) es = some s) (c : ConnId) (conn : Tcpconn Chan) (hconn : s.conns c = some conn)
    (hopen : conn.state = .kConnected) (hest : s.pc.establishing ≠ some c) :
    machine.outputs (accepts c) (new base tid cb) es = upToShort (es.filterMap (ServerEv.sends c)) ∧
      (conn.socketChannel.isWriting = true ↔ ∃ w ∈ es.filterMap (ServerEv.sends c), ShortRet w) ∧
      conn.outBuffer.content = [] := by
  obtain ⟨hbuf, hacc, hwriting⟩ := (line_run c h).open_ conn hconn hopen
  exact ⟨hacc, hwriting hest, hbuf.2⟩

/-- A message is answered by two sends, of which the first gets rid of one byte of two. -/
def answerInParts : List ServerEv :=
  acceptSeven ++ [.poll [(.conn 0, readEvent)], .handle ⟨none, some [97], 0⟩, .send 0 [97, 98] 1, .send 0 [99] 1, .ret]

theorem output_up_to_short_answerInParts :
    ∃ s conn, machine.run (new smallBase 1 .removeTcpConnInloop) answerInParts = some s ∧ s.conns 0 = some conn ∧
      machine.outputs (accepts 0) (new smallBase 1 .removeTcpConnInloop) answerInParts = [97] ∧
      conn.socketChannel.isWriting = true ∧ conn.outBuffer.content = [] := by
  have hrun : (machine.run (new smallBase 1 .removeTcpConnInloop) answerInParts).map
      (fun s => (s.stateOf 0, s.pc.establishing)) = some (some .kConnected, none) := by decide +kernel
  obtain ⟨s, hs, heq⟩ := Option.map_eq_some_iff.mp hrun
  rw [Prod.mk.injEq] at heq
  obtain ⟨conn, hconn, hopen⟩ := Option.map_eq_some_iff.mp heq.1
  obtain ⟨haccepted, hwriting, hcontent⟩ := output_up_to_short smallBase 1 .removeTcpConnInloop answerInParts s hs 0
    conn hconn hopen (by rw [heq.2]; exact fun h => by cases h)
  have hsends : answerInParts.filterMap (ServerEv.sends 0) = [([97, 98], 1), ([99], 1)] := rfl
  rw [hsends] at haccepted hwriting
  have hshort : ∃ w ∈ [([97, 98], 1), ([99], 1)], ShortRet w := by decide +kernel
  exact ⟨s, conn, hs, hconn, haccepted.trans (by decide +kernel), hwriting.mpr hshort, hcontent⟩

end Server

end NetImitate
