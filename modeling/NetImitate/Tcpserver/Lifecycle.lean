import NetImitate.Tcpserver.Run

/-!
# The life of a connection

`Lifecycle` keeps of a server what its bookkeeping of connections is about: the state of each connection in memory,
the members of `tcpconnList`, the tasks that wait, and how often a connection was closed.

* `Lifecycle.step` : accept, close, defer a close, remove, destroy; `Lifecycle.Step`, `step_cases` : what it can do;
* `Inv`, `Inv.step` : a waiting `handleClose` has its connection in `tcpconnList`, no `RemoveTcpConn` before it;
* `Server.lifecycle`, `lifecycle_step` : every step of a server is a run of its lifecycle.
-/

namespace NetImitate

@[ext] structure Lifecycle where
  state : ConnId → Option KState
  next : ConnId
  tcpconnList : Finset ConnId
  /-- The tasks that wait, those of the batch first. -/
  queue : List ServerTask
  /-- The connection whose `handleClose` is in its `connectionCallBack`. -/
  closing : Option ConnId
  /-- The connections `connectionCallBack` was called for with `kClosed`. -/
  closed : List ConnId
  /-- The connections `closeCallback` was called for. -/
  finished : List ConnId

inductive LifeOp where
  | accept
  | close (c : ConnId)
  /-- The rest of a close, with or without a task to remove the connection. -/
  | finish (c : ConnId) (remove : Bool)
  /-- A close is left to a task. -/
  | defer (c : ConnId)
  | functor
  | task
  | destroy (c : ConnId)
  /-- The thread is lost, with the rest of its batch. -/
  | abandon (batch : Nat)

namespace Lifecycle

/-- The first part of `handleClose`. -/
def closes (l : Lifecycle) (c : ConnId) : Lifecycle :=
  { l with state := Function.update l.state c (some .kClosed), closing := some c, closed := l.closed ++ [c] }

def accepts (l : Lifecycle) : Lifecycle :=
  { l with
    state := Function.update l.state l.next (some .kConnected)
    next := l.next + 1
    tcpconnList := insert l.next l.tcpconnList }

def destroys (l : Lifecycle) (c : ConnId) : Lifecycle := { l with state := Function.update l.state c none }

def step (l : Lifecycle) : LifeOp → Option Lifecycle
  | .accept => some l.accepts
  | .close c => if l.state c ≠ none ∧ l.closing = none then some (l.closes c) else none
  | .finish c remove =>
    if l.closing = some c then
      some { l with
        queue := l.queue ++ if remove then [.removeTcpConn c] else []
        closing := none
        finished := l.finished ++ [c] }
    else none
  | .defer c => if l.state c = some .kConnected then some { l with queue := l.queue ++ [.handleClose c] } else none
  | .functor => some { l with queue := l.queue ++ [.functor] }
  | .task => match l.queue with
    | [] => none
    | .functor :: rest => some { l with queue := rest }
    | .removeTcpConn c :: rest => some { l with queue := rest, tcpconnList := l.tcpconnList.erase c }
    | .handleClose c :: rest =>
      if l.state c ≠ none ∧ l.closing = none then some (closes { l with queue := rest } c) else none
  | .destroy c => if c ∉ l.tcpconnList then some (l.destroys c) else none
  | .abandon batch => some { l with queue := l.queue.drop batch, closing := none }

def machine : Machine Lifecycle LifeOp := ⟨step⟩

variable {l : Lifecycle}

theorem step_functorTask {rest : List ServerTask} (hq : l.queue = .functor :: rest) :
    machine.step l .task = some { l with queue := rest } := by
  simp only [machine, step, hq]

theorem step_removeTask {c : ConnId} {rest : List ServerTask} (hq : l.queue = .removeTcpConn c :: rest) :
    machine.step l .task = some { l with queue := rest, tcpconnList := l.tcpconnList.erase c } := by
  simp only [machine, step, hq]

theorem step_closeTask {c : ConnId} {rest : List ServerTask} (hq : l.queue = .handleClose c :: rest)
    (hlive : l.state c ≠ none) (hclosing : l.closing = none) :
    machine.step l .task = some (closes { l with queue := rest } c) := by
  simp only [machine, step, hq, if_pos (And.intro hlive hclosing)]

inductive Step (l : Lifecycle) : LifeOp → Lifecycle → Prop
  | accept : Step l .accept l.accepts
  | close {c : ConnId} (hlive : l.state c ≠ none) (hclosing : l.closing = none) : Step l (.close c) (l.closes c)
  | finish {c : ConnId} {remove : Bool} (hclosing : l.closing = some c) : Step l (.finish c remove) { l with
      queue := l.queue ++ if remove then [.removeTcpConn c] else []
      closing := none
      finished := l.finished ++ [c] }
  | defer {c : ConnId} (hopen : l.state c = some .kConnected) :
      Step l (.defer c) { l with queue := l.queue ++ [.handleClose c] }
  | functor : Step l .functor { l with queue := l.queue ++ [.functor] }
  | functorTask {rest : List ServerTask} (hq : l.queue = .functor :: rest) : Step l .task { l with queue := rest }
  | removeTask {c : ConnId} {rest : List ServerTask} (hq : l.queue = .removeTcpConn c :: rest) :
      Step l .task { l with queue := rest, tcpconnList := l.tcpconnList.erase c }
  | closeTask {c : ConnId} {rest : List ServerTask} (hq : l.queue = .handleClose c :: rest)
      (hlive : l.state c ≠ none) (hclosing : l.closing = none) : Step l .task (closes { l with queue := rest } c)
  | destroy {c : ConnId} (hlist : c ∉ l.tcpconnList) : Step l (.destroy c) (l.destroys c)
  | abandon {batch : Nat} : Step l (.abandon batch) { l with queue := l.queue.drop batch, closing := none }

theorem step_cases {l' : Lifecycle} {op : LifeOp} (h : machine.step l op = some l') : Step l op l' := by
  cases op <;> simp only [machine, step, Option.some.injEq, Option.ite_none_right_eq_some] at h
  case accept =>
    subst h
    exact .accept
  case close c =>
    obtain ⟨⟨hlive, hclosing⟩, rfl⟩ := h
    exact .close hlive hclosing
  case finish c remove =>
    obtain ⟨hclosing, rfl⟩ := h
    exact .finish hclosing
  case defer c =>
    obtain ⟨hopen, rfl⟩ := h
    exact .defer hopen
  case functor =>
    subst h
    exact .functor
  case task =>
    split at h
    · cases h
    · rename_i rest hq
      cases h
      exact .functorTask hq
    · rename_i c rest hq
      cases h
      exact .removeTask hq
    · rename_i c rest hq
      obtain ⟨⟨hlive, hclosing⟩, heq⟩ := Option.ite_none_right_eq_some.mp h
      cases heq
      exact .closeTask hq hlive hclosing
  case destroy c =>
    obtain ⟨hlist, rfl⟩ := h
    exact .destroy hlist
  case abandon batch =>
    subst h
    exact .abandon

/-! ## The invariant -/

structure Inv (l : Lifecycle) : Prop where
  listed_live : ∀ c ∈ l.tcpconnList, l.state c ≠ none
  live_lt : ∀ c, l.state c ≠ none → c < l.next
  connected_listed : ∀ c, l.state c = some .kConnected → c ∈ l.tcpconnList
  close_listed : ∀ c, .handleClose c ∈ l.queue → c ∈ l.tcpconnList
  ordered : ∀ c, l.queue.Pairwise fun a b => a = .removeTcpConn c → b ≠ .handleClose c
  remove_closed : ∀ c, .removeTcpConn c ∈ l.queue → c < l.next ∧ l.state c ≠ some .kConnected
  closing_closed : ∀ c, l.closing = some c → c < l.next ∧ l.state c ≠ some .kConnected

/-- A close starts on an open connection that has no `handleClose` waiting, and none is left to a second task. -/
def Once (l : Lifecycle) : LifeOp → Prop
  | .close c => l.state c = some .kConnected ∧ .handleClose c ∉ l.queue
  | .defer c => .handleClose c ∉ l.queue
  | _ => True

theorem Inv.closes (hl : l.Inv) {c : ConnId} (hc : l.state c ≠ none) : (l.closes c).Inv := by
  refine ⟨?_, ?_, ?_, hl.close_listed, hl.ordered, ?_,
    ?_⟩
  · intro c' hc'
    by_cases heq : c' = c
    · simp [Lifecycle.closes, heq]
    · simpa [Lifecycle.closes, heq] using hl.listed_live c' hc'
  · intro c' hc'
    by_cases heq : c' = c
    · exact heq ▸ hl.live_lt c hc
    · exact hl.live_lt c' (by simpa [Lifecycle.closes, heq] using hc')
  · intro c' hc'
    by_cases heq : c' = c
    · simp [Lifecycle.closes, heq] at hc'
    · exact hl.connected_listed c' (by simpa [Lifecycle.closes, heq] using hc')
  · intro c' hc'
    obtain ⟨hlt, hclosed⟩ := hl.remove_closed c' hc'
    refine ⟨hlt, ?_⟩
    by_cases heq : c' = c
    · simp [Lifecycle.closes, heq]
    · simpa [Lifecycle.closes, heq] using hclosed
  · intro c' hc'
    obtain rfl : c = c' := Option.some.inj hc'
    exact ⟨hl.live_lt c hc, by simp [Lifecycle.closes]⟩

/-- Tasks are taken out. -/
theorem Inv.sublist (hl : l.Inv) {rest : List ServerTask} (hq : rest.Sublist l.queue) :
    Inv { l with queue := rest } where
  listed_live := hl.listed_live
  live_lt := hl.live_lt
  connected_listed := hl.connected_listed
  close_listed := fun c hc => hl.close_listed c (hq.subset hc)
  ordered := fun c => (hl.ordered c).sublist hq
  remove_closed := fun c hc => hl.remove_closed c (hq.subset hc)
  closing_closed := hl.closing_closed

theorem Inv.tail (hl : l.Inv) {t : ServerTask} {rest : List ServerTask} (hq : l.queue = t :: rest) :
    Inv { l with queue := rest } := hl.sublist (hq ▸ List.sublist_cons_self t rest)

/-- No close is under way any more. -/
theorem Inv.idle (hl : l.Inv) (finished : List ConnId) : Inv { l with closing := none, finished := finished } :=
  ⟨hl.listed_live, hl.live_lt, hl.connected_listed, hl.close_listed, hl.ordered, hl.remove_closed,
    fun _ h => by cases h⟩

/-- A task enters at the end. -/
theorem Inv.enqueue (hl : l.Inv) {t : ServerTask} (hclose : ∀ c, t = .handleClose c → l.state c = some .kConnected)
    (hremove : ∀ c, t = .removeTcpConn c → c < l.next ∧ l.state c ≠ some .kConnected) :
    Inv { l with queue := l.queue ++ [t] } := by
  refine ⟨hl.listed_live, hl.live_lt, hl.connected_listed, ?_, ?_, ?_,
    hl.closing_closed⟩
  · intro c hc
    rcases List.mem_append.mp hc with hc | hc
    · exact hl.close_listed c hc
    · exact hl.connected_listed c (hclose c (List.mem_singleton.mp hc).symm)
  · intro c
    refine List.pairwise_append.mpr ⟨hl.ordered c, List.pairwise_singleton _ _, ?_⟩
    intro a ha b hb hac hbc
    rw [List.mem_singleton] at hb
    -- a `RemoveTcpConn` waits only for a connection that is closed, a `handleClose` comes from an open one
    exact (hl.remove_closed c (hac ▸ ha)).2 (hclose c (hb ▸ hbc))
  · intro c hc
    rcases List.mem_append.mp hc with hc | hc
    · exact hl.remove_closed c hc
    · exact hremove c (List.mem_singleton.mp hc).symm

theorem Inv.accepts (hl : l.Inv) : l.accepts.Inv := by
  have hother : ∀ c, c ≠ l.next → l.accepts.state c = l.state c := fun c hc => Function.update_of_ne hc _ _
  have hlive : ∀ c, c < l.next → l.accepts.state c = l.state c := fun c hc => hother c (Nat.ne_of_lt hc)
  refine ⟨?_, ?_, ?_, ?_, hl.ordered, ?_, ?_⟩
  · intro c hc
    rcases Finset.mem_insert.mp hc with rfl | hc
    · simp [Lifecycle.accepts]
    · rw [hlive c (hl.live_lt c (hl.listed_live c hc))]
      exact hl.listed_live c hc
  · intro c hc
    by_cases heq : c = l.next
    · exact heq ▸ Nat.lt_succ_self _
    · exact Nat.lt_succ_of_lt (hl.live_lt c (by rwa [hother c heq] at hc))
  · intro c hc
    by_cases heq : c = l.next
    · exact heq ▸ Finset.mem_insert_self _ _
    · exact Finset.mem_insert_of_mem (hl.connected_listed c (by rwa [hother c heq] at hc))
  · intro c hc
    exact Finset.mem_insert_of_mem (hl.close_listed c hc)
  · intro c hc
    obtain ⟨hlt, hclosed⟩ := hl.remove_closed c hc
    exact ⟨Nat.lt_succ_of_lt hlt, by rwa [hlive c hlt]⟩
  · intro c hc
    obtain ⟨hlt, hclosed⟩ := hl.closing_closed c hc
    exact ⟨Nat.lt_succ_of_lt hlt, by rwa [hlive c hlt]⟩

/-- The first `RemoveTcpConn` of a connection finds no `handleClose` of it behind itself. -/
theorem Inv.removeTask (hl : l.Inv) {c : ConnId} {rest : List ServerTask} (hq : l.queue = .removeTcpConn c :: rest) :
    Inv { l with queue := rest, tcpconnList := l.tcpconnList.erase c } := by
  have htail := hl.tail hq
  have hclosed : l.state c ≠ some .kConnected := (hl.remove_closed c (hq ▸ List.mem_cons_self)).2
  have hnone : .handleClose c ∉ rest := by
    have hordered := hl.ordered c
    rw [hq, List.pairwise_cons] at hordered
    exact fun hmem => hordered.1 _ hmem rfl rfl
  refine ⟨fun c' hc' => htail.listed_live c' (Finset.mem_of_mem_erase hc'), htail.live_lt, ?_,
    ?_, htail.ordered, htail.remove_closed, htail.closing_closed⟩
  · intro c' hc'
    exact Finset.mem_erase.mpr ⟨fun heq => hclosed (heq ▸ hc'), htail.connected_listed c' hc'⟩
  · intro c' hc'
    exact Finset.mem_erase.mpr ⟨fun heq => hnone (heq ▸ hc'), htail.close_listed c' hc'⟩

theorem Inv.destroys (hl : l.Inv) {c : ConnId} (hc : c ∉ l.tcpconnList) : (l.destroys c).Inv := by
  have hsome : ∀ c' st, (l.destroys c).state c' = some st → l.state c' = some st := by
    intro c' st hst
    by_cases heq : c' = c
    · simp [Lifecycle.destroys, heq] at hst
    · simpa [Lifecycle.destroys, heq] using hst
  have hother : ∀ c' ∈ l.tcpconnList, (l.destroys c).state c' = l.state c' :=
    fun c' hc' => Function.update_of_ne (fun heq : c' = c => hc (heq ▸ hc')) _ _
  refine ⟨?_, ?_, fun c' hc' => hl.connected_listed c' (hsome c' _ hc'), hl.close_listed,
    hl.ordered, ?_, ?_⟩
  · intro c' hc'
    rw [hother c' hc']
    exact hl.listed_live c' hc'
  · intro c' hc'
    obtain ⟨st, hst⟩ := Option.ne_none_iff_exists'.mp hc'
    exact hl.live_lt c' (by rw [hsome c' st hst]; exact Option.some_ne_none _)
  · intro c' hc'
    obtain ⟨hlt, hclosed⟩ := hl.remove_closed c' hc'
    exact ⟨hlt, fun h => hclosed (hsome c' _ h)⟩
  · intro c' hc'
    obtain ⟨hlt, hclosed⟩ := hl.closing_closed c' hc'
    exact ⟨hlt, fun h => hclosed (hsome c' _ h)⟩

theorem Inv.step {l' : Lifecycle} {op : LifeOp} (hl : l.Inv) (h : machine.step l op = some l') : l'.Inv := by
  cases step_cases h with
  | accept => exact hl.accepts
  | close hlive hclosing => exact hl.closes hlive
  | @finish c remove hc =>
    have hclosing := hl.closing_closed c hc
    have hq : Inv { l with queue := l.queue ++ if remove then [.removeTcpConn c] else [] } := by
      cases remove with
      | true => exact hl.enqueue (fun _ h => by cases h) (fun _ h => by cases h; exact hclosing)
      | false => simpa using hl
    exact hq.idle _
  | defer hopen => exact hl.enqueue (fun _ h => by cases h; exact hopen) (fun _ h => by cases h)
  | functor => exact hl.enqueue (fun _ h => by cases h) (fun _ h => by cases h)
  | functorTask hq => exact hl.tail hq
  | removeTask hq => exact hl.removeTask hq
  | closeTask hq hlive hclosing => exact (hl.tail hq).closes hlive
  | destroy hlist => exact hl.destroys hlist
  | @abandon batch => exact (hl.sublist (List.drop_sublist batch l.queue)).idle l.finished

end Lifecycle

/-! ## The lifecycle of a server -/

/-- The connection whose `handleClose` is in its `connectionCallBack`. -/
def ServerPc.closing : ServerPc → Option ConnId
  | .user (.handleClose c) _ => some c
  | _ => none

def Callback.closed : Callback → Option ConnId
  | .connectionCallBack c .kClosed => some c
  | _ => none

def Callback.finished : Callback → Option ConnId
  | .closeCallback c => some c
  | _ => none

namespace Server

def stateOf (s : Server) (c : ConnId) : Option KState := (s.conns c).map Tcpconn.state

/-- The tasks that wait: the rest of the batch, then `pendingList`. -/
def queue (s : Server) : List ServerTask := s.pc.batch ++ s.loop.pendingList

def lifecycle (s : Server) : Lifecycle where
  state := s.stateOf
  next := s.next
  tcpconnList := s.tcpconnList
  queue := s.queue
  closing := s.pc.closing
  closed := s.log.filterMap Callback.closed
  finished := s.log.filterMap Callback.finished

theorem stateOf_eq {s : Server} {c : ConnId} {conn : Tcpconn Chan} (h : s.conns c = some conn) :
    s.stateOf c = some conn.state := by
  rw [stateOf, h, Option.map_some]

theorem stateOf_update (s : Server) (c : ConnId) (conn : Option (Tcpconn Chan)) :
    (fun c' => (Function.update s.conns c conn c').map Tcpconn.state) =
      Function.update s.stateOf c (conn.map Tcpconn.state) := by
  funext c'
  by_cases heq : c' = c
  · rw [heq, Function.update_self, Function.update_self]
  · rw [Function.update_of_ne heq, Function.update_of_ne heq]
    rfl

/-- Writing a connection back in the state it had changes no state. -/
theorem stateOf_setConn {s : Server} {c : ConnId} {conn conn' : Tcpconn Chan} (h : s.conns c = some conn)
    (hstate : conn'.state = conn.state) : (s.setConn c conn').stateOf = s.stateOf := by
  refine (stateOf_update s c (some conn')).trans ?_
  rw [Option.map_some, hstate, ← stateOf_eq h, Function.update_eq_self]

theorem lifecycle_eq {s s' : Server} (hstate : s'.stateOf = s.stateOf) (hnext : s'.next = s.next)
    (hlist : s'.tcpconnList = s.tcpconnList) (hqueue : s'.queue = s.queue) (hclosing : s'.pc.closing = s.pc.closing)
    (hclosed : s'.log.filterMap Callback.closed = s.log.filterMap Callback.closed)
    (hfinished : s'.log.filterMap Callback.finished = s.log.filterMap Callback.finished) :
    s'.lifecycle = s.lifecycle := by
  exact Lifecycle.ext hstate hnext hlist hqueue hclosing hclosed hfinished

theorem lifecycle_msgCallBack {s : Server} {c : ConnId} {ch : Chan × Events} {rest : List (Chan × Events)}
    (hpc : s.pc = .between (.dispatch (ch :: rest))) : (s.msgCallBack c (.dispatch rest)).lifecycle = s.lifecycle := by
  refine lifecycle_eq rfl rfl rfl ?_ ?_ ?_ ?_
  · simp only [msgCallBack, queue, hpc, ServerPc.batch, Place.batch]
  · simp only [msgCallBack, hpc, ServerPc.closing]
  · simp only [msgCallBack, List.filterMap_append, List.filterMap_cons, List.filterMap_nil, Callback.closed,
      List.append_nil]
  · simp only [msgCallBack, List.filterMap_append, List.filterMap_cons, List.filterMap_nil, Callback.finished,
      List.append_nil]

/-- Steps that only move the thread on. -/
theorem lifecycle_pc {s : Server} {pc : ServerPc} (hbatch : pc.batch = s.pc.batch)
    (hclosing : pc.closing = s.pc.closing) : { s with pc := pc }.lifecycle = s.lifecycle := by
  refine lifecycle_eq rfl rfl rfl ?_ hclosing rfl rfl
  simp only [queue, hbatch]

theorem queue_queInLoop (s : Server) (t : ServerTask) : (s.queInLoop t).queue = s.queue ++ [t] := by
  rw [queue, pendingList_queInLoop, queue, List.append_assoc]
  rfl

/-- The first part of `handleClose` is the `close` of the lifecycle. -/
theorem lifecycle_handleClose {s : Server} {c : ConnId} {conn : Tcpconn Chan} {p : Place} :
    (s.handleClose c conn p).lifecycle =
      Lifecycle.closes { s.lifecycle with queue := p.batch ++ s.loop.pendingList } c := by
  have hstate : (s.handleClose c conn p).stateOf = Function.update s.stateOf c (some .kClosed) :=
    stateOf_update s c (some { conn with state := .kClosed })
  simp only [lifecycle, hstate, Lifecycle.closes]
  simp only [handleClose, setConn, queue, ServerPc.batch, ServerPc.closing, List.filterMap_append,
    List.filterMap_cons, List.filterMap_nil, Callback.closed, Callback.finished, List.append_nil]

theorem stateOf_destroy (s : Server) (c : ConnId) : (s.destroy c).stateOf = Function.update s.stateOf c none := by
  obtain ⟨openFds, epfd, hdestroy⟩ := s.destroy_eq c
  rw [hdestroy]
  exact stateOf_update s c none

theorem lifecycle_destroy (s : Server) (c : ConnId) : (s.destroy c).lifecycle = s.lifecycle.destroys c := by
  obtain ⟨openFds, epfd, hdestroy⟩ := s.destroy_eq c
  simp only [lifecycle, stateOf_destroy, Lifecycle.destroys]
  rw [hdestroy]
  rfl

/-! ## What triggers a close -/

/-- The `int` a read returns. -/
def readRet : Option (List UInt8) → Int
  | none => -1
  | some chunk => int32 chunk.length

theorem readToBuf_ret {b : Buffer} {read : Option (List UInt8)} {r : Int × Buffer} (h : b.readToBuf read = some r) :
    r.1 = readRet read := by
  cases read with
  | none =>
    cases h
    rfl
  | some chunk =>
    simp only [Buffer.readToBuf] at h
    split at h
    · split at h <;> cases h <;> rfl
    · cases h

/-- The connection that a reported event closes at once: by `EPOLLRDHUP` or by a failed read. -/
def closesAt (s : Server) : ServerEv → Option ConnId
  | .handle io => match s.pc with
    | .between (.dispatch ((.conn c, revent) :: _)) =>
      match Channel.handleEvent revent with
      | some .cbShutdown => some c
      | some .cbRead => if readRet io.read = -1 then some c else none
      | _ => none
    | _ => none
  | _ => none

/-- The connection on which `ConnectDestroyed` is called: at the end of the stream, or by the user. -/
def defersAt (s : Server) : ServerEv → Option ConnId
  | .handle io => match s.pc with
    | .between (.dispatch ((.conn c, revent) :: _)) =>
      if Channel.handleEvent revent = some .cbRead ∧ readRet io.read = 0 then some c else none
    | _ => none
  | .connectDestroyed c => some c
  | _ => none

/-- No close is triggered on a connection that has a `handleClose` waiting, nor at once on a closed one. -/
def TriggersOnce (s : Server) (e : ServerEv) : Prop :=
  (∀ c ∈ s.closesAt e, s.stateOf c = some .kConnected ∧ .handleClose c ∉ s.queue) ∧
    ∀ c ∈ s.defersAt e, s.stateOf c = some .kConnected → .handleClose c ∉ s.queue

instance (s : Server) (e : ServerEv) : Decidable (s.TriggersOnce e) := by
  unfold TriggersOnce
  infer_instance

/-! ## The simulation -/

/-- The lifecycle takes the step in some operations, which close once where the step triggers once. -/
def Simulated (s : Server) (e : ServerEv) (s' : Server) : Prop :=
  ∃ ops, Lifecycle.machine.run s.lifecycle ops = some s'.lifecycle ∧
    (s.TriggersOnce e → Lifecycle.machine.Meets Lifecycle.Once s.lifecycle ops)

theorem Simulated.nothing {s s' : Server} {e : ServerEv} (h : s'.lifecycle = s.lifecycle) : Simulated s e s' :=
  ⟨[], by rw [Machine.run_nil, h], fun _ => trivial⟩

theorem Simulated.op {s s' : Server} {e : ServerEv} (op : LifeOp)
    (hstep : Lifecycle.machine.step s.lifecycle op = some s'.lifecycle)
    (honce : s.TriggersOnce e → Lifecycle.Once s.lifecycle op) : Simulated s e s' :=
  ⟨[op], by rw [Machine.run_singleton, hstep], fun h => ⟨honce h, fun _ _ => trivial⟩⟩

/-- Sweeping destroys connections that are not in `tcpconnList`. -/
theorem Simulated.sweep {s t : Server} {e : ServerEv} (h : t.lifecycle = s.lifecycle) : Simulated s e t.sweep := by
  have hsweep : ∃ ops : List LifeOp, (∀ op ∈ ops, ∃ c, op = .destroy c) ∧
      Lifecycle.machine.run t.lifecycle ops = some t.sweep.lifecycle := by
    refine sweep_induction (P := fun u => ∃ ops : List LifeOp, (∀ op ∈ ops, ∃ c, op = .destroy c) ∧
      Lifecycle.machine.run t.lifecycle ops = some u.lifecycle) ⟨[], by simp, rfl⟩ ?_
    rintro u c ⟨ops, hops, hrun⟩ href
    refine ⟨ops ++ [.destroy c], ?_, ?_⟩
    · intro op hop
      rcases List.mem_append.mp hop with hop | hop
      · exact hops op hop
      · exact ⟨c, List.mem_singleton.mp hop⟩
    · have hlist : c ∉ u.tcpconnList := fun hmem => by simp [referenced, hmem] at href
      rw [Machine.run_snoc, hrun, Option.bind_some, lifecycle_destroy]
      exact if_pos hlist
  obtain ⟨ops, hops, hrun⟩ := hsweep
  refine ⟨ops, by rw [← h, hrun], fun _ => Lifecycle.machine.meets_of_forall ?_ _⟩
  intro l op hop
  obtain ⟨c, rfl⟩ := hops op hop
  trivial

/-- `handleClose` started by a reported event. -/
theorem Simulated.close {s t : Server} {e : ServerEv} {c : ConnId} {conn : Tcpconn Chan}
    {ch : Chan × Events} {rest : List (Chan × Events)} (ht : t.lifecycle = s.lifecycle)
    (hpc : t.pc = .between (.dispatch (ch :: rest))) (hconn : t.conns c = some conn)
    (honce : s.TriggersOnce e → s.stateOf c = some .kConnected ∧ .handleClose c ∉ s.queue) :
    Simulated s e (t.handleClose c conn (.dispatch rest)) := by
  refine .op (.close c) ?_ honce
  have hlive : t.lifecycle.state c ≠ none := by
    rw [show t.lifecycle.state c = some conn.state from stateOf_eq hconn]
    exact Option.some_ne_none _
  have hclosing : t.lifecycle.closing = none := by
    simp only [lifecycle, hpc]
    rfl
  have hqueue : t.lifecycle.queue = t.loop.pendingList := by
    simp only [lifecycle, queue, hpc]
    rfl
  rw [← ht, lifecycle_handleClose]
  simp only [Lifecycle.machine, Lifecycle.step, if_pos (And.intro hlive hclosing), Place.batch, List.nil_append,
    ← hqueue]

theorem Simulated.connectDestroyed {s t : Server} {e : ServerEv} {c : ConnId} {conn : Tcpconn Chan}
    (ht : t.lifecycle = s.lifecycle) (hconn : t.conns c = some conn)
    (honce : s.TriggersOnce e → s.stateOf c = some .kConnected → .handleClose c ∉ s.queue) :
    Simulated s e (t.connectDestroyed c conn) := by
  have hstate : s.stateOf c = some conn.state := by
    rw [← stateOf_eq hconn]
    exact (congrFun (congrArg Lifecycle.state ht) c).symm
  unfold Server.connectDestroyed
  split
  · exact .nothing ht
  · rename_i hopen
    have hconnected : s.stateOf c = some .kConnected := by
      rw [hstate]
      cases hst : conn.state with
      | kConnected => rfl
      | kClosed => exact absurd hst hopen
    refine .op (.defer c) ?_ (fun h => honce h hconnected)
    have hconnected' : t.lifecycle.state c = some .kConnected :=
      (congrFun (congrArg Lifecycle.state ht) c).trans hconnected
    rw [← ht]
    simp only [Lifecycle.machine, Lifecycle.step, if_pos hconnected']
    simp only [lifecycle, queue_queInLoop]
    rfl

theorem Simulated.handleRead {s s' : Server} {c : ConnId} {revent : Events} {rest : List (Chan × Events)} {io : Io}
    {conn : Tcpconn Chan} (hh : s.Handles c revent rest conn)
    (hev : Channel.handleEvent revent = some .cbRead)
    (hread : s.handleRead c conn io.read (.dispatch rest) = some s') : Simulated s (.handle io) s' := by
  obtain ⟨r, hr, rfl⟩ := Option.map_eq_some_iff.mp hread
  have hret := readToBuf_ret hr
  set conn' : Tcpconn Chan := { conn with inBuffer := r.2 }
  have hconn' : (s.setConn c conn').conns c = some conn' := Function.update_self _ _ _
  have hlife : (s.setConn c conn').lifecycle = s.lifecycle :=
    lifecycle_eq (stateOf_setConn hh.conn rfl) rfl rfl rfl rfl rfl rfl
  have hpc : (s.setConn c conn').pc = .between (.dispatch ((.conn c, revent) :: rest)) := hh.pc
  by_cases hfail : r.1 = -1
  · simp only [if_pos hfail]
    refine .close hlife hpc hconn' (fun h => h.1 c ?_)
    simp only [closesAt, hh.pc, hev, if_pos (hret ▸ hfail), Option.mem_def]
  · simp only [if_neg hfail]
    by_cases heof : r.1 = 0
    · simp only [if_pos heof]
      have hpc' : ((s.setConn c conn').connectDestroyed c conn').pc = s.pc := pc_connectDestroyed _ _ _
      obtain ⟨ops, hrun, honce⟩ := Simulated.connectDestroyed (s := s) (e := .handle io) hlife hconn' fun h => h.2 c (by
        simp only [defersAt, hh.pc]
        exact if_pos ⟨hev, hret ▸ heof⟩)
      exact ⟨ops, by rw [lifecycle_msgCallBack (hpc'.trans hh.pc), hrun], honce⟩
    · simp only [if_neg heof]
      exact .nothing ((lifecycle_msgCallBack hpc).trans hlife)

/-- Steps that write a connection back in the state it had. -/
theorem lifecycle_setConn {s : Server} {c : ConnId} {conn conn' : Tcpconn Chan} {poll : Poll Chan} {pc : ServerPc}
    (hconn : s.conns c = some conn) (hstate : conn'.state = conn.state) (hbatch : pc.batch = s.pc.batch)
    (hclosing : pc.closing = s.pc.closing) :
    { s.setConn c conn' with poll := poll, pc := pc }.lifecycle = s.lifecycle := by
  refine lifecycle_eq (stateOf_setConn hconn hstate) rfl rfl ?_ hclosing rfl rfl
  simp only [queue, hbatch]
  rfl

theorem Simulated.task {s s' : Server} {e : ServerEv}
    (hstep : Lifecycle.machine.step s.lifecycle .task = some s'.lifecycle) : Simulated s e s' :=
  .op .task hstep fun _ => trivial

theorem queue_drain {s : Server} {rest : List ServerTask} (hpc : s.pc = .between (.drain rest)) :
    s.queue = rest ++ s.loop.pendingList := by
  simp only [queue, hpc]
  rfl

theorem Simulated.accept {s s' : Server} {e : ServerEv} {ch : Chan × Events} {rest : List (Chan × Events)} {fd : Nat}
    {address : String} {event : Events} (hpc : s.pc = .between (.dispatch (ch :: rest)))
    (haccept : s.tcpserverConnection fd address event (.dispatch rest) = some s') : Simulated s e s' := by
  obtain ⟨-, heq⟩ := Option.ite_none_left_eq_some.mp haccept
  cases heq
  refine .op .accept ?_ fun _ => trivial
  have hstate := stateOf_update s s.next (some (Tcpconn.new (.conn s.next) fd address event))
  simp only [Lifecycle.machine, Lifecycle.step, Option.some.injEq]
  refine Lifecycle.ext hstate.symm rfl rfl ?_ ?_ ?_ ?_
  · simp only [Lifecycle.accepts, lifecycle, queue, hpc]
    rfl
  · simp only [Lifecycle.accepts, lifecycle, hpc]
    rfl
  · simp only [lifecycle, List.filterMap_append]
    exact (List.append_nil _).symm
  · simp only [lifecycle, List.filterMap_append]
    exact (List.append_nil _).symm

/-- The rest of `handleClose` is the `finish` of the lifecycle. -/
theorem Simulated.closed {s : Server} {e : ServerEv} {c : ConnId} {p : Place} {conn : Tcpconn Chan}
    (hcall : s.Called c (.handleClose c) p conn) : Simulated s e (s.handleCloseRest c conn p) := by
  have hclosing : s.lifecycle.closing = some c := by
    simp only [lifecycle, hcall.pc]
    rfl
  have hset : (s.setConn c { conn with socketChannel := (conn.socketChannel.disableAll s.poll).1 }).stateOf =
      s.stateOf := stateOf_setConn hcall.conn rfl
  have hstate : (s.unregister c conn).stateOf = s.stateOf := hset
  have hclosed : (s.unregister c conn).log.filterMap Callback.closed = s.log.filterMap Callback.closed := by
    simp only [unregister, List.filterMap_append, List.filterMap_cons, List.filterMap_nil, Callback.closed,
      List.append_nil]
  have hfinished : (s.unregister c conn).log.filterMap Callback.finished =
      s.log.filterMap Callback.finished ++ [c] := by
    simp only [unregister, List.filterMap_append, List.filterMap_cons, List.filterMap_nil, Callback.finished]
  refine .op (.finish c (s.tcpCloseCallBack = .removeTcpConnInloop)) ?_ fun _ => trivial
  simp only [Lifecycle.machine, Lifecycle.step, if_pos hclosing, handleCloseRest, Option.some.injEq]
  cases hcb : s.tcpCloseCallBack with
  | removeTcpConnInloop =>
    refine Lifecycle.ext hstate.symm rfl rfl ?_ rfl hclosed.symm hfinished.symm
    have hpending := pendingList_queInLoop (s.unregister c conn) (.removeTcpConn c)
    simp only [lifecycle, queue, hcall.pc, hpending, ServerPc.batch, decide_true, if_true, List.append_assoc]
    rfl
  | user =>
    refine Lifecycle.ext hstate.symm rfl rfl ?_ rfl hclosed.symm hfinished.symm
    simp only [lifecycle, queue, hcall.pc, ServerPc.batch, reduceCtorEq, decide_false, Bool.false_eq_true, if_false,
      List.append_nil]
    rfl

/-- A step that would use a destroyed connection. -/
theorem Simulated.fault (s : Server) (e : ServerEv) : Simulated s e { s with pc := .fault } := by
  refine .op (.abandon s.pc.batch.length) ?_ fun _ => trivial
  simp only [Lifecycle.machine, Lifecycle.step, lifecycle, queue, List.drop_left]
  rfl

/-- **Every step of a server is a run of its lifecycle.** -/
theorem lifecycle_step {s s' : Server} {e : ServerEv} (h : machine.step s e = some s') : Simulated s e s' := by
  cases step_cases h with
  | poll hpc hrep => exact .nothing (lifecycle_pc (by rw [hpc]; rfl) (by rw [hpc]; rfl))
  | wakeup hpc =>
    refine .nothing (lifecycle_eq rfl rfl rfl ?_ (by rw [hpc]; rfl) rfl rfl)
    simp only [queue, hpc]
    rfl
  | timerfd hpc => exact .nothing (lifecycle_pc (by rw [hpc]; rfl) (by rw [hpc]; rfl))
  | acceptFailed hpc hio => exact .nothing (lifecycle_pc (by rw [hpc]; rfl) (by rw [hpc]; rfl))
  | accept hpc hio haccept => exact .accept hpc haccept
  | handleFault hpc hconn => exact .fault s _
  | @closeEvent c revent rest io conn hh hev =>
    refine .close rfl hh.pc hh.conn fun honce => honce.1 c ?_
    simp only [closesAt, hh.pc, hev, Option.mem_def]
  | read hh hev hread => exact .handleRead hh hev hread
  | write hh hev hwrite =>
    obtain ⟨w, hw, rfl⟩ := Option.map_eq_some_iff.mp hwrite
    exact .nothing (lifecycle_setConn hh.conn (Tcpconn.handleWrite_frame hw).2.1 (by rw [hh.pc]; rfl)
      (by rw [hh.pc]; rfl))
  | noCallBack hh hev => exact .nothing (lifecycle_pc (by rw [hh.pc]; rfl) (by rw [hh.pc]; rfl))
  | doPendingFunc hpc =>
    refine .nothing (lifecycle_eq rfl rfl rfl ?_ (by rw [hpc]; rfl) rfl rfl)
    simp only [queue, hpc]
    exact List.append_nil _
  | functorTask hpc =>
    refine .task ((Lifecycle.step_functorTask (queue_drain hpc)).trans ?_)
    simp only [lifecycle, hpc]
    rfl
  | removeTask hpc =>
    refine .task ((Lifecycle.step_removeTask (queue_drain hpc)).trans ?_)
    simp only [lifecycle, hpc]
    rfl
  | @closeTask c rest conn hpc hconn =>
    have hlive : s.lifecycle.state c ≠ none := by
      rw [show s.lifecycle.state c = some conn.state from stateOf_eq hconn]
      exact Option.some_ne_none _
    have hclosing : s.lifecycle.closing = none := by
      simp only [lifecycle, hpc]
      rfl
    refine .task ((Lifecycle.step_closeTask (queue_drain hpc) hlive hclosing).trans ?_)
    rw [lifecycle_handleClose]
    rfl
  | closeFault hpc hconn => exact .fault s _
  | endPendingFunc hpc =>
    refine .sweep (lifecycle_eq rfl rfl rfl ?_ (by rw [hpc]; rfl) rfl rfl)
    simp only [queue, hpc]
    rfl
  | connectDestroyed hcall => exact .connectDestroyed rfl hcall.conn fun honce => honce.2 _ rfl
  | send hcall hholds hsend =>
    obtain ⟨w, hw, rfl⟩ := Option.map_eq_some_iff.mp hsend
    exact .nothing (lifecycle_setConn hcall.conn (Tcpconn.state_sendInLoop hw) rfl rfl)
  | shutdown hcall hholds =>
    exact .nothing (lifecycle_setConn hcall.conn rfl rfl rfl)
  | queInLoop hpc =>
    refine .op .functor ?_ fun _ => trivial
    simp only [Lifecycle.machine, Lifecycle.step, lifecycle, queue_queInLoop]
    rfl
  | drop hpc => exact .sweep rfl
  | back hpc => exact .sweep (lifecycle_pc (by rw [hpc]; rfl) (by rw [hpc]; rfl))
  | established hcall =>
    exact .nothing (lifecycle_setConn hcall.conn rfl (by rw [hcall.pc]; rfl) (by rw [hcall.pc]; rfl))
  | closed hcall => exact .closed hcall
  | retFault hpc hk hconn => exact .fault s _

end Server

end NetImitate
