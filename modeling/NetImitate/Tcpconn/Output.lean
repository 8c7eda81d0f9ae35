import NetImitate.Tcpconn
import NetImitate.Library.Machine

/-!
# The output side of a connection

`machine` runs `sendInLoop` and `handleWrite` on one established connection, in any order and with any result of the
writes, with the bytes passed in and the bytes accepted by the kernel as history.

* `Conserved` : what the kernel accepted, followed by the readable part of `outBuffer`, is what was passed in;
* `outBuffer_run` : in every run `outBuffer` has nothing to read, so a byte not accepted at once is gone;
* `Accepted` : the write of a send takes the whole string;
* `output_conserved_iff` : a run is conserved at every point exactly when each of its sends is `Accepted`.
-/

namespace NetImitate

inductive OutputOp where
  | sendInLoop (str : List UInt8) (ret : Int)
  | handleWrite (ret : Int)

/-- A connection with the bytes passed to `sendInLoop` and the bytes the kernel accepted. -/
structure Output (Ptr : Type*) where
  conn : Tcpconn Ptr
  poll : Poll Ptr
  sent : List UInt8
  accepted : List UInt8

namespace Output
variable {Ptr : Type*}

/-- A connection right after `ConnectEstablished`. -/
def new (ptr : Ptr) (fd : Nat) (address : String) (event : Events) (p : Poll Ptr) : Output Ptr :=
  let r := (Tcpconn.new ptr fd address event).connectEstablished p
  ⟨r.1, r.2, [], []⟩

/-- The state after a call that was passed `str`. -/
def wrote (s : Output Ptr) (str : List UInt8) (w : Wrote Ptr) : Output Ptr :=
  ⟨w.conn, w.poll, s.sent ++ str, s.accepted ++ w.accepted⟩

def step (s : Output Ptr) : OutputOp → Option (Output Ptr)
  | .sendInLoop str ret => (s.conn.sendInLoop s.poll str ret).map (s.wrote str)
  | .handleWrite ret => (s.conn.handleWrite s.poll ret).map (s.wrote [])

def machine : Machine (Output Ptr) OutputOp := ⟨step⟩

/-- The bytes accepted, followed by the readable bytes of `outBuffer`, are the bytes passed in. -/
def Conserved (s : Output Ptr) : Prop := s.accepted ++ s.conn.outBuffer.content = s.sent

/-- A non-empty `outBuffer` has its channel waiting for writability. -/
def Flushes (s : Output Ptr) : Prop := s.conn.outBuffer.content ≠ [] → s.conn.socketChannel.isWriting = true

/-- The `::write` of a send takes the whole string. -/
def Accepted : OutputOp → Prop
  | .sendInLoop str ret => str = [] ∨ ret = str.length
  | .handleWrite _ => True

/-! ## Every run leaves `outBuffer` empty -/

/-- Nothing in `outBuffer` is readable. -/
structure Empty (s : Output Ptr) : Prop where
  wf : s.conn.outBuffer.Wf
  content : s.conn.outBuffer.content = []

theorem empty_new (ptr : Ptr) (fd : Nat) (address : String) (event : Events) (p : Poll Ptr) :
    (new ptr fd address event p).Empty :=
  ⟨Buffer.wf_new, Buffer.content_new⟩

theorem Empty.step {s s' : Output Ptr} {op : OutputOp} (hs : s.Empty) (h : machine.step s op = some s') :
    s'.Empty := by
  cases op with
  | sendInLoop str ret =>
    simp only [machine, Output.step, Option.map_eq_some_iff] at h
    obtain ⟨w, hw, rfl⟩ := h
    obtain ⟨hwf, hcontent⟩ := Tcpconn.outBuffer_sendInLoop hs.wf hw
    exact ⟨hwf, hcontent.trans hs.content⟩
  | handleWrite ret =>
    simp only [machine, Output.step, Option.map_eq_some_iff] at h
    obtain ⟨w, hw, rfl⟩ := h
    rw [Tcpconn.handleWrite_of_empty hs.wf hs.content hw]
    exact ⟨hs.wf, hs.content⟩

/-- **No run ever makes a byte of `outBuffer` readable.** -/
theorem outBuffer_run {s s' : Output Ptr} {ops : List OutputOp} (hs : s.Empty) (h : machine.run s ops = some s') :
    s'.Empty :=
  machine.run_invariant (fun _ _ _ hs h => hs.step h) ops s s' hs h

theorem conserved_iff {s : Output Ptr} (hs : s.Empty) : s.Conserved ↔ s.accepted = s.sent := by
  rw [Conserved, hs.content, List.append_nil]

/-! ## One step -/

/-- A conserved state after a conserved state: the send in between was accepted in whole. -/
theorem accepted_of_conserved {s s' : Output Ptr} {op : OutputOp} (hs : s.Empty)
    (hcons : s.Conserved) (hcons' : s'.Conserved) (h : machine.step s op = some s') : Accepted op := by
  cases op with
  | handleWrite ret => trivial
  | sendInLoop str ret =>
    rw [conserved_iff (hs.step h)] at hcons'
    rw [conserved_iff hs] at hcons
    simp only [machine, step, Option.map_eq_some_iff] at h
    obtain ⟨w, hw, rfl⟩ := h
    simp only [wrote, hcons, List.append_cancel_left_eq] at hcons'
    have htake : ∀ hret : WriteRet str (sizeT (int32 str.length)) ret, str.take ret.toNat = str →
        str = [] ∨ ret = str.length := by
      intro hret hall
      have hlen := congrArg List.length hall
      rw [List.length_take] at hlen
      rcases hret with hret | hret
      · exact Or.inl (List.length_eq_zero_iff.mp (by omega))
      · exact Or.inr (by omega)
    rcases Tcpconn.sendInLoop_cases hw with ⟨-, hret, hacc, -⟩ | ⟨-, -, -, hret, rfl⟩ | ⟨-, rfl⟩
    · exact htake hret (hacc ▸ hcons')
    · exact htake hret hcons'
    · exact Or.inl hcons'.symm

/-- Where every send was accepted in whole: nothing waits, and nothing is missing. -/
structure Direct (s : Output Ptr) : Prop where
  empty : s.Empty
  notWriting : s.conn.socketChannel.isWriting = false
  accepted : s.accepted = s.sent

theorem Direct.step {s s' : Output Ptr} {op : OutputOp} (hs : s.Direct) (hop : Accepted op)
    (h : machine.step s op = some s') : s'.Direct := by
  have hempty := hs.empty.step h
  cases op with
  | handleWrite ret =>
    simp only [machine, Output.step, Option.map_eq_some_iff] at h
    obtain ⟨w, hw, rfl⟩ := h
    have heq := Tcpconn.handleWrite_of_empty hs.empty.wf hs.empty.content hw
    subst heq
    exact ⟨hempty, hs.notWriting, by simp [wrote, hs.accepted]⟩
  | sendInLoop str ret =>
    simp only [machine, Output.step, Option.map_eq_some_iff] at h
    obtain ⟨w, hw, rfl⟩ := h
    rcases Tcpconn.sendInLoop_cases hw with ⟨hshort, hret, -⟩ | ⟨-, -, -, hret, rfl⟩ | ⟨hqueued, rfl⟩
    · -- a short write takes a positive number of bytes and not all of them
      exfalso
      obtain ⟨-, -, hpos, hlt⟩ := hshort
      rcases hop with rfl | rfl
      · have hzero : int32 ((([] : List UInt8)).length : Int) = 0 := int32_natCast (n := 0) (by decide)
        omega
      · exact lt_irrefl _ hlt
    · refine ⟨hempty, hs.notWriting, ?_⟩
      simp only [wrote, hs.accepted, List.append_cancel_left_eq]
      rcases hop with rfl | rfl
      · exact List.take_nil
      · rw [Int.toNat_natCast, List.take_length]
    · exfalso
      rcases hqueued with hqueued | hqueued
      · rw [hs.notWriting] at hqueued
        cases hqueued
      · rw [Buffer.readableBytes_of_lt hs.empty.wf (by simp [hs.empty.content]), hs.empty.content] at hqueued
        exact hqueued rfl

/-! ## Whole runs -/

theorem direct_run {ptr : Ptr} {fd : Nat} {address : String} {event : Events} {p : Poll Ptr} {s : Output Ptr}
    {ops : List OutputOp} (hops : ∀ op ∈ ops, Accepted op)
    (h : machine.run (new ptr fd address event p) ops = some s) : s.Direct := by
  have hinit : (new ptr fd address event p).Direct := ⟨empty_new ptr fd address event p, by simp [new], rfl⟩
  exact machine.run_invariant_of_meets (C := fun _ op => Accepted op) (fun _ _ _ hs hop h => hs.step hop h) ops _ s
    hinit (machine.meets_of_forall (fun _ op hop => hops op hop) _) h

/-- **Output conservation.** A run keeps the bytes and the write event right at every point exactly when every string
was accepted by the `::write` of its own send. -/
theorem output_conserved_iff (ptr : Ptr) (fd : Nat) (address : String) (event : Events) (p : Poll Ptr)
    (ops : List OutputOp) (s : Output Ptr) (h : machine.run (new ptr fd address event p) ops = some s) :
    (∀ pre s', pre <+: ops → machine.run (new ptr fd address event p) pre = some s' → s'.Conserved ∧ s'.Flushes) ↔
      ∀ op ∈ ops, Accepted op := by
  constructor
  · intro hall op hop
    obtain ⟨pre, post, rfl⟩ := List.append_of_mem hop
    rw [List.append_cons] at h hall
    obtain ⟨s2, hs2, -⟩ := machine.run_append_some h
    have hsnoc := hs2
    rw [machine.run_snoc, Option.bind_eq_some_iff] at hsnoc
    obtain ⟨s1, hs1, hstep⟩ := hsnoc
    have hpre : pre <+: pre ++ [op] ++ post := by
      rw [List.append_assoc]
      exact List.prefix_append _ _
    exact accepted_of_conserved (outBuffer_run (empty_new ptr fd address event p) hs1) (hall pre s1 hpre hs1).1
      (hall (pre ++ [op]) s2 (List.prefix_append _ _) hs2).1 hstep
  · intro hops pre s' hpre hs'
    have hdirect := direct_run (fun op hop => hops op (hpre.subset hop)) hs'
    exact ⟨(conserved_iff hdirect.empty).mpr hdirect.accepted, fun hne => absurd hdirect.empty.content hne⟩

theorem step_sendInLoop_enabled (s : Output Ptr) {str : List UInt8} {ret : Int}
    (hret : WriteRet str (sizeT (int32 str.length)) ret) : ∃ s', machine.step s (.sendInLoop str ret) = some s' := by
  obtain ⟨w, hw⟩ := Tcpconn.sendInLoop_enabled (c := s.conn) s.poll hret
  exact ⟨s.wrote str w, by simp [machine, step, hw]⟩

theorem writeRet_two_bytes (ret : Int) (h : 0 ≤ ret) (h' : ret ≤ 2) :
    WriteRet [97, 98] (sizeT (int32 ([97, 98] : List UInt8).length)) ret := by
  rw [int32_natCast (by decide), sizeT_natCast (by decide)]
  exact Or.inr ⟨h, h', h'⟩

/-- One send of two bytes of which the kernel takes one: the other is neither accepted nor readable. -/
theorem output_not_conserved :
    ∃ s, machine.run (new () 5 "" 0 Poll.empty) [.sendInLoop [97, 98] 1] = some s ∧ ¬ s.Conserved := by
  have hempty := empty_new () 5 "" 0 Poll.empty
  obtain ⟨s, hs⟩ := step_sendInLoop_enabled (new () 5 "" 0 Poll.empty)
    (writeRet_two_bytes 1 (by decide) (by decide))
  refine ⟨s, (machine.run_singleton _ _).trans hs, ?_⟩
  intro hcons
  have hop := accepted_of_conserved hempty ((conserved_iff hempty).mpr rfl) hcons hs
  rcases hop with hop | hop <;> cases hop

theorem output_conserved_two_bytes :
    ∃ s, machine.run (new () 5 "" 0 Poll.empty) [.sendInLoop [97, 98] 2] = some s ∧ s.Conserved ∧ s.Flushes := by
  obtain ⟨s, hs⟩ := step_sendInLoop_enabled (new () 5 "" 0 Poll.empty)
    (writeRet_two_bytes 2 (by decide) (by decide))
  have hrun := (machine.run_singleton _ _).trans hs
  refine ⟨s, hrun, (output_conserved_iff () 5 "" 0 Poll.empty _ s hrun).mpr ?_ _ s (List.prefix_refl _) hrun⟩
  simp [Accepted]

end Output

end NetImitate
