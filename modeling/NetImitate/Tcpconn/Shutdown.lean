import NetImitate.Tcpconn.Output

/-!
# Shutting down a connection's output

* `ShutdownOp`, `shutdownMachine` : `Send`, writability events and `Shutdown`, in any order on the loop's thread;
* `Behind` : a run never has more bytes accepted than it is passed; `Behind.caught_up`;
* `shutdown_after_output_iff` : each `::shutdown` finds every byte accepted exactly when each send before it was
  accepted in whole by its own write.
-/

namespace NetImitate

inductive ShutdownOp where
  | output (op : OutputOp)
  | shutdown

namespace Output
variable {Ptr : Type*}

/-- On the loop's thread `Shutdown` runs `shutDownInloop` at once, as `Send` runs `sendInLoop`. -/
def stepShutdown (s : Output Ptr) : ShutdownOp → Option (Output Ptr)
  | .output op => s.step op
  | .shutdown => some { s with conn := s.conn.shutDownInloop }

def shutdownMachine : Machine (Output Ptr) ShutdownOp := ⟨stepShutdown⟩

/-- Every byte passed to a send so far has been accepted by the kernel. -/
def Delivered (s : Output Ptr) : Prop := s.accepted = s.sent

/-- A send that was accepted in whole. -/
def AcceptedOp : ShutdownOp → Prop
  | .output op => Accepted op
  | .shutdown => True

variable {s s' : Output Ptr}

/-! ## One step -/

theorem Empty.stepShutdown {op : ShutdownOp} (hs : s.Empty) (h : shutdownMachine.step s op = some s') : s'.Empty := by
  cases op with
  | output op => exact hs.step h
  | shutdown =>
    cases h
    exact ⟨hs.wf, hs.content⟩

theorem Direct.stepShutdown {op : ShutdownOp} (hs : s.Direct) (hop : AcceptedOp op)
    (h : shutdownMachine.step s op = some s') : s'.Direct := by
  cases op with
  | output op => exact hs.step hop h
  | shutdown =>
    cases h
    exact ⟨⟨hs.empty.wf, hs.empty.content⟩, hs.notWriting, hs.accepted⟩

theorem accepted_of_delivered {op : ShutdownOp} (hs : s.Empty) (hbefore : s.Delivered) (hafter : s'.Delivered)
    (h : shutdownMachine.step s op = some s') : AcceptedOp op := by
  cases op with
  | output op =>
    exact accepted_of_conserved hs ((conserved_iff hs).mpr hbefore) ((conserved_iff (hs.step h)).mpr hafter) h
  | shutdown => trivial

/-- From `s` to `s'` no more bytes were accepted than were passed in. -/
def Behind (s s' : Output Ptr) : Prop :=
  ∃ str acc, s'.sent = s.sent ++ str ∧ s'.accepted = s.accepted ++ acc ∧ acc.length ≤ str.length

theorem Behind.refl (s : Output Ptr) : s.Behind s := ⟨[], [], by simp, by simp, le_rfl⟩

theorem Behind.trans {s1 s2 s3 : Output Ptr} (h : s1.Behind s2) (h' : s2.Behind s3) : s1.Behind s3 := by
  obtain ⟨str, acc, hsent, hacc, hle⟩ := h
  obtain ⟨str', acc', hsent', hacc', hle'⟩ := h'
  refine ⟨str ++ str', acc ++ acc', ?_, ?_, ?_⟩
  · rw [hsent', hsent, List.append_assoc]
  · rw [hacc', hacc, List.append_assoc]
  · rw [List.length_append, List.length_append]
    omega

/-- What is delivered at the end was delivered all along. -/
theorem Behind.caught_up {s1 s2 s3 : Output Ptr} (h : s1.Behind s2) (h' : s2.Behind s3) (hstart : s1.Delivered)
    (hend : s3.Delivered) : s2.Delivered := by
  obtain ⟨str, acc, hsent, hacc, hle⟩ := h
  obtain ⟨str', acc', hsent', hacc', hle'⟩ := h'
  unfold Delivered at hstart hend ⊢
  rw [hsent', hacc', hsent, hacc, hstart, List.append_assoc, List.append_assoc] at hend
  have hrest := List.append_cancel_left hend
  have hlen := congrArg List.length hrest
  rw [List.length_append, List.length_append] at hlen
  rw [hsent, hacc, hstart, (List.append_inj hrest (by omega)).1]

theorem behind_step {op : ShutdownOp} (hs : s.Empty) (h : shutdownMachine.step s op = some s') : s.Behind s' := by
  cases op with
  | shutdown =>
    cases h
    exact ⟨[], [], by simp, by simp, le_rfl⟩
  | output op =>
    cases op with
    | sendInLoop str ret =>
      obtain ⟨w, hw, rfl⟩ := Option.map_eq_some_iff.mp h
      refine ⟨str, w.accepted, rfl, rfl, ?_⟩
      rcases Tcpconn.sendInLoop_cases hw with ⟨-, -, hacc, -⟩ | ⟨-, -, -, -, rfl⟩ | ⟨-, rfl⟩
      · rw [hacc]
        exact List.length_take_le' _ _
      · exact List.length_take_le' _ _
      · exact Nat.zero_le _
    | handleWrite ret =>
      obtain ⟨w, hw, rfl⟩ := Option.map_eq_some_iff.mp h
      rw [Tcpconn.handleWrite_of_empty hs.wf hs.content hw]
      exact ⟨[], [], rfl, rfl, le_rfl⟩

/-! ## Whole runs -/

theorem behind_run {ops : List ShutdownOp} (hs : s.Empty) (h : shutdownMachine.run s ops = some s') :
    s'.Empty ∧ s.Behind s' := by
  refine shutdownMachine.run_invariant (I := fun t => t.Empty ∧ s.Behind t) ?_ ops s s' ⟨hs, Behind.refl s⟩ h
  rintro t op t' ⟨ht, hbehind⟩ hstep
  exact ⟨ht.stepShutdown hstep, hbehind.trans (behind_step ht hstep)⟩

/-- A run at whose end every byte is delivered has had every send accepted in whole. -/
theorem delivered_iff (hs : s.Direct) {ops : List ShutdownOp} (h : shutdownMachine.run s ops = some s') :
    s'.Delivered ↔ ∀ op ∈ ops, AcceptedOp op := by
  constructor
  · intro hend op hop
    obtain ⟨pre, post, rfl⟩ := List.append_of_mem hop
    obtain ⟨s1, h1, hrest⟩ := shutdownMachine.run_append_some h
    obtain ⟨s2, h2, h3⟩ := shutdownMachine.run_cons_some hrest
    obtain ⟨hempty, hbehind⟩ := behind_run hs.empty h1
    have hbehind' := behind_step hempty h2
    have hbehind'' := (behind_run (hempty.stepShutdown h2) h3).2
    have hdel1 := hbehind.caught_up (hbehind'.trans hbehind'') hs.accepted hend
    have hdel2 := (hbehind.trans hbehind').caught_up hbehind'' hs.accepted hend
    exact accepted_of_delivered hempty hdel1 hdel2 h2
  · intro hops
    have hdirect : s'.Direct := shutdownMachine.run_invariant_of_meets (C := fun _ op => AcceptedOp op)
      (fun _ _ _ hs hop h => hs.stepShutdown hop h) ops s s' hs
      (shutdownMachine.meets_of_forall (fun _ op hop => hops op hop) s) h
    exact hdirect.accepted

theorem direct_new (ptr : Ptr) (fd : Nat) (address : String) (event : Events) (p : Poll Ptr) :
    (new ptr fd address event p).Direct := ⟨empty_new ptr fd address event p, by simp [new], rfl⟩

/-- **Shutdown does not truncate** exactly when every send that comes before a `Shutdown` was accepted in whole by its
own write. -/
theorem shutdown_after_output_iff (ptr : Ptr) (fd : Nat) (address : String) (event : Events) (p : Poll Ptr)
    (ops : List ShutdownOp) (s : Output Ptr) (h : shutdownMachine.run (new ptr fd address event p) ops = some s) :
    (∀ pre post s', ops = pre ++ .shutdown :: post →
        shutdownMachine.run (new ptr fd address event p) pre = some s' → s'.Delivered) ↔
      ∀ pre post, ops = pre ++ .shutdown :: post → ∀ op ∈ pre, AcceptedOp op := by
  have hdirect := direct_new ptr fd address event p
  constructor
  · intro hall pre post hsplit
    rw [hsplit] at h
    obtain ⟨s', hpre, -⟩ := shutdownMachine.run_append_some h
    exact (delivered_iff hdirect hpre).mp (hall pre post s' hsplit hpre)
  · intro hall pre post s' hsplit hpre
    exact (delivered_iff hdirect hpre).mpr (hall pre post hsplit)

/-- Two bytes, of which the write takes one, and then the shutdown: the other byte has not been accepted. -/
theorem shutdown_truncates :
    ∃ s s', shutdownMachine.run (new () 5 "" 0 Poll.empty) [.output (.sendInLoop [97, 98] 1)] = some s ∧
      shutdownMachine.step s .shutdown = some s' ∧ s'.conn.connectSocket.shutWr = true ∧ ¬ s.Delivered := by
  have hdirect := direct_new () 5 "" 0 Poll.empty
  obtain ⟨s, hs⟩ := step_sendInLoop_enabled (new () 5 "" 0 Poll.empty)
    (writeRet_two_bytes 1 (by decide) (by decide))
  have hstep : shutdownMachine.step (new () 5 "" 0 Poll.empty) (.output (.sendInLoop [97, 98] 1)) = some s := hs
  have hrun := (shutdownMachine.run_singleton _ _).trans hstep
  refine ⟨s, _, hrun, rfl, rfl, ?_⟩
  intro hdel
  have hop := (delivered_iff hdirect hrun).mp hdel _ List.mem_cons_self
  rcases hop with hop | hop <;> cases hop

theorem shutdown_after_output_two_bytes :
    ∃ s, shutdownMachine.run (new () 5 "" 0 Poll.empty) [.output (.sendInLoop [97, 98] 2), .shutdown] = some s ∧
      ∀ pre post s', [.output (.sendInLoop [97, 98] 2), .shutdown] = pre ++ .shutdown :: post →
        shutdownMachine.run (new () 5 "" 0 Poll.empty) pre = some s' → s'.Delivered := by
  obtain ⟨s, hs⟩ := step_sendInLoop_enabled (new () 5 "" 0 Poll.empty)
    (writeRet_two_bytes 2 (by decide) (by decide))
  have hstep : shutdownMachine.step (new () 5 "" 0 Poll.empty) (.output (.sendInLoop [97, 98] 2)) = some s := hs
  have hrun : shutdownMachine.run (new () 5 "" 0 Poll.empty) [.output (.sendInLoop [97, 98] 2), .shutdown] =
      some { s with conn := s.conn.shutDownInloop } := by
    rw [Machine.run_cons, hstep]
    rfl
  refine ⟨_, hrun, (shutdown_after_output_iff () 5 "" 0 Poll.empty _ _ hrun).mpr ?_⟩
  intro pre post hsplit op hop
  have hmem : op ∈ [.output (.sendInLoop [97, 98] 2), .shutdown] := hsplit ▸ List.mem_append_left _ hop
  simp only [List.mem_cons, List.not_mem_nil, or_false] at hmem
  rcases hmem with rfl | rfl
  · exact Or.inr rfl
  · trivial

end Output

end NetImitate
