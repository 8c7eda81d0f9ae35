import NetImitate.Buffer
import NetImitate.Library.Fifo

/-!
# The input side of a buffer as a byte queue

`inputMachine` runs `ReadToBuf` and the two `RetrieveAsString` on one buffer, with the bytes delivered and the strings
retrieved so far as history.

* `ReadsDrained` : a read that delivers bytes finds nothing unread and delivers fewer than `2^31`;
* `run_fifo` : a run of such reads is a run of `Fifo`;
* `input_conserved_of_readsDrained` : what was retrieved, followed by what is readable, is what was delivered;
* `read_unread_breaks`, `read_long_breaks` : what becomes of a read outside the condition.
-/

namespace NetImitate

open Buffer

inductive InputOp where
  | readToBuf (read : Option (List UInt8))
  | retrieveAsString
  | retrieveAsStringN (n : Int)

/-- A buffer with the bytes its reads delivered and the bytes its user retrieved. -/
structure Input where
  buf : Buffer
  delivered : List UInt8
  retrieved : List UInt8

namespace Input

def new : Input := ⟨Buffer.new, [], []⟩

/-- The string a `RetrieveAsString` returns; nothing happens when it raises. -/
def retrieve (s : Input) : Option (List UInt8 × Buffer) → Input
  | none => s
  | some (str, b) => ⟨b, s.delivered, s.retrieved ++ str⟩

def step (s : Input) : InputOp → Option Input
  | .readToBuf read => (s.buf.readToBuf read).map fun r => ⟨r.2, s.delivered ++ read.getD [], s.retrieved⟩
  | .retrieveAsString => some (s.retrieve s.buf.retrieveAsString)
  | .retrieveAsStringN n => some (s.retrieve (s.buf.retrieveAsStringN n))

def machine : Machine Input InputOp := ⟨step⟩

/-- Nothing delivered is lost, and it comes out in order. -/
def Conserved (s : Input) : Prop := s.retrieved ++ s.buf.content = s.delivered

/-- A read that delivers bytes finds the buffer drained, and the number it delivers is an `int`. -/
def ReadsDrained (s : Input) : InputOp → Prop
  | .readToBuf (some chunk) => chunk = [] ∨ (s.buf.readIndex = s.buf.readEndIndex ∧ chunk.length < 2 ^ 31)
  | _ => True

theorem step_readToBuf {s s' : Input} {read : Option (List UInt8)} (h : machine.step s (.readToBuf read) = some s') :
    ∃ ret b', s.buf.readToBuf read = some (ret, b') ∧ s' = ⟨b', s.delivered ++ read.getD [], s.retrieved⟩ := by
  simp only [machine, step, Option.map_eq_some_iff] at h
  obtain ⟨⟨ret, b'⟩, hread, rfl⟩ := h
  exact ⟨ret, b', hread, rfl⟩

/-! ## Every step keeps the representation -/

theorem wf_step {s s' : Input} {op : InputOp} (hs : s.buf.Wf) (h : machine.step s op = some s') : s'.buf.Wf := by
  cases op with
  | readToBuf read =>
    obtain ⟨ret, b', hread, rfl⟩ := step_readToBuf h
    exact wf_readToBuf hs hread
  | retrieveAsString =>
    cases h
    cases hr : s.buf.retrieveAsString with
    | none => exact hs
    | some r => exact wf_retrieveAsString hs hr
  | retrieveAsStringN n =>
    cases h
    cases hr : s.buf.retrieveAsStringN n with
    | none => exact hs
    | some r => exact wf_retrieveAsStringN hs hr

theorem wf_run {s : Input} {ops : List InputOp} (h : machine.run new ops = some s) : s.buf.Wf :=
  machine.run_invariant (I := fun s => s.buf.Wf) (fun _ _ _ hs h => wf_step hs h) ops new s wf_new h

/-! ## The simulation by a queue -/

/-- The queue a buffer with its history stands for. -/
def toFifo (s : Input) : Fifo UInt8 := ⟨s.buf.content, s.delivered, s.retrieved⟩

/-- The states the simulation goes through. -/
structure Sim (s : Input) (q : Fifo UInt8) : Prop where
  wf : s.buf.Wf
  small : s.buf.content.length < 2 ^ 31
  eq : q = s.toFifo

/-- What an operation does to the queue. -/
def fifoOps (s : Input) : InputOp → List (Fifo.Op UInt8)
  | .readToBuf read => [.push (read.getD [])]
  | .retrieveAsString => [.pop ((s.buf.retrieveAsString.elim [] Prod.fst).length)]
  | .retrieveAsStringN n => [.pop (((s.buf.retrieveAsStringN n).elim [] Prod.fst).length)]

theorem content_readToBuf_of_readsDrained {s : Input} {read : Option (List UInt8)} {ret : Int} {b' : Buffer}
    (hs : s.buf.Wf) (hC : ReadsDrained s (.readToBuf read)) (h : s.buf.readToBuf read = some (ret, b')) :
    b'.content = s.buf.content ++ read.getD [] ∧
      (b'.content.length = s.buf.content.length ∨ b'.content.length < 2 ^ 31) := by
  cases read with
  | none => simp [content_readToBuf_none hs h]
  | some chunk =>
    rcases hC with rfl | ⟨hdrained, hlt⟩
    · simp [content_readToBuf_nil hs h]
    · have hempty := content_eq_nil hdrained
      have hchunk := content_readToBuf_drained hs hempty hlt h
      rw [hchunk, hempty]
      exact ⟨rfl, Or.inr hlt⟩

theorem sim_retrieve {s : Input} {r : Option (List UInt8 × Buffer)} (hs : s.buf.Wf)
    (hsmall : s.buf.content.length < 2 ^ 31)
    (hr : ∀ str b', r = some (str, b') → b'.Wf ∧ s.buf.content = str ++ b'.content) :
    Sim (s.retrieve r) (s.toFifo.apply (.pop (r.elim [] Prod.fst).length)) := by
  cases r with
  | none => exact ⟨hs, hsmall, by simp [retrieve, toFifo, Fifo.apply]⟩
  | some r =>
    obtain ⟨str, b'⟩ := r
    obtain ⟨hwf, hcontent⟩ := hr str b' rfl
    have hlen := congrArg List.length hcontent
    rw [List.length_append] at hlen
    refine ⟨hwf, ?_, ?_⟩
    · simp only [retrieve]
      omega
    · simp only [retrieve, toFifo, Fifo.apply, hcontent, Option.elim_some, List.drop_left, List.take_left]

theorem sim_step (s : Input) (q : Fifo UInt8) (op : InputOp) (s' : Input) (hsim : Sim s q)
    (hC : ReadsDrained s op) (h : machine.step s op = some s') :
    ∃ q', Fifo.machine.run q (fifoOps s op) = some q' ∧ Sim s' q' := by
  obtain ⟨hs, hsmall, rfl⟩ := hsim
  cases op with
  | readToBuf read =>
    obtain ⟨ret, b', hread, rfl⟩ := step_readToBuf h
    obtain ⟨hcontent, hlen⟩ := content_readToBuf_of_readsDrained hs hC hread
    refine ⟨_, rfl, wf_readToBuf hs hread, ?_, ?_⟩
    · change b'.content.length < 2 ^ 31
      omega
    · simp only [toFifo, Fifo.apply, hcontent]
  | retrieveAsString =>
    cases h
    exact ⟨_, rfl, sim_retrieve hs hsmall fun str b' => retrieveAsString_split hs hsmall⟩
  | retrieveAsStringN n =>
    cases h
    exact ⟨_, rfl, sim_retrieve hs hsmall fun str b' => retrieveAsStringN_split hs⟩

/-- **The refinement.** A run whose reads find the buffer drained is a run of a byte queue: the chunks are pushed, the
strings are popped, and the readable bytes are the content. -/
theorem run_fifo {s : Input} {ops : List InputOp} (hC : machine.Meets ReadsDrained new ops)
    (h : machine.run new ops = some s) : ∃ qops, Fifo.machine.run Fifo.empty qops = some s.toFifo := by
  have hinit : Sim new Fifo.empty := ⟨wf_new, by simp [new], by simp [new, toFifo, Fifo.empty]⟩
  obtain ⟨qops, q, hq, hsim⟩ := machine.run_simulates Fifo.machine sim_step ops new s Fifo.empty hinit hC h
  exact ⟨qops, hsim.eq ▸ hq⟩

/-! ## Conservation -/

/-- **Input conservation.** Where every delivering read finds the buffer drained, the strings retrieved followed by the
readable bytes are the chunks delivered; a failed read and a negative `RetrieveAsString(n)` change no readable byte. -/
theorem input_conserved_of_readsDrained (ops : List InputOp) (s : Input)
    (hC : machine.Meets ReadsDrained new ops) (h : machine.run new ops = some s) :
    s.retrieved ++ s.buf.content = s.delivered ∧
      (∀ s', machine.step s (.readToBuf none) = some s' → s'.buf.content = s.buf.content) ∧
      ∀ n < 0, ∀ s', machine.step s (.retrieveAsStringN n) = some s' → s'.buf.content = s.buf.content := by
  have hwf := wf_run h
  obtain ⟨qops, hq⟩ := run_fifo hC h
  refine ⟨Fifo.run_conserved Fifo.conserved_empty hq, ?_, ?_⟩
  · intro s' hs'
    obtain ⟨ret, b', hread, rfl⟩ := step_readToBuf hs'
    exact content_readToBuf_none hwf hread
  · intro n hn s' hs'
    simp only [machine, step, retrieveAsStringN_neg s.buf hn, retrieve, Option.some.injEq] at hs'
    rw [hs']

/-! ## Reads outside the condition -/

/-- Bytes left unread are lost as soon as the first byte of the next chunk differs from the first of them. -/
theorem read_unread_breaks {s s' : Input} {x y : UInt8} {unread chunk : List UInt8} (hs : s.buf.Wf)
    (hcons : s.Conserved) (hunread : s.buf.content = x :: unread) (hxy : y ≠ x) (hlt : (y :: chunk).length < 2 ^ 31)
    (h : machine.step s (.readToBuf (some (y :: chunk))) = some s') : ¬ s'.Conserved := by
  obtain ⟨ret, b', hread, rfl⟩ := step_readToBuf h
  obtain ⟨rest, hrest⟩ := prefix_content_readToBuf hs hlt hread
  intro hcons'
  unfold Conserved at hcons hcons'
  simp only [← hrest, ← hcons, hunread, Option.getD_some, List.append_assoc, List.append_cancel_left_eq,
    List.cons_append, List.cons.injEq] at hcons'
  exact hxy hcons'.1

/-- A chunk whose length is no `int` is not taken in whole. -/
theorem read_long_breaks {s s' : Input} {chunk : List UInt8} (hs : s.buf.Wf) (hcons : s.Conserved)
    (hlong : 2 ^ 31 ≤ chunk.length) (h : machine.step s (.readToBuf (some chunk)) = some s') : ¬ s'.Conserved := by
  obtain ⟨ret, b', hread, rfl⟩ := step_readToBuf h
  intro hcons'
  have hlen := congrArg List.length hcons
  have hlen' := congrArg List.length hcons'
  have hgrow := length_content_readToBuf hs hread
  have hint := int32_lt chunk.length
  simp only [List.length_append, Option.getD_some] at hlen hlen'
  omega

/-- Two reads with nothing retrieved in between: the second chunk replaces the first. -/
theorem input_not_conserved :
    ∃ s, machine.run new [.readToBuf (some [97]), .readToBuf (some [98])] = some s ∧
      s.retrieved ++ s.buf.content ≠ s.delivered := by
  obtain ⟨ret, b, hread⟩ := readToBuf_enabled wf_new [97] (by decide)
  have hwf := wf_readToBuf wf_new hread
  have hcontent := content_readToBuf_drained wf_new content_new (by decide) hread
  obtain ⟨ret', b', hread'⟩ := readToBuf_enabled hwf [98] (by decide)
  have hstep : machine.step ⟨b, [97], []⟩ (.readToBuf (some [98])) = some ⟨b', [97, 98], []⟩ := by
    simp [machine, step, hread']
  refine ⟨⟨b', [97, 98], []⟩, ?_, read_unread_breaks hwf (by simp [Conserved, hcontent]) hcontent (by decide)
    (by decide) hstep⟩
  rw [machine.run_cons, show machine.step new (.readToBuf (some [97])) = some ⟨b, [97], []⟩ by
    simp [machine, step, new, hread]]
  simp [hstep]

theorem input_conserved_two_bytes :
    ∃ s, machine.run new [.readToBuf (some [97, 98]), .retrieveAsStringN 1] = some s ∧
      s.retrieved ++ s.buf.content = s.delivered := by
  obtain ⟨ret, b, hread⟩ := readToBuf_enabled wf_new [97, 98] (by decide)
  have hrun : machine.run new [.readToBuf (some [97, 98]), .retrieveAsStringN 1] =
      some (Input.retrieve ⟨b, [97, 98], []⟩ (b.retrieveAsStringN 1)) := by
    simp [machine, Machine.run, step, new, hread]
  refine ⟨_, hrun, (input_conserved_of_readsDrained _ _ ?_ hrun).1⟩
  exact ⟨Or.inr ⟨rfl, by decide⟩, fun _ _ => ⟨trivial, fun _ _ => trivial⟩⟩

end Input

end NetImitate
