import NetImitate.Buffer
import NetImitate.Library.Machine

/-!
# Runs of a buffer

* `BufferOp`, `machine` : the four public operations, in any order;
* `Range`, `ranges` : the bytes of the vector an operation copies or hands to `::read`;
* `wf_step`, `wf_run` : every step keeps the representation;
* `inside_ranges` : these bytes lie inside the vector;
* `buffer_invariant` : the representation and the room guarantee, over any run.
-/

namespace NetImitate

inductive BufferOp where
  | readToBuf (read : Option (List UInt8))
  | appendInBuf (str : List UInt8)
  | retrieveAsString
  | retrieveAsStringN (n : Int)

/-- A string whose size is an `int`. -/
def BufferOp.Short : BufferOp → Prop
  | .appendInBuf str => str.length < 2 ^ 31
  | _ => True

/-- `length` bytes from `start` on, in a vector of `size` bytes. -/
structure Range where
  start : Int
  length : Int
  size : Nat

def Range.Inside (r : Range) : Prop := 0 ≤ r.start ∧ 0 ≤ r.length ∧ r.start + r.length ≤ r.size

theorem Range.inside_iff (start length : Int) (size : Nat) :
    Inside ⟨start, length, size⟩ ↔ 0 ≤ start ∧ 0 ≤ length ∧ start + length ≤ size := Iff.rfl

namespace Buffer

/-- An operation that raises leaves the buffer as it was. -/
def step (b : Buffer) : BufferOp → Option Buffer
  | .readToBuf read => (b.readToBuf read).map Prod.snd
  | .appendInBuf str => some (b.appendInBuf str).2
  | .retrieveAsString => some (b.retrieveAsString.elim b Prod.snd)
  | .retrieveAsStringN n => some ((b.retrieveAsStringN n).elim b Prod.snd)

def machine : Machine Buffer BufferOp := ⟨step⟩

/-! ## The bytes an operation touches -/

/-- The source and the destination of the copy in `makeSpace`. -/
def makeSpaceRanges (b : Buffer) (len : Int) : List Range :=
  let leftSpace : Int := b.data.length - b.readEndIndex
  let readable : Int := b.readEndIndex - b.readIndex
  if len ≤ leftSpace then [⟨b.readIndex, readable, b.data.length⟩, ⟨b.prependIndex, readable, b.data.length⟩] else []

def ensureBufRanges (b : Buffer) (len : Int) : List Range :=
  if len < ksentry then b.makeSpaceRanges ksentry else b.makeSpaceRanges len

/-- The bytes a `std::string` of `n` bytes is constructed from. -/
def stringRanges (b : Buffer) (n : Int) : List Range := if n < 0 then [] else [⟨b.startRead, n, b.data.length⟩]

/-- Every range of the vector the operation copies from, copies to or hands to `::read`. -/
def ranges (b : Buffer) : BufferOp → List Range
  | .readToBuf _ =>
    b.ensureBufRanges b.writeAbleBytes ++ [⟨b.offered.startRead, b.offered.writeAbleBytes, b.offered.data.length⟩]
  | .appendInBuf str =>
    let dest := b.ensureBuf str.length
    b.ensureBufRanges str.length ++ [⟨dest.readEndIndex, int32 str.length, dest.data.length⟩]
  | .retrieveAsString => b.stringRanges b.readableBytes
  | .retrieveAsStringN n => b.stringRanges (if n ≤ b.readableBytes then n else b.readableBytes)

/-! ## Every step keeps the representation -/

theorem wf_step {b b' : Buffer} {op : BufferOp} (hb : b.Wf) (h : machine.step b op = some b') : b'.Wf := by
  cases op with
  | readToBuf read =>
    obtain ⟨⟨ret, b''⟩, hread, rfl⟩ := Option.map_eq_some_iff.mp h
    exact wf_readToBuf hb hread
  | appendInBuf str =>
    cases h
    exact wf_appendInBuf hb str
  | retrieveAsString =>
    cases h
    cases hr : b.retrieveAsString with
    | none => exact hb
    | some r => exact wf_retrieveAsString hb hr
  | retrieveAsStringN n =>
    cases h
    cases hr : b.retrieveAsStringN n with
    | none => exact hb
    | some r => exact wf_retrieveAsStringN hb hr

theorem wf_run {b : Buffer} {ops : List BufferOp} (h : machine.run new ops = some b) : b.Wf :=
  machine.run_invariant (I := Wf) (fun _ _ _ hb h => wf_step hb h) ops new b wf_new h

/-! ## The ranges lie inside the vector -/

theorem inside_makeSpace {b : Buffer} (hb : b.Wf) (len : Int) : ∀ r ∈ b.makeSpaceRanges len, r.Inside := by
  obtain ⟨h1, h2, h3⟩ := hb
  intro r hr
  simp only [makeSpaceRanges] at hr
  split at hr
  · simp only [List.mem_cons, List.not_mem_nil, or_false] at hr
    rcases hr with rfl | rfl
    · rw [Range.inside_iff]
      omega
    · rw [Range.inside_iff]
      omega
  · exact absurd hr List.not_mem_nil

theorem inside_ensureBuf {b : Buffer} (hb : b.Wf) (len : Int) : ∀ r ∈ b.ensureBufRanges len, r.Inside := by
  unfold ensureBufRanges
  split
  · exact inside_makeSpace hb ksentry
  · exact inside_makeSpace hb len

/-- A string is never longer than what is readable. -/
theorem inside_string {b : Buffer} (hb : b.Wf) {n : Int} (hn : n ≤ b.readableBytes) :
    ∀ r ∈ b.stringRanges n, r.Inside := by
  have hread := readableBytes_eq hb
  have hle := int32_natCast_le b.content.length
  have hlen := length_content hb
  obtain ⟨h1, h2, h3⟩ := hb
  intro r hr
  unfold stringRanges at hr
  split at hr
  · exact absurd hr List.not_mem_nil
  · rw [List.mem_singleton] at hr
    subst hr
    rw [Range.inside_iff, startRead]
    omega

/-- What `::read` is offered starts at `readIndex` and is no longer than the room behind `readEndIndex`. -/
theorem inside_offered {b : Buffer} (hb : b.Wf) :
    Range.Inside ⟨b.offered.startRead, b.offered.writeAbleBytes, b.offered.data.length⟩ := by
  obtain ⟨h1, h2, h3⟩ := wf_offered hb
  rw [Range.inside_iff, startRead, writeAbleBytes]
  omega

theorem inside_append {b : Buffer} (hb : b.Wf) {str : List UInt8} (hstr : str.length < 2 ^ 31) :
    Range.Inside ⟨(b.ensureBuf str.length).readEndIndex, int32 str.length, (b.ensureBuf str.length).data.length⟩ := by
  have hroom := (le_max_left _ _).trans (le_writeAbleBytes_ensureBuf hb str.length)
  obtain ⟨h1, h2, h3⟩ := wf_ensureBuf hb str.length
  unfold writeAbleBytes at hroom
  rw [Range.inside_iff, int32_natCast hstr]
  omega

theorem inside_ranges {b : Buffer} (hb : b.Wf) {op : BufferOp} (hop : op.Short) :
    ∀ r ∈ b.ranges op, r.Inside := by
  intro r hr
  cases op with
  | readToBuf read =>
    rcases List.mem_append.mp hr with hr | hr
    · exact inside_ensureBuf hb _ r hr
    · rw [List.mem_singleton.mp hr]
      exact inside_offered hb
  | appendInBuf str =>
    rcases List.mem_append.mp hr with hr | hr
    · exact inside_ensureBuf hb _ r hr
    · rw [List.mem_singleton.mp hr]
      exact inside_append hb hop
  | retrieveAsString => exact inside_string hb le_rfl r hr
  | retrieveAsStringN n =>
    refine inside_string hb ?_ r hr
    split <;> omega

/-! ## Runs -/

/-- **Representation and room**: in any run the indices are ordered, `ensureBuf` changes no readable byte and leaves the
room asked for, every range that is copied or handed to `::read` lies inside the vector, `::read` is offered 1024 bytes
or more, and `RetrieveAsString` of a negative number has no effect. -/
theorem buffer_invariant (ops : List BufferOp) (b : Buffer) (h : machine.run new ops = some b) :
    b.Wf ∧ (∀ len, (b.ensureBuf len).content = b.content ∧ max len 1024 ≤ (b.ensureBuf len).writeAbleBytes) ∧
      (∀ op : BufferOp, op.Short → ∀ r ∈ b.ranges op, r.Inside) ∧ 1024 ≤ b.offered.writeAbleBytes ∧
      ∀ n < 0, b.retrieveAsStringN n = none ∧ machine.step b (.retrieveAsStringN n) = some b := by
  have hb := wf_run h
  refine ⟨hb, ?_, fun op hop => inside_ranges hb hop, ?_, ?_⟩
  · intro len
    exact ⟨content_ensureBuf hb len, le_writeAbleBytes_ensureBuf hb len⟩
  · have hroom := (le_max_right _ _).trans (le_writeAbleBytes_ensureBuf hb b.writeAbleBytes)
    unfold ksentry at hroom
    unfold offered
    omega
  · intro n hn
    have hraise := retrieveAsStringN_neg b hn
    refine ⟨hraise, ?_⟩
    simp only [machine, step, hraise, Option.elim_none]

/-- Three bytes are read and two taken; the next read moves the third to the front; one byte is taken, and a string
longer than the vector enlarges it. -/
def readsAndGrowth : List BufferOp :=
  [.readToBuf (some [97, 98, 99]), .retrieveAsStringN 2, .readToBuf (some [100]), .retrieveAsStringN 1] ++
    [.appendInBuf (List.replicate 9000 0)]

theorem buffer_invariant_readsAndGrowth :
    ∃ b, machine.run new readsAndGrowth = some b ∧ (b.readIndex, b.readEndIndex) = (9, 10) ∧
      new.data.length < b.data.length ∧ b.Wf ∧ 1024 ≤ b.offered.writeAbleBytes := by
  have hrun : (machine.run new readsAndGrowth).map (fun b => (b.readIndex, b.readEndIndex)) = some (9, 10) := by
    decide +kernel
  obtain ⟨b, hb, hindices⟩ := Option.map_eq_some_iff.mp hrun
  have hgrown : new.data.length < b.data.length := by
    obtain ⟨b', hb', happend⟩ := machine.run_append_some hb
    obtain rfl : (b'.appendInBuf (List.replicate 9000 0)).2 = b := Option.some.inj happend
    have hroom := (le_max_left _ _).trans
      (le_writeAbleBytes_ensureBuf (wf_run hb') (List.replicate 9000 (0 : UInt8)).length)
    rw [length_appendInBuf (wf_run hb')]
    simp only [new, writeAbleBytes, List.length_replicate, kPrependSize, kInitSize] at hroom ⊢
    omega
  obtain ⟨hwf, -, -, hoffered, -⟩ := buffer_invariant readsAndGrowth b hb
  exact ⟨b, hb, hindices, hgrown, hwf, hoffered⟩

end Buffer

end NetImitate
