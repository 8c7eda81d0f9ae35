import NetImitate.Buffer
import NetImitate.Library.Machine

/-!
# What `AppendInBuf` appends

`machine` runs `AppendInBuf` and the two `RetrieveAsString` on one buffer, with the strings appended and retrieved so
far as history.

* `content_appendInBuf_moved` : the bytes are copied to the right place, and only `readEndIndex` is left behind;
* `appendInBuf_appends_iff` : so a string is appended exactly when it is empty;
* `empty_run` : in every run nothing becomes readable and nothing is retrieved;
* `appends_iff` : a run gives back what was appended exactly when every string appended is empty.
-/

namespace NetImitate

namespace Buffer

/-- With `readEndIndex` moved by the number `AppendInBuf` returns, the string would follow the readable bytes. -/
theorem content_appendInBuf_moved {b : Buffer} (hb : b.Wf) {str : List UInt8} (hlt : str.length < 2 ^ 31) :
    content { (b.appendInBuf str).2 with
      readEndIndex := (b.appendInBuf str).2.readEndIndex + (b.appendInBuf str).1.toNat } = b.content ++ str := by
  obtain ⟨h1, h2, h3⟩ := wf_ensureBuf hb str.length
  have hlen : (int32 str.length).toNat = str.length := by rw [int32_natCast hlt, Int.toNat_natCast]
  have hold : slice (b.appendInBuf str).2.data (b.ensureBuf str.length).readIndex
      (b.ensureBuf str.length).readEndIndex = b.content := content_appendInBuf hb str
  have hnew : slice (b.appendInBuf str).2.data (b.ensureBuf str.length).readEndIndex
      ((b.ensureBuf str.length).readEndIndex + str.length) = str := by
    simp only [appendInBuf, hlen, List.take_length]
    exact slice_overwrite str h3
  calc content { (b.appendInBuf str).2 with
        readEndIndex := (b.appendInBuf str).2.readEndIndex + (b.appendInBuf str).1.toNat }
      = slice (b.appendInBuf str).2.data (b.ensureBuf str.length).readIndex
          ((b.ensureBuf str.length).readEndIndex + str.length) := by simp only [content, appendInBuf, hlen]
    _ = b.content ++ str := by
      rw [← slice_append_slice _ h2 (Nat.le_add_right _ str.length), hold, hnew]

/-- Whatever the fill level and whichever branch `makeSpace` takes. -/
theorem appendInBuf_appends_iff {b : Buffer} (hb : b.Wf) (str : List UInt8) :
    (b.appendInBuf str).2.content = b.content ++ str ↔ str = [] := by
  rw [content_appendInBuf hb str, List.self_eq_append_right]

end Buffer

open Buffer

inductive AppendOp where
  | appendInBuf (str : List UInt8)
  | retrieveAsString
  | retrieveAsStringN (n : Nat)

/-- The string a call passes in. -/
def AppendOp.str : AppendOp → List UInt8
  | .appendInBuf str => str
  | _ => []

/-- A buffer with the strings passed to `AppendInBuf` and the bytes its user retrieved. -/
structure Appended where
  buf : Buffer
  appended : List UInt8
  retrieved : List UInt8

namespace Appended

def new : Appended := ⟨Buffer.new, [], []⟩

/-- The string a `RetrieveAsString` returns; nothing happens when it raises. -/
def retrieve (s : Appended) (r : Option (List UInt8 × Buffer)) : Appended :=
  { s with buf := r.elim s.buf Prod.snd, retrieved := s.retrieved ++ r.elim [] Prod.fst }

def step (s : Appended) : AppendOp → Option Appended
  | .appendInBuf str => some { s with buf := (s.buf.appendInBuf str).2, appended := s.appended ++ str }
  | .retrieveAsString => some (s.retrieve s.buf.retrieveAsString)
  | .retrieveAsStringN n => some (s.retrieve (s.buf.retrieveAsStringN n))

def machine : Machine Appended AppendOp := ⟨step⟩

/-! ## Nothing becomes readable -/

/-- Nothing is readable and nothing was retrieved. -/
structure Empty (s : Appended) : Prop where
  wf : s.buf.Wf
  content : s.buf.content = []
  retrieved : s.retrieved = []

theorem empty_new : new.Empty := ⟨wf_new, content_new, rfl⟩

theorem Empty.retrieve {s : Appended} {r : Option (List UInt8 × Buffer)} (hs : s.Empty)
    (hr : ∀ str b', r = some (str, b') → b'.Wf ∧ s.buf.content = str ++ b'.content) : (s.retrieve r).Empty := by
  cases r with
  | none => exact ⟨hs.wf, hs.content, by simp [Appended.retrieve, hs.retrieved]⟩
  | some r =>
    obtain ⟨str, b'⟩ := r
    obtain ⟨hwf, hcontent⟩ := hr str b' rfl
    rw [hs.content, List.nil_eq_append_iff] at hcontent
    obtain ⟨rfl, hempty⟩ := hcontent
    exact ⟨hwf, hempty, by simp [Appended.retrieve, hs.retrieved]⟩

theorem Empty.step {s s' : Appended} {op : AppendOp} (hs : s.Empty) (h : machine.step s op = some s') : s'.Empty := by
  cases op with
  | appendInBuf str =>
    cases h
    exact ⟨wf_appendInBuf hs.wf str, (content_appendInBuf hs.wf str).trans hs.content, hs.retrieved⟩
  | retrieveAsString =>
    cases h
    have hsmall : s.buf.content.length < 2 ^ 31 := by simp [hs.content]
    exact hs.retrieve fun str b' => retrieveAsString_split hs.wf hsmall
  | retrieveAsStringN n =>
    cases h
    exact hs.retrieve fun str b' => retrieveAsStringN_split hs.wf

/-- **No run makes an appended byte readable.** -/
theorem empty_run {s : Appended} {ops : List AppendOp} (h : machine.run new ops = some s) : s.Empty :=
  machine.run_invariant (fun _ _ _ hs h => hs.step h) ops new s empty_new h

theorem appended_step {s s' : Appended} {op : AppendOp} (h : machine.step s op = some s') :
    s'.appended = s.appended ++ op.str := by
  cases op with
  | appendInBuf str =>
    cases h
    rfl
  | retrieveAsString | retrieveAsStringN n =>
    cases h
    exact (List.append_nil _).symm

theorem appended_run {s : Appended} {ops : List AppendOp} (h : machine.run new ops = some s) :
    s.appended = ops.flatMap AppendOp.str := by
  refine machine.run_induction (P := fun ops s => s.appended = ops.flatMap AppendOp.str) rfl ?_ ops s h
  intro es e s1 s2 _ ih hstep
  rw [appended_step hstep, ih, List.flatMap_append, List.flatMap_singleton]

/-! ## What a run gives back -/

/-- **Appending.** In every state reached a string is appended exactly when it is empty, and what was retrieved, followed
by the readable bytes, is what was appended exactly when all the strings so far were empty. -/
theorem appends_iff (ops : List AppendOp) (s : Appended) (h : machine.run new ops = some s) :
    (∀ str, (s.buf.appendInBuf str).2.content = s.buf.content ++ str ↔ str = []) ∧
      (s.retrieved ++ s.buf.content = s.appended ↔ ∀ str, .appendInBuf str ∈ ops → str = []) := by
  have hs := empty_run h
  refine ⟨appendInBuf_appends_iff hs.wf, ?_⟩
  rw [hs.retrieved, hs.content, List.append_nil, appended_run h, eq_comm, List.flatMap_eq_nil_iff]
  constructor
  · intro hall str hmem
    exact hall _ hmem
  · intro hall op hmem
    cases op with
    | appendInBuf str => exact hall str hmem
    | retrieveAsString | retrieveAsStringN n => rfl

/-- One byte appended to a fresh buffer is neither readable nor retrieved. -/
theorem append_lost :
    (Buffer.new.appendInBuf [97]).2.content ≠ Buffer.new.content ++ [97] ∧
      ∃ s, machine.run new [.appendInBuf [97], .retrieveAsStringN 1] = some s ∧
        s.retrieved ++ s.buf.content ≠ s.appended := by
  constructor
  · rw [ne_eq, appendInBuf_appends_iff wf_new]
    exact List.cons_ne_nil _ _
  · obtain ⟨s, hs⟩ : ∃ s, machine.run new [.appendInBuf [97], .retrieveAsStringN 1] = some s := ⟨_, rfl⟩
    refine ⟨s, hs, ?_⟩
    rw [(empty_run hs).retrieved, (empty_run hs).content, appended_run hs]
    decide

theorem appends_iff_emptyString :
    ∃ s, machine.run new [.appendInBuf [], .retrieveAsString] = some s ∧ s.retrieved ++ s.buf.content = s.appended :=
  ⟨_, rfl, (appends_iff [.appendInBuf [], .retrieveAsString] _ rfl).2.mpr (by simp)⟩

end Appended

end NetImitate
