import Mathlib.Tactic
import NetImitate.Library.Memory
import NetImitate.Library.Narrow

/-!
# `Buffer`: the byte buffer of a connection

* the functions of `buffer.cc`, on the vector and its three indices;
* `Wf` : `prependIndex ≤ readIndex ≤ readEndIndex ≤ data.size()`, kept by every operation;
* `content` : the readable bytes;
* one lemma an operation for what it does to `content`: `content_ensureBuf`, `content_readToBuf_drained`,
  `prefix_content_readToBuf`, `content_retrieveAsString`, `content_retrieveAsStringN`, `content_appendInBuf`.
-/

namespace NetImitate

def kPrependSize : Nat := 8
def kInitSize : Nat := 8196
def ksentry : Int := 1024

/-- The buffer. `readIndex` and `readEndIndex` are `long`s that are only ever added to or reset. -/
structure Buffer where
  prependIndex : Nat
  readIndex : Nat
  readEndIndex : Nat
  data : List UInt8

namespace Buffer

def new : Buffer where
  prependIndex := kPrependSize
  readIndex := kPrependSize
  readEndIndex := kPrependSize
  data := List.replicate (kPrependSize + kInitSize) 0

/-- The `int` the difference of the two `long`s is returned as. -/
def readableBytes (b : Buffer) : Int := int32 (b.readEndIndex - b.readIndex)

def writeAbleBytes (b : Buffer) : Nat := b.data.length - b.readEndIndex

/-- The offset of `startRead()`, which is also `peek()`. -/
def startRead (b : Buffer) : Nat := b.readIndex

def makeSpace (b : Buffer) (len : Int) : Buffer :=
  let leftSpace : Int := b.data.length - b.readEndIndex
  if len ≤ leftSpace then
    { b with
      data := overwrite b.data b.prependIndex (slice b.data b.readIndex b.readEndIndex)
      readEndIndex := b.prependIndex + (b.readEndIndex - b.readIndex)
      readIndex := b.prependIndex }
  else
    let addNum : Int := if len < ksentry then ksentry else len + ksentry
    { b with data := b.data ++ List.replicate addNum.toNat 0 }

def ensureBuf (b : Buffer) (len : Int) : Buffer :=
  if len < ksentry then b.makeSpace ksentry else b.makeSpace len

/-- `ReadToBuf` when `::read` returns `-1` (`none`) or delivers the bytes of `some chunk`; the result is `none` when
`chunk` is longer than the room `::read` was offered. The bytes land at `startRead()`. -/
def readToBuf (b : Buffer) (read : Option (List UInt8)) : Option (Int × Buffer) :=
  let b := b.ensureBuf b.writeAbleBytes
  match read with
  | none => some (-1, b)
  | some chunk =>
    if chunk.length ≤ b.writeAbleBytes then
      let b := { b with data := overwrite b.data b.startRead chunk }
      let nread := int32 chunk.length
      if nread < 0 then some (nread, b)
      else some (nread, { b with readEndIndex := b.readEndIndex + nread.toNat })
    else none

def retrieveAll (b : Buffer) : Buffer := { b with readIndex := b.prependIndex, readEndIndex := b.prependIndex }

def retrievePart (b : Buffer) (n : Nat) : Buffer := { b with readIndex := b.readIndex + n }

/-- The `std::string` of the `n` bytes from `startRead()`; a negative `n` is a length the constructor refuses. -/
def string (b : Buffer) (n : Int) : Option (List UInt8) :=
  if n < 0 then none else some (slice b.data b.startRead (b.startRead + n.toNat))

/-- `RetrieveAsString()`; `none` when the string constructor raises. -/
def retrieveAsString (b : Buffer) : Option (List UInt8 × Buffer) :=
  (b.string b.readableBytes).map fun str => (str, b.retrieveAll)

/-- `RetrieveAsString(int)`; `none` when the string constructor raises. -/
def retrieveAsStringN (b : Buffer) (n : Int) : Option (List UInt8 × Buffer) :=
  let nread := if n ≤ b.readableBytes then n else b.readableBytes
  (b.string nread).map fun str => (str, b.retrievePart nread.toNat)

/-- `AppendInBuf` copies `len` bytes of `str`, `len` the `int` its size narrows to, behind the readable bytes.
It moves no index. -/
def appendInBuf (b : Buffer) (str : List UInt8) : Int × Buffer :=
  let b := b.ensureBuf str.length
  let len := int32 str.length
  (len, { b with data := overwrite b.data b.readEndIndex (str.take len.toNat) })

/-! ## The representation invariant -/

structure Wf (b : Buffer) : Prop where
  prepend_le : b.prependIndex ≤ b.readIndex
  read_le : b.readIndex ≤ b.readEndIndex
  end_le : b.readEndIndex ≤ b.data.length

/-- The readable bytes. -/
def content (b : Buffer) : List UInt8 := slice b.data b.readIndex b.readEndIndex

theorem wf_new : new.Wf := ⟨le_rfl, le_rfl, by simp [new]⟩

@[simp] theorem content_new : new.content = [] := slice_self _ _

theorem length_content {b : Buffer} (h : b.Wf) : b.content.length = b.readEndIndex - b.readIndex :=
  length_slice h.end_le

theorem content_eq_nil {b : Buffer} (h : b.readIndex = b.readEndIndex) : b.content = [] := by
  rw [content, h, slice_self]

theorem readableBytes_eq {b : Buffer} (h : b.Wf) : b.readableBytes = int32 b.content.length := by
  have := h.read_le
  rw [readableBytes, length_content h]
  congr 1
  omega

theorem readableBytes_of_lt {b : Buffer} (h : b.Wf) (hlt : b.content.length < 2 ^ 31) :
    b.readableBytes = b.content.length := by
  rw [readableBytes_eq h, int32_natCast hlt]

/-! ## Making room -/

/-- The move to the front stays inside the vector. -/
theorem length_move {b : Buffer} (hb : b.Wf) :
    (overwrite b.data b.prependIndex (slice b.data b.readIndex b.readEndIndex)).length = b.data.length := by
  obtain ⟨h1, h2, h3⟩ := hb
  refine length_overwrite ?_
  rw [length_slice h3]
  omega

theorem wf_makeSpace {b : Buffer} (h : b.Wf) (len : Int) : (b.makeSpace len).Wf := by
  have hmove := length_move h
  obtain ⟨h1, h2, h3⟩ := h
  simp only [makeSpace]
  split
  · refine ⟨le_rfl, Nat.le_add_right _ _, ?_⟩
    simp only [hmove]
    omega
  · exact ⟨h1, h2, by simp only [List.length_append]; omega⟩

/-- Neither the move inside the vector nor its growth changes the readable bytes. -/
theorem content_makeSpace {b : Buffer} (h : b.Wf) (len : Int) : (b.makeSpace len).content = b.content := by
  obtain ⟨h1, h2, h3⟩ := h
  simp only [makeSpace]
  split
  · have hlen := length_slice (i := b.readIndex) h3
    simp only [content]
    rw [← hlen]
    exact slice_overwrite _ (by omega)
  · exact slice_append_left _ h3

theorem le_writeAbleBytes_makeSpace {b : Buffer} (h : b.Wf) (len : Int) :
    len ≤ (b.makeSpace len).writeAbleBytes := by
  have hmove := length_move h
  obtain ⟨h1, h2, h3⟩ := h
  simp only [makeSpace]
  split
  · simp only [writeAbleBytes, hmove]
    omega
  · by_cases hlt : len < ksentry
    · simp only [writeAbleBytes, List.length_append, List.length_replicate, if_pos hlt]
      omega
    · simp only [writeAbleBytes, List.length_append, List.length_replicate, ksentry]
      omega

theorem wf_ensureBuf {b : Buffer} (h : b.Wf) (len : Int) : (b.ensureBuf len).Wf := by
  unfold ensureBuf
  split <;> exact wf_makeSpace h _

theorem content_ensureBuf {b : Buffer} (h : b.Wf) (len : Int) : (b.ensureBuf len).content = b.content := by
  unfold ensureBuf
  split <;> exact content_makeSpace h _

/-- The room guarantee: what was asked for, and never less than the sentry. -/
theorem le_writeAbleBytes_ensureBuf {b : Buffer} (h : b.Wf) (len : Int) :
    max len ksentry ≤ (b.ensureBuf len).writeAbleBytes := by
  unfold ensureBuf
  split
  · rename_i hlt
    rw [max_eq_right (le_of_lt hlt)]
    exact le_writeAbleBytes_makeSpace h ksentry
  · rename_i hge
    rw [max_eq_left (not_lt.mp hge)]
    exact le_writeAbleBytes_makeSpace h len

attribute [irreducible] ensureBuf

/-! ## Reading from the socket -/

/-- The buffer `::read` is given: room made, nothing read yet. -/
def offered (b : Buffer) : Buffer := b.ensureBuf b.writeAbleBytes

theorem wf_offered {b : Buffer} (h : b.Wf) : b.offered.Wf := wf_ensureBuf h _

theorem content_offered {b : Buffer} (h : b.Wf) : b.offered.content = b.content := content_ensureBuf h _

/-- Everything `ReadToBuf` can do: `::read` fails, or its chunk is copied to `startRead()` and `readEndIndex` moves by
the `int` its length narrows to, unless that is negative. -/
theorem readToBuf_cases {b b' : Buffer} {read : Option (List UInt8)} {ret : Int}
    (h : b.readToBuf read = some (ret, b')) :
    (read = none ∧ ret = -1 ∧ b' = b.offered) ∨
    ∃ chunk, read = some chunk ∧ ret = int32 chunk.length ∧ chunk.length ≤ b.offered.writeAbleBytes ∧
      b' = { b.offered with
        data := overwrite b.offered.data b.offered.readIndex chunk
        readEndIndex := b.offered.readEndIndex + ret.toNat } := by
  cases read with
  | none =>
    simp only [readToBuf, Option.some.injEq, Prod.mk.injEq] at h
    exact Or.inl ⟨rfl, h.1.symm, h.2.symm⟩
  | some chunk =>
    refine Or.inr ⟨chunk, rfl, ?_⟩
    simp only [readToBuf] at h
    split at h
    · rename_i hle
      split at h <;> rename_i hneg <;> simp only [Option.some.injEq, Prod.mk.injEq] at h
      · refine ⟨h.1.symm, hle, ?_⟩
        rw [← h.2, ← h.1, Int.toNat_of_nonpos (le_of_lt hneg)]
        rfl
      · refine ⟨h.1.symm, hle, ?_⟩
        rw [← h.2, ← h.1]
        rfl
    · cases h

/-- The vector grows by the room that was made only. -/
theorem length_readToBuf {b b' : Buffer} {read : Option (List UInt8)} {ret : Int} (hb : b.Wf)
    (h : b.readToBuf read = some (ret, b')) : b'.data.length = b.offered.data.length := by
  obtain ⟨h1, h2, h3⟩ := wf_offered hb
  rcases readToBuf_cases h with ⟨-, -, rfl⟩ | ⟨chunk, -, -, hle, rfl⟩
  · rfl
  · refine length_overwrite ?_
    unfold writeAbleBytes at hle
    omega

theorem wf_readToBuf {b b' : Buffer} {read : Option (List UInt8)} {ret : Int} (hb : b.Wf)
    (h : b.readToBuf read = some (ret, b')) : b'.Wf := by
  have hlen := length_readToBuf hb h
  obtain ⟨h1, h2, h3⟩ := wf_offered hb
  rcases readToBuf_cases h with ⟨-, -, rfl⟩ | ⟨chunk, -, rfl, hle, rfl⟩
  · exact ⟨h1, h2, h3⟩
  · have hint := int32_natCast_le chunk.length
    unfold writeAbleBytes at hle
    refine ⟨h1, Nat.le_add_right_of_le h2, ?_⟩
    rw [hlen]
    dsimp only
    omega

/-- A chunk read into a drained buffer is all there is to read. -/
theorem content_readToBuf_drained {b b' : Buffer} {chunk : List UInt8} {ret : Int} (hb : b.Wf)
    (hdrained : b.content = []) (hlt : chunk.length < 2 ^ 31) (h : b.readToBuf (some chunk) = some (ret, b')) :
    b'.content = chunk := by
  obtain ⟨h1, h2, h3⟩ := wf_offered hb
  have hempty : b.offered.readEndIndex - b.offered.readIndex = 0 := by
    rw [← length_content (wf_offered hb), content_offered hb, hdrained, List.length_nil]
  rcases readToBuf_cases h with ⟨h, -⟩ | ⟨_, hchunk, rfl, -, rfl⟩
  · cases h
  · rw [Option.some.injEq] at hchunk
    subst hchunk
    have hend : b.offered.readEndIndex = b.offered.readIndex := by omega
    simp only [content, int32_natCast hlt, Int.toNat_natCast, hend]
    exact slice_overwrite chunk (by omega)

/-- Unread bytes are overwritten: whatever was readable, the readable bytes now start with the chunk. -/
theorem prefix_content_readToBuf {b b' : Buffer} {chunk : List UInt8} {ret : Int} (hb : b.Wf)
    (hlt : chunk.length < 2 ^ 31) (h : b.readToBuf (some chunk) = some (ret, b')) : chunk <+: b'.content := by
  obtain ⟨h1, h2, h3⟩ := wf_offered hb
  rcases readToBuf_cases h with ⟨h, -⟩ | ⟨_, hchunk, rfl, -, rfl⟩
  · cases h
  · rw [Option.some.injEq] at hchunk
    subst hchunk
    simp only [content, int32_natCast hlt, Int.toNat_natCast]
    exact slice_overwrite_prefix chunk (by omega) (by omega)

theorem content_readToBuf_none {b b' : Buffer} {ret : Int} (hb : b.Wf) (h : b.readToBuf none = some (ret, b')) :
    b'.content = b.content := by
  rcases readToBuf_cases h with ⟨-, -, rfl⟩ | ⟨_, h, -⟩
  · exact content_offered hb
  · cases h

theorem content_readToBuf_nil {b b' : Buffer} {ret : Int} (hb : b.Wf) (h : b.readToBuf (some []) = some (ret, b')) :
    b'.content = b.content := by
  rcases readToBuf_cases h with ⟨h, -⟩ | ⟨_, hchunk, rfl, -, rfl⟩
  · cases h
  · rw [Option.some.injEq] at hchunk
    subst hchunk
    rw [← content_offered hb]
    have hzero : int32 0 = 0 := int32_natCast (n := 0) (by decide)
    simp [content, hzero]

/-- The readable bytes grow by the `int` the chunk's length narrows to, or not at all. -/
theorem length_content_readToBuf {b b' : Buffer} {chunk : List UInt8} {ret : Int} (hb : b.Wf)
    (h : b.readToBuf (some chunk) = some (ret, b')) :
    b'.content.length = b.content.length + (int32 chunk.length).toNat := by
  have hwf := wf_readToBuf hb h
  have hlen := length_content (wf_offered hb)
  have hread := (wf_offered hb).read_le
  rw [content_offered hb] at hlen
  rw [length_content hwf]
  rcases readToBuf_cases h with ⟨h, -⟩ | ⟨_, hchunk, rfl, -, rfl⟩
  · cases h
  · rw [Option.some.injEq] at hchunk
    subst hchunk
    dsimp only
    omega

theorem readToBuf_enabled_of_le {b : Buffer} {chunk : List UInt8} (h : chunk.length ≤ b.offered.writeAbleBytes) :
    ∃ ret b', b.readToBuf (some chunk) = some (ret, b') := by
  unfold offered at h
  simp only [readToBuf]
  rw [if_pos h]
  split
  · exact ⟨_, _, rfl⟩
  · exact ⟨_, _, rfl⟩

theorem readToBuf_enabled {b : Buffer} (hb : b.Wf) (chunk : List UInt8) (h : (chunk.length : Int) ≤ ksentry) :
    ∃ ret b', b.readToBuf (some chunk) = some (ret, b') := by
  have hroom := (le_max_right _ _).trans (le_writeAbleBytes_ensureBuf hb b.writeAbleBytes)
  refine readToBuf_enabled_of_le ?_
  unfold offered
  omega

/-! ## Taking bytes out -/

theorem wf_retrieveAsString {b b' : Buffer} {str : List UInt8} (hb : b.Wf)
    (h : b.retrieveAsString = some (str, b')) : b'.Wf := by
  obtain ⟨h1, h2, h3⟩ := hb
  simp only [retrieveAsString, Option.map_eq_some_iff, Prod.mk.injEq] at h
  obtain ⟨_, -, -, rfl⟩ := h
  exact ⟨le_rfl, le_rfl, by simp only [retrieveAll]; omega⟩

/-- `RetrieveAsString()` takes everything, where the number of readable bytes is an `int`. -/
theorem content_retrieveAsString {b b' : Buffer} {str : List UInt8} (hb : b.Wf) (hlt : b.content.length < 2 ^ 31)
    (h : b.retrieveAsString = some (str, b')) : str = b.content ∧ b'.content = [] := by
  have hlen := length_content hb
  have hread := readableBytes_of_lt hb hlt
  obtain ⟨h1, h2, h3⟩ := hb
  simp only [retrieveAsString, string, hread, Option.map_eq_some_iff, Prod.mk.injEq] at h
  obtain ⟨_, hstr, rfl, rfl⟩ := h
  rw [if_neg (by omega), Option.some.injEq, Int.toNat_natCast, hlen, startRead,
    show b.readIndex + (b.readEndIndex - b.readIndex) = b.readEndIndex by omega] at hstr
  exact ⟨hstr.symm, content_eq_nil rfl⟩

/-- The number of bytes `RetrieveAsString(n)` takes, when it does not raise. -/
theorem retrieveAsStringN_cases {b b' : Buffer} {n : Int} {str : List UInt8}
    (h : b.retrieveAsStringN n = some (str, b')) :
    ∃ nread : Nat, (nread : Int) ≤ n ∧ (nread : Int) ≤ b.readableBytes ∧
      str = slice b.data b.readIndex (b.readIndex + nread) ∧ b' = b.retrievePart nread := by
  simp only [retrieveAsStringN, string, Option.map_eq_some_iff, Prod.mk.injEq] at h
  obtain ⟨_, hstr, rfl, rfl⟩ := h
  generalize hm : (if n ≤ b.readableBytes then n else b.readableBytes) = nread at hstr ⊢
  have hle : nread ≤ n ∧ nread ≤ b.readableBytes := by
    split at hm <;> omega
  split at hstr
  · cases hstr
  · rw [Option.some.injEq] at hstr
    exact ⟨nread.toNat, by omega, by omega, hstr.symm, rfl⟩

theorem wf_retrieveAsStringN {b b' : Buffer} {n : Int} {str : List UInt8} (hb : b.Wf)
    (h : b.retrieveAsStringN n = some (str, b')) : b'.Wf := by
  have hread := readableBytes_eq hb
  have hle := int32_natCast_le b.content.length
  have hlen := length_content hb
  obtain ⟨h1, h2, h3⟩ := hb
  obtain ⟨nread, -, hn, -, rfl⟩ := retrieveAsStringN_cases h
  exact ⟨by simp only [retrievePart]; omega, by simp only [retrievePart]; omega, h3⟩

/-- `RetrieveAsString(n)` takes a prefix of the readable bytes. -/
theorem content_retrieveAsStringN {b b' : Buffer} {n : Int} {str : List UInt8} (hb : b.Wf)
    (h : b.retrieveAsStringN n = some (str, b')) : b.content = str ++ b'.content := by
  have hread := readableBytes_eq hb
  have hle := int32_natCast_le b.content.length
  have hlen := length_content hb
  obtain ⟨h1, h2, h3⟩ := hb
  obtain ⟨nread, -, hn, rfl, rfl⟩ := retrieveAsStringN_cases h
  exact (slice_append_slice b.data (by omega) (by omega)).symm

/-- `RetrieveAsString(n)` of a nonnegative `n` takes the first `n` readable bytes, or all there are. -/
theorem retrieveAsStringN_natCast {b : Buffer} (hb : b.Wf) (hlt : b.content.length < 2 ^ 31) (n : Nat) :
    b.retrieveAsStringN n = some (b.content.take n, b.retrievePart (min n b.content.length)) := by
  have hnread : (if (n : Int) ≤ b.readableBytes then (n : Int) else b.readableBytes) =
      (min n b.content.length : Nat) := by
    rw [readableBytes_of_lt hb hlt]
    split <;> omega
  have hstr : slice b.data b.readIndex (b.readIndex + min n b.content.length) = b.content.take n := by
    rw [length_content hb, content, slice, slice, Nat.add_sub_cancel_left, List.take_take]
  simp only [retrieveAsStringN, string, hnread]
  rw [if_neg (by omega), Int.toNat_natCast, startRead, hstr, Option.map_some]

/-- What `RetrieveAsString()` returns and what it leaves are what was readable. -/
theorem retrieveAsString_split {b b' : Buffer} {str : List UInt8} (hb : b.Wf) (hlt : b.content.length < 2 ^ 31)
    (h : b.retrieveAsString = some (str, b')) : b'.Wf ∧ b.content = str ++ b'.content := by
  obtain ⟨hstr, hempty⟩ := content_retrieveAsString hb hlt h
  refine ⟨wf_retrieveAsString hb h, ?_⟩
  rw [hstr, hempty, List.append_nil]

theorem retrieveAsStringN_split {b b' : Buffer} {n : Int} {str : List UInt8} (hb : b.Wf)
    (h : b.retrieveAsStringN n = some (str, b')) : b'.Wf ∧ b.content = str ++ b'.content :=
  ⟨wf_retrieveAsStringN hb h, content_retrieveAsStringN hb h⟩

theorem retrieveAsStringN_neg (b : Buffer) {n : Int} (hn : n < 0) :
    b.retrieveAsStringN n = none := by
  have hnread : (if n ≤ b.readableBytes then n else b.readableBytes) < 0 := by
    split <;> omega
  simp only [retrieveAsStringN, string, if_pos hnread, Option.map_none]

/-! ## Appending -/

theorem length_appendInBuf {b : Buffer} (hb : b.Wf) (str : List UInt8) :
    (b.appendInBuf str).2.data.length = (b.ensureBuf str.length).data.length := by
  have hroom := (le_max_left _ _).trans (le_writeAbleBytes_ensureBuf hb str.length)
  have hend := (wf_ensureBuf hb str.length).end_le
  refine length_overwrite ?_
  unfold writeAbleBytes at hroom
  rw [List.length_take]
  omega

theorem wf_appendInBuf {b : Buffer} (hb : b.Wf) (str : List UInt8) : (b.appendInBuf str).2.Wf := by
  obtain ⟨h1, h2, h3⟩ := wf_ensureBuf hb str.length
  exact ⟨h1, h2, h3.trans_eq (length_appendInBuf hb str).symm⟩

/-- What `AppendInBuf` copies stays behind `readEndIndex`: the readable bytes are the ones before. -/
theorem content_appendInBuf {b : Buffer} (hb : b.Wf) (str : List UInt8) :
    (b.appendInBuf str).2.content = b.content := by
  obtain ⟨h1, h2, h3⟩ := wf_ensureBuf hb str.length
  rw [← content_ensureBuf hb str.length]
  exact slice_overwrite_before _ le_rfl h3

end Buffer

end NetImitate
