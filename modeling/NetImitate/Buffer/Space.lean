import NetImitate.Buffer.Run

/-!
# When a buffer grows

* `Grows` : `makeSpace` enlarges the vector; `grows_iff` : it does when the room behind `readEndIndex` is too small;
* `freeSpace` : that room and the prefix already consumed;
* `reclaims_iff` : growing waits for the free space to run out only where nothing has been consumed;
* `length_step`, `length_run` : the vector never shrinks;
* `Drained` : a consumer that takes everything with `RetrieveAsString(n)` before the next read;
* `drained_run` : under such a consumer the vector keeps its size as long as each read that another one follows leaves
  room for the sentry;
* `space_reclaimed_iff` : both, over any run.
-/

namespace NetImitate

/-- The number of bytes a read delivers. -/
def BufferOp.nread : BufferOp → Option Nat
  | .readToBuf read => some (read.getD []).length
  | _ => none

namespace Buffer

/-- `makeSpace(len)` enlarges `data`. -/
def Grows (b : Buffer) (len : Int) : Prop := b.data.length < (b.makeSpace len).data.length

/-- The room behind the readable bytes and in front of them. -/
def freeSpace (b : Buffer) : Int := b.data.length - b.prependIndex - b.readableBytes

/-- The numbers of bytes the reads of a run deliver. -/
def reads (ops : List BufferOp) : List Nat := ops.filterMap BufferOp.nread

/-- Only `RetrieveAsString(n)` takes bytes out, and a read finds nothing left. -/
def Drained (b : Buffer) : BufferOp → Prop
  | .readToBuf _ => b.readIndex = b.readEndIndex
  | .retrieveAsStringN _ => True
  | _ => False

/-! ## One call of `makeSpace` -/

theorem grows_iff {b : Buffer} (hb : b.Wf) (len : Int) : b.Grows len ↔ b.writeAbleBytes < len := by
  have hend := hb.end_le
  have hmove := length_move hb
  unfold Grows makeSpace writeAbleBytes
  dsimp only
  split
  · rename_i hle
    rw [hmove]
    omega
  · rename_i hgt
    have hadd : 0 < (if len < ksentry then ksentry else len + ksentry) := by
      unfold ksentry
      split <;> omega
    rw [List.length_append, List.length_replicate]
    omega

/-- The free space is the room behind `readEndIndex` and the consumed prefix. -/
theorem freeSpace_eq {b : Buffer} (hb : b.Wf) (hlt : b.content.length < 2 ^ 31) :
    b.freeSpace = b.writeAbleBytes + ((b.readIndex : Int) - b.prependIndex) := by
  have hread := readableBytes_of_lt hb hlt
  have hlen := length_content hb
  obtain ⟨h1, h2, h3⟩ := hb
  unfold freeSpace writeAbleBytes
  omega

theorem grows_late_iff {b : Buffer} (hb : b.Wf) (len : Int) :
    (b.Grows len → b.freeSpace < len) ↔ len ≤ b.writeAbleBytes ∨ b.freeSpace < len := by
  rw [grows_iff hb, imp_iff_not_or, not_lt]

/-- **The consumed prefix is not reclaimed**: growing waits for the free space only where there is no such prefix. -/
theorem reclaims_iff {b : Buffer} (hb : b.Wf) :
    (∀ len, 0 ≤ len → b.Grows len → b.freeSpace < len) ↔
      b.readIndex = b.prependIndex ∧ b.content.length < 2 ^ 31 := by
  constructor
  · intro hall
    have hgrows : b.Grows (b.writeAbleBytes + 1) := (grows_iff hb _).mpr (by omega)
    have hfree := hall _ (by omega) hgrows
    have hread := readableBytes_eq hb
    have hle := int32_natCast_le b.content.length
    have hint := int32_lt b.content.length
    have hlen := length_content hb
    obtain ⟨h1, h2, h3⟩ := hb
    unfold freeSpace writeAbleBytes at hfree
    omega
  · rintro ⟨hread, hlt⟩ len - hgrows
    rw [grows_iff hb] at hgrows
    rw [freeSpace_eq hb hlt]
    omega

/-! ## The vector never shrinks -/

theorem length_makeSpace {b : Buffer} (hb : b.Wf) (len : Int) : b.data.length ≤ (b.makeSpace len).data.length := by
  have hmove := length_move hb
  unfold makeSpace
  dsimp only
  split
  · exact hmove.ge
  · rw [List.length_append]
    exact Nat.le_add_right _ _

theorem length_ensureBuf {b : Buffer} (hb : b.Wf) (len : Int) : b.data.length ≤ (b.ensureBuf len).data.length := by
  unfold ensureBuf
  split <;> exact length_makeSpace hb _

/-- Taking `n` bytes out moves `readIndex` only. -/
theorem retrieveAsStringN_frame (b : Buffer) (n : Int) :
    ∃ i, (b.retrieveAsStringN n).elim b Prod.snd = { b with readIndex := i } := by
  cases hr : b.retrieveAsStringN n with
  | none => exact ⟨b.readIndex, rfl⟩
  | some r =>
    obtain ⟨nread, -, -, -, hb'⟩ := retrieveAsStringN_cases hr
    exact ⟨b.readIndex + nread, hb'⟩

theorem length_step {b b' : Buffer} {op : BufferOp} (hb : b.Wf) (h : machine.step b op = some b') :
    b.data.length ≤ b'.data.length := by
  cases op with
  | readToBuf read =>
    obtain ⟨⟨ret, b''⟩, hread, rfl⟩ := Option.map_eq_some_iff.mp h
    rw [length_readToBuf hb hread]
    exact length_ensureBuf hb _
  | appendInBuf str =>
    cases h
    rw [length_appendInBuf hb str]
    exact length_ensureBuf hb _
  | retrieveAsString =>
    cases h
    unfold retrieveAsString
    cases b.string b.readableBytes with
    | none => exact le_rfl
    | some str => exact le_rfl
  | retrieveAsStringN n =>
    cases h
    obtain ⟨i, hi⟩ := retrieveAsStringN_frame b n
    rw [hi]

theorem length_run {b b' : Buffer} {ops : List BufferOp} (hb : b.Wf) (h : machine.run b ops = some b') :
    b.data.length ≤ b'.data.length := by
  have hstep : ∀ b1 e b2, b1.Wf ∧ b.data.length ≤ b1.data.length → machine.step b1 e = some b2 →
      b2.Wf ∧ b.data.length ≤ b2.data.length := by
    intro b1 e b2 ⟨hb1, hle⟩ hop
    exact ⟨wf_step hb1 hop, hle.trans (length_step hb1 hop)⟩
  exact (machine.run_invariant hstep ops b b' ⟨hb, le_rfl⟩ h).2

/-! ## A consumer that drains the buffer before each read -/

/-- Where there is room for the sentry, a drained buffer is reset to its start before `::read`. -/
theorem offered_of_room {b : Buffer} (hb : b.Wf) (hdrained : b.readIndex = b.readEndIndex)
    (hroom : ksentry ≤ b.writeAbleBytes) :
    b.offered.prependIndex = b.prependIndex ∧ b.offered.readEndIndex = b.prependIndex ∧
      b.offered.data.length = b.data.length := by
  have hend := hb.end_le
  have hmove := length_move hb
  have hfits : (b.writeAbleBytes : Int) ≤ b.data.length - b.readEndIndex := by
    unfold writeAbleBytes
    omega
  unfold offered ensureBuf
  rw [if_neg (not_lt.mpr hroom), makeSpace, if_pos hfits]
  refine ⟨rfl, ?_, hmove⟩
  dsimp only
  omega

/-- Where there is none the vector grows, however much of it was consumed. -/
theorem length_offered_of_full {b : Buffer} (hb : b.Wf) (hfull : b.writeAbleBytes < ksentry) :
    b.data.length < b.offered.data.length := by
  unfold offered ensureBuf
  rw [if_pos hfull]
  exact (grows_iff hb ksentry).mpr hfull

/-- The vector has its first size and the readable bytes end `last` bytes behind its start. -/
structure InPlace (b : Buffer) (last : Nat) : Prop where
  prepend : b.prependIndex = kPrependSize
  readEnd : b.readEndIndex = kPrependSize + last
  length : b.data.length = kPrependSize + kInitSize

theorem inPlace_new : new.InPlace 0 := ⟨rfl, rfl, List.length_replicate⟩

theorem InPlace.room {b : Buffer} {last : Nat} (hs : b.InPlace last) : b.writeAbleBytes = kInitSize - last := by
  rw [writeAbleBytes, hs.readEnd, hs.length, Nat.add_sub_add_left]

theorem InPlace.offered {b : Buffer} {last : Nat} (hs : b.InPlace last) (hb : b.Wf)
    (hdrained : b.readIndex = b.readEndIndex) (hroom : ksentry ≤ b.writeAbleBytes) : b.offered.InPlace 0 := by
  obtain ⟨hprepend, hend, hlength⟩ := offered_of_room hb hdrained hroom
  exact ⟨hprepend.trans hs.prepend, hend.trans hs.prepend, hlength.trans hs.length⟩

theorem InPlace.readToBuf {b b' : Buffer} {last : Nat} {read : Option (List UInt8)} {ret : Int} (hs : b.InPlace last)
    (hb : b.Wf) (hdrained : b.readIndex = b.readEndIndex) (hroom : ksentry ≤ b.writeAbleBytes)
    (h : b.readToBuf read = some (ret, b')) : b'.InPlace (read.getD []).length := by
  have hoff := hs.offered hb hdrained hroom
  have hlen := (length_readToBuf hb h).trans hoff.length
  rcases readToBuf_cases h with ⟨rfl, -, rfl⟩ | ⟨chunk, rfl, rfl, hle, rfl⟩
  · exact hoff
  · rw [hoff.room] at hle
    have hint : int32 chunk.length = chunk.length := int32_natCast (by unfold kInitSize at hle; omega)
    refine ⟨hoff.prepend, ?_, hlen⟩
    rw [hint, hoff.readEnd]
    rfl

/-- Each read that another one follows leaves room for the sentry. -/
def Spare (ops : List BufferOp) : Prop := ∀ k ∈ (reads ops).dropLast, k + ksentry ≤ kInitSize

theorem reads_snoc (ops : List BufferOp) (op : BufferOp) : reads (ops ++ [op]) = reads ops ++ op.nread.toList := by
  cases op <;> simp [reads, BufferOp.nread]

/-- One more read: the one before has to leave room as well. -/
theorem spare_snoc_readToBuf (ops : List BufferOp) (read : Option (List UInt8)) :
    Spare (ops ++ [BufferOp.readToBuf read]) ↔ Spare ops ∧ (reads ops).getLast?.getD 0 + ksentry ≤ kInitSize := by
  unfold Spare
  rw [reads_snoc, BufferOp.nread, Option.toList_some, List.dropLast_concat]
  rcases List.eq_nil_or_concat (reads ops) with hnil | ⟨ks, k, hks⟩
  · simp [hnil, ksentry, kInitSize]
  · rw [hks, List.concat_eq_append, List.dropLast_concat, List.getLast?_concat, Option.getD_some,
      List.forall_mem_append, List.forall_mem_singleton]

/-- **Drained runs.** The vector is in place while every read leaves room, and has grown for good once one did not. -/
theorem drained_run : ∀ (ops : List BufferOp) (b : Buffer), machine.run new ops = some b →
    machine.Meets Drained new ops →
      (Spare ops → b.InPlace ((reads ops).getLast?.getD 0)) ∧ (¬ Spare ops → new.data.length < b.data.length) := by
  refine machine.run_induction ?_ ?_
  · intro _
    have hspare : Spare [] := by simp [Spare, reads]
    exact ⟨fun _ => inPlace_new, fun h => absurd hspare h⟩
  · intro es e b1 b2 hrun ih hstep hmeets
    obtain ⟨hes, hlast⟩ := machine.meets_append.mp hmeets
    obtain ⟨hplace, hgrown⟩ := ih hes
    have hb1 := wf_run hrun
    have hle := length_step hb1 hstep
    have hC : Drained b1 e := (hlast b1 hrun).1
    cases e with
    | readToBuf read =>
      obtain ⟨⟨ret, b''⟩, hread, hb2⟩ := Option.map_eq_some_iff.mp hstep
      obtain rfl : b'' = b2 := hb2
      rw [spare_snoc_readToBuf, reads_snoc, BufferOp.nread, Option.toList_some, List.getLast?_concat, Option.getD_some]
      constructor
      · rintro ⟨hspare, hroom⟩
        have hs := hplace hspare
        refine hs.readToBuf hb1 hC ?_ hread
        rw [hs.room]
        omega
      · intro hnot
        by_cases hspare : Spare es
        · have hs := hplace hspare
          have hfull : b1.writeAbleBytes < ksentry := by
            have hshort : ¬ (((reads es).getLast?.getD 0 : Nat) : Int) + ksentry ≤ kInitSize :=
              fun hroom => hnot ⟨hspare, hroom⟩
            rw [hs.room]
            unfold ksentry at hshort ⊢
            omega
          have hnew : new.data.length = b1.data.length := inPlace_new.length.trans hs.length.symm
          rw [hnew, length_readToBuf hb1 hread]
          exact length_offered_of_full hb1 hfull
        · exact (hgrown hspare).trans_le hle
    | retrieveAsStringN n =>
      obtain ⟨i, hi⟩ := retrieveAsStringN_frame b1 n
      have heq : b2 = { b1 with readIndex := i } := (Option.some.inj hstep).symm.trans hi
      have hreads : reads (es ++ [BufferOp.retrieveAsStringN n]) = reads es := by
        rw [reads_snoc]
        exact List.append_nil _
      unfold Spare
      rw [hreads, heq]
      exact ⟨fun hspare => ⟨(hplace hspare).prepend, (hplace hspare).readEnd, (hplace hspare).length⟩, hgrown⟩
    | appendInBuf | retrieveAsString => exact hC.elim

/-! ## Over any run -/

/-- **Space is reclaimed** by a call of `makeSpace` exactly when the request fits behind the readable bytes or exceeds
the free space, so by every call exactly where nothing has been consumed; and a drained run never exceeds the first size
exactly when each read that another one follows delivers at most `kInitSize - ksentry` bytes. -/
theorem space_reclaimed_iff (ops : List BufferOp) (b : Buffer) (h : machine.run new ops = some b) :
    (∀ len, (b.Grows len → b.freeSpace < len) ↔ len ≤ b.writeAbleBytes ∨ b.freeSpace < len) ∧
      ((∀ len, 0 ≤ len → b.Grows len → b.freeSpace < len) ↔
        b.readIndex = b.prependIndex ∧ b.content.length < 2 ^ 31) ∧
      (machine.Meets Drained new ops →
        ((∀ fs b', fs <+: ops → machine.run new fs = some b' → b'.data.length ≤ new.data.length) ↔ Spare ops)) := by
  have hb := wf_run h
  refine ⟨grows_late_iff hb, reclaims_iff hb, ?_⟩
  intro hdrained
  obtain ⟨hplace, hgrown⟩ := drained_run ops b h hdrained
  constructor
  · intro hall
    by_contra hspare
    exact absurd (hgrown hspare) (not_lt.mpr (hall ops b (List.prefix_refl ops) h))
  · rintro hspare fs b' ⟨gs, rfl⟩ hfs
    obtain ⟨b1, hb1, hgs⟩ := machine.run_append_some h
    obtain rfl : b' = b1 := Option.some.inj (hfs.symm.trans hb1)
    have hlast := (hplace hspare).length
    have hle := length_run (wf_run hfs) hgs
    rw [hlast] at hle
    rw [inPlace_new.length]
    exact hle

/-- The first read, taken out in whole. -/
theorem run_first_read {chunk : List UInt8} (hfits : chunk.length ≤ kInitSize) :
    ∃ b, machine.run new [.readToBuf (some chunk), .retrieveAsStringN chunk.length] = some b ∧
      b.InPlace chunk.length ∧ b.readIndex = b.readEndIndex := by
  have hroom : ksentry ≤ new.writeAbleBytes := by
    rw [inPlace_new.room]
    decide
  have hoff := inPlace_new.offered wf_new rfl hroom
  have hle : chunk.length ≤ new.offered.writeAbleBytes := by
    rw [hoff.room]
    exact hfits
  obtain ⟨ret, b, hread⟩ := readToBuf_enabled_of_le hle
  have hb := wf_readToBuf wf_new hread
  have hs := inPlace_new.readToBuf wf_new rfl hroom hread
  have hlt : chunk.length < 2 ^ 31 := hfits.trans_lt (by decide)
  have hcontent := content_readToBuf_drained wf_new content_new hlt hread
  have htake := retrieveAsStringN_natCast hb (hcontent ▸ hlt) chunk.length
  rw [hcontent, Nat.min_self] at htake
  refine ⟨b.retrievePart chunk.length, ?_, ⟨hs.prepend, hs.readEnd, hs.length⟩, ?_⟩
  · rw [machine.run_cons, show machine.step new (.readToBuf (some chunk)) = some b by simp [machine, step, hread],
      Option.bind_some, machine.run_singleton]
    simp [machine, step, htake]
  · have hlen := length_content hb
    have hread_le := hb.read_le
    rw [hcontent] at hlen
    simp only [retrievePart]
    omega

/-- A read of 7173 bytes, taken out in whole: 1023 bytes are left behind `readEndIndex` and 7173 in front of it, and the
next read enlarges the vector for 1024. -/
theorem space_not_reclaimed :
    ∃ b b', machine.run new [.readToBuf (some (List.replicate 7173 0)), .retrieveAsStringN 7173] = some b ∧
      b.content = [] ∧ b.Grows 1024 ∧ 1024 ≤ b.freeSpace ∧
      machine.step b (.readToBuf none) = some b' ∧ new.data.length < b'.data.length := by
  have hlen : (List.replicate 7173 (0 : UInt8)).length = 7173 := List.length_replicate
  obtain ⟨b, hrun, hs, hdrained⟩ := run_first_read (hlen.trans_le (by decide))
  rw [hlen] at hrun hs
  have hb := wf_run hrun
  have hcontent := content_eq_nil hdrained
  have hroom : b.writeAbleBytes = 1023 := by
    rw [hs.room]
    rfl
  refine ⟨b, b.offered, hrun, hcontent, ?_, ?_, rfl, ?_⟩
  · rw [grows_iff hb, hroom]
    decide
  · have hread := hdrained.trans hs.readEnd
    rw [freeSpace_eq hb (by rw [hcontent]; decide), hroom, hread, hs.prepend]
    decide
  · rw [inPlace_new.length, ← hs.length]
    refine length_offered_of_full hb ?_
    rw [hroom]
    decide

/-- Where the first read leaves room, the second finds the vector as it was. -/
theorem space_reclaimed_twoReads :
    ∃ b, machine.run new [.readToBuf (some [97]), .retrieveAsStringN 1, .readToBuf none] = some b ∧
      b.data.length ≤ new.data.length := by
  have hfits : ([97] : List UInt8).length ≤ kInitSize := by decide
  obtain ⟨b, hrun, -, hdrained⟩ := run_first_read hfits
  have hsecond : machine.run new [.readToBuf (some [97]), .retrieveAsStringN 1, .readToBuf none] = some b.offered :=
    (machine.run_snoc [.readToBuf (some [97]), .retrieveAsStringN 1] (.readToBuf none) new).trans
      (Option.bind_eq_some_iff.mpr ⟨b, hrun, rfl⟩)
  have hmeets : machine.Meets Drained new [.readToBuf (some [97]), .retrieveAsStringN 1, .readToBuf none] := by
    show machine.Meets Drained new ([BufferOp.readToBuf (some [97]), BufferOp.retrieveAsStringN 1] ++
      [BufferOp.readToBuf none])
    refine machine.meets_append.mpr ⟨⟨rfl, fun _ _ => ⟨trivial, fun _ _ => trivial⟩⟩, ?_⟩
    intro b1 hb1
    obtain rfl : b = b1 := Option.some.inj (hrun.symm.trans hb1)
    exact ⟨hdrained, fun _ _ => trivial⟩
  have hspare : Spare [.readToBuf (some [97]), .retrieveAsStringN 1, .readToBuf none] := by
    unfold Spare
    decide
  exact ⟨b.offered, hsecond,
    ((space_reclaimed_iff _ _ hsecond).2.2 hmeets).mpr hspare _ _ (List.prefix_refl _) hsecond⟩

end Buffer

end NetImitate
