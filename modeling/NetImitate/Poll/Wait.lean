import NetImitate.Poll

/-!
# One round of `poll`

* `EpollWait` : what `epoll_wait` returns and which cells of `eventArray` it writes;
* `fillEventArray`, `poll` : the loop over the cells, which stops at the returned number;
* `Served` : the round reads the written cells only and reports their channels in order;
* `fillEventArray_reported`, `fillEventArray_unwritten` : the loop over written cells, and where it leaves them;
* `poll_served_iff` : the round is right exactly when `epoll_wait` is not interrupted.
-/

namespace NetImitate

/-- The result of `epoll_wait`: events were written from the first cell on, or a signal interrupted it. -/
inductive EpollWait (Ptr : Type*) where
  | reported (events : List (PollEvent Ptr))
  | interrupted

namespace EpollWait
variable {Ptr : Type*}

def events : EpollWait Ptr → List (PollEvent Ptr)
  | .reported events => events
  | .interrupted => []

def ret : EpollWait Ptr → Int
  | .reported events => events.length
  | .interrupted => -1

/-- What may be returned for `maxevents` and no timeout. -/
def Allowed (maxevents : Nat) : EpollWait Ptr → Prop
  | .reported events => 1 ≤ events.length ∧ events.length ≤ maxevents
  | .interrupted => True

/-- `eventArray` afterwards, with `none` in the cells of `new PollEvent[allocSize]` that nobody wrote. -/
def cells (w : EpollWait Ptr) (allocSize : Nat) : List (Option (PollEvent Ptr)) :=
  w.events.map some ++ List.replicate (allocSize - w.events.length) none

end EpollWait

/-- How the loop of `FillEventArray` goes: it ends, or it reads a cell that nobody wrote. -/
inductive Fill (Ptr : Type*) where
  /-- The indices read, and the channels appended with the mask `SetEvent` gave them. -/
  | done (reads : List Nat) (channelList : List (Ptr × Events))
  | unwritten (reads : List Nat)

namespace Poll
variable {Ptr : Type*}

/-- The loop of `FillEventArray`, which has come to the cell of index `i`. -/
def fillFrom (size : Int) : Nat → List (Option (PollEvent Ptr)) → List Nat → List (Ptr × Events) → Fill Ptr
  | i, [], reads, channelList =>
    if (i : Int) ≠ size then .unwritten (reads ++ [i]) else .done reads channelList
  | i, cell :: cells, reads, channelList =>
    if (i : Int) ≠ size then
      match cell with
      | none => .unwritten (reads ++ [i])
      | some pollEvent => fillFrom size (i + 1) cells (reads ++ [i]) (channelList ++ [(pollEvent.ptr, pollEvent.events)])
    else .done reads channelList

def fillEventArray (eventArray : List (Option (PollEvent Ptr))) (size : Int) : Fill Ptr :=
  fillFrom size 0 eventArray [] []

/-- `poll` into the list that `polling` has cleared; `none` when its assertion fails. -/
def poll (p : Poll Ptr) (w : EpollWait Ptr) : Option (Fill Ptr) :=
  let allocSize := p.channelMap.entries.length
  if allocSize > 0 then some (fillEventArray (w.cells allocSize) w.ret) else none

/-- The round ended, having read only cells that were written; the list is that of the reported channels, in order, each
with its mask. -/
def Served (w : EpollWait Ptr) (r : Option (Fill Ptr)) : Prop :=
  ∃ reads channelList, r = some (.done reads channelList) ∧ (∀ i ∈ reads, (i : Int) < max w.ret 0) ∧
    channelList = w.events.map fun e => (e.ptr, e.events)

/-! ## The loop -/

/-- Where `size` is the number of written cells, the loop reads each of them once. -/
theorem fillFrom_written (events : List (PollEvent Ptr)) (rest : List (Option (PollEvent Ptr))) (i : Nat)
    (reads : List Nat) (channelList : List (Ptr × Events)) :
    fillFrom (i + events.length : Nat) i (events.map some ++ rest) reads channelList =
      .done (reads ++ List.range' i events.length) (channelList ++ events.map fun e => (e.ptr, e.events)) := by
  induction events generalizing i reads channelList with
  | nil => cases rest <;> simp [fillFrom]
  | cons e events ih =>
    have hnext : ((i + (e :: events).length : Nat) : Int) = ((i + 1 + events.length : Nat) : Int) := by
      rw [List.length_cons]
      omega
    have hgo : (i : Int) ≠ ((i + 1 + events.length : Nat) : Int) := by omega
    rw [List.map_cons, List.cons_append, hnext, fillFrom, if_pos hgo, ih (i + 1)]
    simp only [List.append_assoc, List.singleton_append, List.length_cons, List.range'_succ, List.map_cons]

theorem fillEventArray_reported {w : EpollWait Ptr} (hret : w.ret = w.events.length) (allocSize : Nat) :
    fillEventArray (w.cells allocSize) w.ret =
      .done (List.range' 0 w.events.length) (w.events.map fun e => (e.ptr, e.events)) := by
  have hfill := fillFrom_written w.events (List.replicate (allocSize - w.events.length) none) 0 [] []
  rw [Nat.zero_add] at hfill
  rw [fillEventArray, hret]
  exact hfill

/-- The loop starts at 0 and looks for `-1`: it reads the first cell, which nobody wrote. -/
theorem fillEventArray_interrupted {w : EpollWait Ptr} (hw : w = .interrupted) {allocSize : Nat}
    (hpos : 0 < allocSize) : fillEventArray (w.cells allocSize) w.ret = .unwritten [0] := by
  subst hw
  obtain ⟨k, rfl⟩ := Nat.exists_eq_add_one.mpr hpos
  rfl

/-! ## The round -/

theorem poll_eq {p : Poll Ptr} (hpos : 0 < p.channelMap.entries.length) (w : EpollWait Ptr) :
    p.poll w = some (fillEventArray (w.cells p.channelMap.entries.length) w.ret) := if_pos hpos

/-- **One poll round**: over any registered channels, the round ends, reads written cells only and reports their channels
in order exactly when `epoll_wait` does not return `-1`. -/
theorem poll_served_iff (p : Poll Ptr) (w : EpollWait Ptr) (hpos : 0 < p.channelMap.entries.length)
    (hw : w.Allowed p.channelMap.entries.length) : Served w (p.poll w) ↔ w.ret ≠ -1 := by
  rw [poll_eq hpos]
  cases w with
  | reported events =>
    have hret : (EpollWait.reported events).ret = (EpollWait.reported events).events.length := rfl
    refine iff_of_true ⟨_, _, congrArg some (fillEventArray_reported hret _), ?_, rfl⟩ ?_
    · intro i hi
      rw [List.mem_range'_1] at hi
      rw [hret]
      omega
    · obtain ⟨hone, -⟩ := hw
      rw [hret]
      omega
  | interrupted =>
    refine iff_of_false ?_ (fun h => h rfl)
    rintro ⟨reads, channelList, hdone, -⟩
    rw [fillEventArray_interrupted rfl hpos] at hdone
    cases hdone

/-- One channel, registered under descriptor 5. -/
def single : Poll Nat := ((Channel.new 5 5 0).enableReading empty).2

/-- A signal arrives while the only channel is quiet. -/
theorem poll_not_served : ¬ Served .interrupted (single.poll .interrupted) := by
  rintro ⟨reads, channelList, hdone, -⟩
  rw [poll_eq (by decide), fillEventArray_interrupted rfl (by decide)] at hdone
  cases hdone

/-- Three channels. -/
def three : Poll Nat :=
  let p := ((Channel.new 5 5 0).enableReading empty).2
  let p := ((Channel.new 6 6 0).enableReading p).2
  ((Channel.new 7 7 0).enableReading p).2

/-- Two of the three channels are reported: the loop stops before the third cell. -/
theorem poll_served_twoOfThree :
    Served (.reported [⟨7, readEvent⟩, ⟨5, readEvent ||| closeEvent⟩])
      (three.poll (.reported [⟨7, readEvent⟩, ⟨5, readEvent ||| closeEvent⟩])) :=
  (poll_served_iff three (.reported [⟨7, readEvent⟩, ⟨5, readEvent ||| closeEvent⟩]) (by decide)
    ⟨by decide, by decide⟩).mpr (by decide)

end Poll

end NetImitate
