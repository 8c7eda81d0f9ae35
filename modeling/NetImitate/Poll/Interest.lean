import NetImitate.Library.Machine
import NetImitate.Poll

/-!
# The interest list and the channels' own masks

* `Channels` : channels at their own addresses, on descriptors of their own;
* `Interest`, `machine` : the channels and the poller, under the mutators of a channel and `RemoveChannel`;
* `Own` : what every operation keeps; `Follows` : the interest list holds the registered channels with their `event`;
* `follows_update`, `follows_disableWriting_iff`, `follows_removeChannel` : one lemma an operation;
* `follows_iff` : the interest list follows throughout exactly when `DisableWriting` finds nothing to disable on a
  registered channel.
-/

namespace NetImitate

/-- Channels at their addresses, with distinct descriptors. -/
structure Channels (Ptr : Type*) where
  chan : Ptr → Channel Ptr
  self : ∀ ptr, (chan ptr).self = ptr
  index : ∀ ptr, (chan ptr).index = (chan ptr).socketFd
  distinct : Function.Injective fun ptr => (chan ptr).socketFd

/-- The channels and the poller they are registered with. -/
structure Interest (Ptr : Type*) where
  chans : Channels Ptr
  poll : Poll Ptr

inductive InterestOp (Ptr : Type*) where
  | enableReading (ptr : Ptr)
  | enableWriting (ptr : Ptr)
  | disableWriting (ptr : Ptr)
  | disableAll (ptr : Ptr)
  | removeChannel (ptr : Ptr)

namespace Channels
variable {Ptr : Type*} [DecidableEq Ptr]

/-- The channel at `ptr` with another `event`. -/
def setEvent (cs : Channels Ptr) (ptr : Ptr) (event : Events) : Channels Ptr where
  chan := Function.update cs.chan ptr { cs.chan ptr with event := event }
  self := by
    intro ptr'
    by_cases h : ptr' = ptr
    · rw [h, Function.update_self]
      exact cs.self ptr
    · rw [Function.update_of_ne h]
      exact cs.self ptr'
  index := by
    intro ptr'
    by_cases h : ptr' = ptr
    · rw [h, Function.update_self]
      exact cs.index ptr
    · rw [Function.update_of_ne h]
      exact cs.index ptr'
  distinct := by
    have hfd : (fun ptr' => (Function.update cs.chan ptr { cs.chan ptr with event := event } ptr').socketFd) =
        fun ptr' => (cs.chan ptr').socketFd := by
      funext ptr'
      by_cases h : ptr' = ptr
      · rw [h, Function.update_self]
      · rw [Function.update_of_ne h]
    rw [hfd]
    exact cs.distinct

@[simp] theorem chan_setEvent_self (cs : Channels Ptr) (ptr : Ptr) (event : Events) :
    (cs.setEvent ptr event).chan ptr = { cs.chan ptr with event := event } := Function.update_self _ _ _

theorem chan_setEvent_of_ne (cs : Channels Ptr) {ptr ptr' : Ptr} (h : ptr' ≠ ptr) (event : Events) :
    (cs.setEvent ptr event).chan ptr' = cs.chan ptr' := Function.update_of_ne h _ _

@[simp] theorem socketFd_setEvent (cs : Channels Ptr) (ptr : Ptr) (event : Events) (ptr' : Ptr) :
    ((cs.setEvent ptr event).chan ptr').socketFd = (cs.chan ptr').socketFd := by
  by_cases h : ptr' = ptr
  · rw [h, chan_setEvent_self]
  · rw [chan_setEvent_of_ne cs h]

end Channels

namespace Interest
variable {Ptr : Type*} [DecidableEq Ptr]

/-- No channel is registered yet. -/
def start (cs : Channels Ptr) : Interest Ptr := ⟨cs, Poll.empty⟩

/-- A mutator's channel and poller written back. -/
def store (s : Interest Ptr) (ptr : Ptr) (r : Channel Ptr × Poll Ptr) : Interest Ptr :=
  ⟨s.chans.setEvent ptr r.1.event, r.2⟩

def step (s : Interest Ptr) : InterestOp Ptr → Option (Interest Ptr)
  | .enableReading ptr => some (s.store ptr ((s.chans.chan ptr).enableReading s.poll))
  | .enableWriting ptr => some (s.store ptr ((s.chans.chan ptr).enableWriting s.poll))
  | .disableWriting ptr => some (s.store ptr ((s.chans.chan ptr).disableWriting, s.poll))
  | .disableAll ptr => some (s.store ptr ((s.chans.chan ptr).disableAll s.poll))
  | .removeChannel ptr => some { s with poll := s.poll.removeChannel (s.chans.chan ptr) }

def machine : Machine (Interest Ptr) (InterestOp Ptr) := ⟨step⟩

/-- The descriptor a channel stands under. -/
def fdOf (s : Interest Ptr) (ptr : Ptr) : Option Nat := some (s.chans.chan ptr).socketFd

def Own (s : Interest Ptr) : Prop := s.poll.Wired s.fdOf

/-- The interest list holds the registered channels, each with its current `event`, and nothing else. -/
def Follows (s : Interest Ptr) : Prop :=
  ∀ fd, s.poll.epfd.lookup fd = (s.poll.channelMap.lookup fd).map fun ptr => ⟨ptr, (s.chans.chan ptr).event⟩

def Registered (s : Interest Ptr) (ptr : Ptr) : Prop := s.poll.channelMap.lookup (s.chans.chan ptr).index = some ptr

/-- `DisableWriting` on a registered channel finds `WriteEvent` clear already. -/
def NothingToDisable (s : Interest Ptr) : InterestOp Ptr → Prop
  | .disableWriting ptr => s.Registered ptr → (s.chans.chan ptr).isWriting = false
  | _ => True

variable {s : Interest Ptr}

omit [DecidableEq Ptr] in
theorem own_start (cs : Channels Ptr) : (start cs).Own where
  inStep := Poll.inStep_empty
  owner := fun _ _ h => by cases h
  inj := fun _ _ _ h h' => cs.distinct (Option.some.inj (h.trans h'.symm))

omit [DecidableEq Ptr] in
theorem follows_start (cs : Channels Ptr) : (start cs).Follows := fun _ => rfl

/-! ## One lemma an operation -/

theorem fdOf_store (s : Interest Ptr) (ptr : Ptr) (r : Channel Ptr × Poll Ptr) : (s.store ptr r).fdOf = s.fdOf := by
  funext ptr'
  exact congrArg some (s.chans.socketFd_setEvent ptr _ ptr')

/-- A mutator that calls `update`. -/
theorem own_update (hs : s.Own) (ptr : Ptr) (event : Events) :
    (s.store ptr ({ s.chans.chan ptr with event := event },
      ({ s.chans.chan ptr with event := event } : Channel Ptr).update s.poll)).Own := by
  have hself : s.fdOf (s.chans.chan ptr).self = some (s.chans.chan ptr).socketFd := by rw [s.chans.self, fdOf]
  rw [Own, fdOf_store]
  exact Poll.Wired.registEvennt hs (s.chans.index ptr) hself

omit [DecidableEq Ptr] in
/-- A registered channel stands under its own descriptor. -/
theorem ne_of_lookup (hs : s.Own) {fd : Nat} {ptr ptr' : Ptr} (hlookup : s.poll.channelMap.lookup fd = some ptr')
    (hne : fd ≠ (s.chans.chan ptr).socketFd) : ptr' ≠ ptr := by
  intro heq
  have howner := hs.owner fd ptr' hlookup
  rw [heq, fdOf, Option.some.injEq] at howner
  exact hne howner.symm

/-- The entries of the other descriptors are not affected by an `event` that changes. -/
theorem follows_other (hs : s.Own) (hf : s.Follows) {ptr : Ptr} {event : Events} {fd : Nat}
    (hne : fd ≠ (s.chans.chan ptr).socketFd) : s.poll.epfd.lookup fd =
      (s.poll.channelMap.lookup fd).map fun ptr' => ⟨ptr', ((s.chans.setEvent ptr event).chan ptr').event⟩ := by
  rw [hf fd]
  cases hlookup : s.poll.channelMap.lookup fd with
  | none => rfl
  | some ptr' => rw [Option.map_some, Option.map_some, s.chans.chan_setEvent_of_ne (ne_of_lookup hs hlookup hne)]

/-- `update` hands the current `event` to the interest list. -/
theorem follows_update (hs : s.Own) (hf : s.Follows) (ptr : Ptr) (event : Events) :
    (s.store ptr ({ s.chans.chan ptr with event := event },
      ({ s.chans.chan ptr with event := event } : Channel Ptr).update s.poll)).Follows := by
  set ch : Channel Ptr := { s.chans.chan ptr with event := event } with hch
  have hindex : ch.index = ch.socketFd := s.chans.index ptr
  have hself : s.fdOf ch.self = some ch.socketFd := congrArg s.fdOf (s.chans.self ptr)
  intro fd
  simp only [store, Channel.update]
  rw [Poll.epfd_registEvennt hs.inStep hindex, hs.lookup_registEvennt hindex hself]
  split
  · have hptr : ch.self = ptr := s.chans.self ptr
    rw [Option.map_some, hptr, Channels.chan_setEvent_self]
  · rename_i hne
    exact follows_other hs hf hne

/-- `DisableWriting` leaves the interest list alone, so that it must have been clear of writing. -/
theorem follows_disableWriting_iff (hs : s.Own) (hf : s.Follows) (ptr : Ptr) :
    (s.store ptr ((s.chans.chan ptr).disableWriting, s.poll)).Follows ↔
      (s.Registered ptr → (s.chans.chan ptr).isWriting = false) := by
  have hfollow : (s.store ptr ((s.chans.chan ptr).disableWriting, s.poll)).Follows ↔
      ∀ fd, s.poll.epfd.lookup fd = (s.poll.channelMap.lookup fd).map fun ptr' =>
        ⟨ptr', ((s.chans.setEvent ptr (s.chans.chan ptr).disableWriting.event).chan ptr').event⟩ := Iff.rfl
  rw [hfollow]
  constructor
  · intro h hreg
    have hbefore := hf (s.chans.chan ptr).index
    have hafter := h (s.chans.chan ptr).index
    rw [hreg] at hbefore hafter
    rw [hbefore, Option.map_some, Option.map_some, Option.some.injEq, PollEvent.mk.injEq,
      Channels.chan_setEvent_self] at hafter
    exact (and_not_eq_self _ _).mp hafter.2.symm
  · intro h fd
    by_cases hfd : fd = (s.chans.chan ptr).socketFd
    · rw [hf fd]
      cases hlookup : s.poll.channelMap.lookup fd with
      | none => rfl
      | some ptr' =>
        have heq : ptr' = ptr := hs.eq_of_lookup rfl (hfd ▸ hlookup)
        have hreg : s.Registered ptr := by
          rw [Registered, s.chans.index, ← hfd, hlookup, heq]
        have hclear : (s.chans.chan ptr).disableWriting.event = (s.chans.chan ptr).event :=
          (and_not_eq_self _ _).mpr (h hreg)
        rw [Option.map_some, Option.map_some, heq, Channels.chan_setEvent_self, hclear]
    · exact follows_other hs hf hfd

omit [DecidableEq Ptr] in
theorem follows_removeChannel (hf : s.Follows) (ptr : Ptr) :
    Follows { s with poll := s.poll.removeChannel (s.chans.chan ptr) } := by
  intro fd
  simp only
  rw [Poll.epfd_removeChannel, Poll.channelMap_removeChannel, s.chans.index]
  split
  · rfl
  · exact hf fd

/-! ## Steps and runs -/

/-- The operation kept the wiring; it kept the masks in step exactly when it disabled nothing that is registered. -/
theorem step_own {s' : Interest Ptr} {op : InterestOp Ptr} (hs : s.Own) (h : machine.step s op = some s') : s'.Own := by
  cases op with
  | enableReading ptr =>
    cases h
    exact own_update hs ptr _
  | enableWriting ptr =>
    cases h
    exact own_update hs ptr _
  | disableWriting ptr =>
    cases h
    rw [Own, fdOf_store]
    exact hs
  | disableAll ptr =>
    cases h
    exact own_update hs ptr _
  | removeChannel ptr =>
    cases h
    exact Poll.Wired.removeChannel hs (s.chans.index ptr)

theorem step_follows_iff {s' : Interest Ptr} {op : InterestOp Ptr} (hs : s.Own) (hf : s.Follows)
    (h : machine.step s op = some s') : s'.Follows ↔ s.NothingToDisable op := by
  cases op with
  | enableReading ptr =>
    cases h
    exact iff_of_true (follows_update hs hf ptr _) trivial
  | enableWriting ptr =>
    cases h
    exact iff_of_true (follows_update hs hf ptr _) trivial
  | disableWriting ptr =>
    cases h
    exact follows_disableWriting_iff hs hf ptr
  | disableAll ptr =>
    cases h
    exact iff_of_true (follows_update hs hf ptr _) trivial
  | removeChannel ptr =>
    cases h
    exact iff_of_true (follows_removeChannel hf ptr) trivial

theorem run_enabled (ops : List (InterestOp Ptr)) (s : Interest Ptr) : ∃ s', machine.run s ops = some s' := by
  induction ops generalizing s with
  | nil => exact ⟨s, rfl⟩
  | cons op ops ih =>
    have hstep : ∃ s1, machine.step s op = some s1 := by
      cases op <;> exact ⟨_, rfl⟩
    obtain ⟨s1, h1⟩ := hstep
    obtain ⟨s', h'⟩ := ih s1
    exact ⟨s', by rw [Machine.run_cons, h1]; exact h'⟩

/-- **The interest list follows the channels** after every operation of a sequence exactly when no `DisableWriting` of
the sequence finds a registered channel with `WriteEvent` set. -/
theorem follows_iff (cs : Channels Ptr) (ops : List (InterestOp Ptr)) :
    machine.Throughout Follows (start cs) ops ↔ machine.Meets NothingToDisable (start cs) ops := by
  obtain ⟨s', h⟩ := run_enabled ops (start cs)
  exact machine.throughout_iff_meets (fun _ _ _ hs h => step_own hs h) (fun _ _ _ hs hf h => step_follows_iff hs hf h)
    ops (start cs) s' (own_start cs) (follows_start cs) h

/-- Channels made for the descriptors `0`, `1`, ... -/
def plain : Channels Nat where
  chan := fun fd => Channel.new fd fd 0
  self := fun _ => rfl
  index := fun _ => rfl
  distinct := fun _ _ h => h

/-- The drained connection: writing is disabled in the channel, and epoll goes on reporting it. -/
theorem follows_not_drained :
    ∃ s, machine.run (start plain) [.enableReading 5, .enableWriting 5, .disableWriting 5] = some s ∧ ¬ s.Follows ∧
      (s.poll.epfd.lookup 5).map PollEvent.events = some (readEvent ||| closeEvent ||| writeEvent) ∧
      (s.chans.chan 5).isWriting = false := by
  have hrun : (machine.run (start plain) [.enableReading 5, .enableWriting 5, .disableWriting 5]).map (fun s =>
      (s.poll.channelMap.lookup 5, (s.poll.epfd.lookup 5).map PollEvent.events, (s.chans.chan 5).event)) =
      some (some 5, some (readEvent ||| closeEvent ||| writeEvent), readEvent ||| closeEvent) := by decide +kernel
  obtain ⟨s, hs, heq⟩ := Option.map_eq_some_iff.mp hrun
  simp only [Prod.mk.injEq] at heq
  obtain ⟨hmap, hepfd, hevent⟩ := heq
  refine ⟨s, hs, ?_, hepfd, ?_⟩
  · intro hf
    rw [hf 5, hmap, Option.map_some, Option.map_some, hevent] at hepfd
    exact absurd hepfd (by decide)
  · rw [Channel.isWriting, hevent]
    decide

end Interest

end NetImitate
