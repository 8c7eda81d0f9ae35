import Mathlib.Data.List.AList
import Mathlib.Tactic

/-!
# `Channel` and `Poll`: the registry of descriptors and the kernel's interest list

* `Channel` : the functions of `channel.hpp` and `channel.cc`; a channel's address is an element of `Ptr`;
* `Epoll` : the interest list behind `epfd`, with `EPOLL_CTL_ADD`, `MOD` and `DEL` as `epoll_ctl` documents them;
* `Poll` : `channelMap` with that interest list, `registEvennt` and `removeChannel`;
* `InStep` : the registry and the interest list name the same channel for every descriptor, kept by every operation.
-/

namespace NetImitate

/-! ## Event masks -/

/-- An `epoll` event mask. -/
abbrev Events := BitVec 32

/-- `EPOLLIN`. -/
def readEvent : Events := 0x1#32

/-- `EPOLLOUT`. -/
def writeEvent : Events := 0x4#32

/-- `EPOLLRDHUP`. -/
def closeEvent : Events := 0x2000#32

def noneEvent : Events := 0x0#32

/-- The test `mask & event` of the sources. -/
def has (mask event : Events) : Bool := mask &&& event != 0

theorem has_or (mask : Events) {event : Events} (h : event ≠ 0) : has (mask ||| event) event = true := by
  have hand : (mask ||| event) &&& event = event := by
    ext i hi
    simp only [BitVec.getElem_and, BitVec.getElem_or]
    cases mask[i] <;> cases event[i] <;> rfl
  rw [has, hand]
  exact bne_iff_ne.mpr h

theorem has_and_not (mask event : Events) : has (mask &&& ~~~event) event = false := by
  have hand : mask &&& ~~~event &&& event = 0 := by
    ext i hi
    simp only [BitVec.getElem_and, BitVec.getElem_not, BitVec.getElem_zero, BitVec.ofNat_eq_ofNat]
    cases mask[i] <;> cases event[i] <;> rfl
  simp [has, hand]

/-- Clearing an event changes no mask that is clear of it. -/
theorem and_not_eq_self (mask event : Events) : mask &&& ~~~event = mask ↔ has mask event = false := by
  constructor
  · intro h
    have hclear := has_and_not mask event
    rwa [h] at hclear
  · intro h
    have hand : mask &&& event = 0 := by simpa [has] using h
    ext i hi
    have hbit : (mask &&& event)[i] = false := by simp only [hand, BitVec.ofNat_eq_ofNat, BitVec.getElem_zero]
    simp only [BitVec.getElem_and, BitVec.getElem_not] at hbit ⊢
    cases hmask : mask[i]
    · rfl
    · rw [hmask, Bool.true_and] at hbit
      rw [hbit]
      rfl

/-! ## Channels -/

/-- A channel; `self` is its address, what `shared_from_this` and `data.ptr` hold. -/
structure Channel (Ptr : Type*) where
  self : Ptr
  socketFd : Nat
  index : Nat
  revent : Events
  event : Events

/-- What `epoll` keeps for a descriptor. -/
structure PollEvent (Ptr : Type*) where
  ptr : Ptr
  events : Events

/-- The interest list behind an epoll descriptor. -/
abbrev Epoll (Ptr : Type*) := AList fun _ : Nat => PollEvent Ptr

namespace Epoll
variable {Ptr : Type*}

/-- `EPOLL_CTL_ADD` fails on a registered descriptor. -/
def ctlAdd (ep : Epoll Ptr) (fd : Nat) (e : PollEvent Ptr) : Epoll Ptr := if fd ∈ ep then ep else ep.insert fd e

/-- `EPOLL_CTL_MOD` fails on an unregistered descriptor. -/
def ctlMod (ep : Epoll Ptr) (fd : Nat) (e : PollEvent Ptr) : Epoll Ptr := if fd ∈ ep then ep.insert fd e else ep

/-- `EPOLL_CTL_DEL`; closing the last descriptor of a socket has the same effect. -/
def ctlDel (ep : Epoll Ptr) (fd : Nat) : Epoll Ptr := ep.erase fd

end Epoll

/-- `channelMap` and the interest list of `epfd`. -/
structure Poll (Ptr : Type*) where
  channelMap : AList fun _ : Nat => Ptr
  epfd : Epoll Ptr

namespace Poll
variable {Ptr : Type*}

def empty : Poll Ptr := ⟨∅, ∅⟩

def registEvennt (p : Poll Ptr) (channel : Channel Ptr) : Poll Ptr :=
  let pollEvent : PollEvent Ptr := ⟨channel.self, channel.event⟩
  match p.channelMap.lookup channel.index with
  | none =>
    { channelMap := p.channelMap.insert channel.index channel.self
      epfd := Epoll.ctlAdd p.epfd channel.socketFd pollEvent }
  | some _ => { p with epfd := Epoll.ctlMod p.epfd channel.socketFd pollEvent }

def removeChannel (p : Poll Ptr) (channel : Channel Ptr) : Poll Ptr where
  channelMap := p.channelMap.erase channel.index
  epfd := Epoll.ctlDel p.epfd channel.socketFd

end Poll

namespace Channel
variable {Ptr : Type*}

/-- The constructor sets no `event`: the field holds whatever `event` was there. -/
def new (self : Ptr) (fd : Nat) (event : Events) : Channel Ptr where
  self := self
  socketFd := fd
  index := fd
  revent := 0
  event := event

/-- `update` of a channel whose loop is alive. -/
def update (ch : Channel Ptr) (p : Poll Ptr) : Poll Ptr := p.registEvennt ch

def enableReading (ch : Channel Ptr) (p : Poll Ptr) : Channel Ptr × Poll Ptr :=
  let ch := { ch with event := readEvent ||| closeEvent }
  (ch, ch.update p)

def enableWriting (ch : Channel Ptr) (p : Poll Ptr) : Channel Ptr × Poll Ptr :=
  let ch := { ch with event := ch.event ||| writeEvent }
  (ch, ch.update p)

/-- `DisableWriting` does not call `update`. -/
def disableWriting (ch : Channel Ptr) : Channel Ptr := { ch with event := ch.event &&& ~~~writeEvent }

def disableAll (ch : Channel Ptr) (p : Poll Ptr) : Channel Ptr × Poll Ptr :=
  let ch := { ch with event := noneEvent }
  (ch, ch.update p)

def isWriting (ch : Channel Ptr) : Bool := has ch.event writeEvent

/-- The callback `HandleEvent` runs. -/
inductive CallBack where
  | cbShutdown
  | cbRead
  | cbWrite
deriving DecidableEq

/-- `HandleEvent` runs one callback: the close event goes before the read event, the read event before the write
event. -/
def handleEvent (revent : Events) : Option CallBack :=
  if has revent closeEvent then some .cbShutdown
  else if has revent readEvent then some .cbRead
  else if has revent writeEvent then some .cbWrite
  else none

@[simp] theorem isWriting_enableReading (ch : Channel Ptr) (p : Poll Ptr) :
    (ch.enableReading p).1.isWriting = false := by
  have hmask : has (readEvent ||| closeEvent) writeEvent = false := by decide
  exact hmask

@[simp] theorem isWriting_enableWriting (ch : Channel Ptr) (p : Poll Ptr) :
    (ch.enableWriting p).1.isWriting = true := has_or ch.event (by decide)

end Channel

/-! ## The registry and the interest list -/

namespace Poll
variable {Ptr : Type*}

/-- Registry and interest list name the same channel for every descriptor. -/
def InStep (p : Poll Ptr) : Prop := ∀ fd, p.channelMap.lookup fd = (p.epfd.lookup fd).map PollEvent.ptr

theorem inStep_empty : (empty : Poll Ptr).InStep := fun _ => rfl

theorem InStep.mem_iff {p : Poll Ptr} (h : p.InStep) (fd : Nat) : fd ∈ p.epfd ↔ fd ∈ p.channelMap := by
  rw [← AList.lookup_isSome, ← AList.lookup_isSome, h fd, Option.isSome_map]

/-- The registry entry `RegistEvennt` leaves: an entry that is there is not replaced. -/
theorem channelMap_registEvennt (p : Poll Ptr) (ch : Channel Ptr) (fd : Nat) :
    (p.registEvennt ch).channelMap.lookup fd =
      if fd = ch.index then some ((p.channelMap.lookup fd).getD ch.self) else p.channelMap.lookup fd := by
  cases h : p.channelMap.lookup ch.index with
  | none =>
    simp only [registEvennt, h]
    by_cases hfd : fd = ch.index
    · rw [if_pos hfd, hfd, AList.lookup_insert, h, Option.getD_none]
    · rw [if_neg hfd, AList.lookup_insert_ne hfd]
  | some ptr =>
    simp only [registEvennt, h]
    by_cases hfd : fd = ch.index
    · rw [if_pos hfd, hfd, h, Option.getD_some]
    · rw [if_neg hfd]

theorem lookup_ctlAdd_of_not_mem {ep : Epoll Ptr} {fd : Nat} (h : fd ∉ ep) (e : PollEvent Ptr) (fd' : Nat) :
    (Epoll.ctlAdd ep fd e).lookup fd' = if fd' = fd then some e else ep.lookup fd' := by
  rw [Epoll.ctlAdd, if_neg h]
  split
  · rename_i heq
    rw [heq, AList.lookup_insert]
  · rename_i hne
    exact AList.lookup_insert_ne hne

theorem lookup_ctlMod_of_mem {ep : Epoll Ptr} {fd : Nat} (h : fd ∈ ep) (e : PollEvent Ptr) (fd' : Nat) :
    (Epoll.ctlMod ep fd e).lookup fd' = if fd' = fd then some e else ep.lookup fd' := by
  rw [Epoll.ctlMod, if_pos h]
  split
  · rename_i heq
    rw [heq, AList.lookup_insert]
  · rename_i hne
    exact AList.lookup_insert_ne hne

/-- In step, `RegistEvennt` always reaches the interest list: the entry of the descriptor becomes the channel with its
current events, the other entries stay. -/
theorem epfd_registEvennt {p : Poll Ptr} (hp : p.InStep) {ch : Channel Ptr} (hfd : ch.index = ch.socketFd)
    (fd : Nat) : (p.registEvennt ch).epfd.lookup fd =
      if fd = ch.socketFd then some ⟨ch.self, ch.event⟩ else p.epfd.lookup fd := by
  cases h : p.channelMap.lookup ch.index with
  | none =>
    simp only [registEvennt, h]
    refine lookup_ctlAdd_of_not_mem ?_ _ fd
    intro hmem
    rw [hp.mem_iff, ← hfd, ← AList.lookup_isSome, h] at hmem
    cases hmem
  | some ptr =>
    simp only [registEvennt, h]
    refine lookup_ctlMod_of_mem ?_ _ fd
    rw [hp.mem_iff, ← hfd, ← AList.lookup_isSome, h]
    rfl

/-- The entries of other descriptors stay, in step or not. -/
theorem epfd_registEvennt_of_ne (p : Poll Ptr) {ch : Channel Ptr} {fd : Nat} (h : fd ≠ ch.socketFd) :
    (p.registEvennt ch).epfd.lookup fd = p.epfd.lookup fd := by
  unfold registEvennt Epoll.ctlAdd Epoll.ctlMod
  split
  · simp only
    split
    · rfl
    · exact AList.lookup_insert_ne h
  · simp only
    split
    · exact AList.lookup_insert_ne h
    · rfl

/-- A channel registered for the first time, or again under its own address, keeps the two in step. -/
theorem InStep.registEvennt {p : Poll Ptr} (hp : p.InStep) {ch : Channel Ptr} (hfd : ch.index = ch.socketFd)
    (hown : ∀ ptr, p.channelMap.lookup ch.index = some ptr → ptr = ch.self) : (p.registEvennt ch).InStep := by
  intro fd
  rw [epfd_registEvennt hp hfd, channelMap_registEvennt, hfd]
  split
  · rename_i heq
    rw [← hfd] at heq
    subst heq
    cases h : p.channelMap.lookup ch.index with
    | none => rfl
    | some ptr => simp [hown ptr h]
  · exact hp fd

/-- An entry that `RegistEvennt` leaves in the interest list was there, or is the channel's. -/
theorem mem_epfd_registEvennt {p : Poll Ptr} {ch : Channel Ptr} {e : Sigma fun _ : Nat => PollEvent Ptr}
    (h : e ∈ (p.registEvennt ch).epfd.entries) : e ∈ p.epfd.entries ∨ e.2 = ⟨ch.self, ch.event⟩ := by
  have hinsert : ∀ (fd : Nat) (new : PollEvent Ptr), e ∈ (p.epfd.insert fd new).entries →
      e ∈ p.epfd.entries ∨ e.2 = new := by
    intro fd new hmem
    rw [AList.entries_insert, List.mem_cons] at hmem
    rcases hmem with rfl | hmem
    · exact Or.inr rfl
    · exact Or.inl ((List.kerase_sublist _ _).subset hmem)
  unfold registEvennt Epoll.ctlAdd Epoll.ctlMod at h
  split at h
  · simp only at h
    split at h
    · exact Or.inl h
    · exact hinsert _ _ h
  · simp only at h
    split at h
    · exact hinsert _ _ h
    · exact Or.inl h

theorem channelMap_removeChannel (p : Poll Ptr) (ch : Channel Ptr) (fd : Nat) :
    (p.removeChannel ch).channelMap.lookup fd = if fd = ch.index then none else p.channelMap.lookup fd := by
  split
  · rename_i heq
    rw [heq]
    exact AList.lookup_erase _ _
  · rename_i hne
    exact AList.lookup_erase_ne hne

theorem epfd_removeChannel (p : Poll Ptr) (ch : Channel Ptr) (fd : Nat) :
    (p.removeChannel ch).epfd.lookup fd = if fd = ch.socketFd then none else p.epfd.lookup fd := by
  split
  · rename_i heq
    rw [heq]
    exact AList.lookup_erase _ _
  · rename_i hne
    exact AList.lookup_erase_ne hne

theorem InStep.removeChannel {p : Poll Ptr} (hp : p.InStep) {ch : Channel Ptr} (hfd : ch.index = ch.socketFd) :
    (p.removeChannel ch).InStep := by
  intro fd
  rw [channelMap_removeChannel, epfd_removeChannel, hfd]
  split
  · rfl
  · exact hp fd

/-! ## Channels on their own descriptors -/

/-- Registry and interest list are in step, and `fdOf` gives each registered channel the descriptor it stands under
and no descriptor to two channels. -/
structure Wired (p : Poll Ptr) (fdOf : Ptr → Option Nat) : Prop where
  inStep : p.InStep
  owner : ∀ fd ptr, p.channelMap.lookup fd = some ptr → fdOf ptr = some fd
  inj : ∀ ptr ptr' fd, fdOf ptr = some fd → fdOf ptr' = some fd → ptr = ptr'

variable {p : Poll Ptr} {fdOf : Ptr → Option Nat}

/-- A descriptor's entry is its own channel, if any. -/
theorem Wired.eq_of_lookup (h : p.Wired fdOf) {ptr ptr' : Ptr} {fd : Nat} (hfd : fdOf ptr = some fd)
    (hlookup : p.channelMap.lookup fd = some ptr') : ptr' = ptr := h.inj ptr' ptr fd (h.owner fd ptr' hlookup) hfd

theorem Wired.lookup_registEvennt (h : p.Wired fdOf) {ch : Channel Ptr} (hfd : ch.index = ch.socketFd)
    (hown : fdOf ch.self = some ch.socketFd) (fd : Nat) :
    (p.registEvennt ch).channelMap.lookup fd =
      if fd = ch.socketFd then some ch.self else p.channelMap.lookup fd := by
  rw [channelMap_registEvennt, hfd]
  by_cases heq : fd = ch.socketFd
  · rw [if_pos heq, if_pos heq, heq]
    cases hlookup : p.channelMap.lookup ch.socketFd with
    | none => rfl
    | some ptr => rw [Option.getD_some, h.eq_of_lookup hown hlookup]
  · rw [if_neg heq, if_neg heq]

/-- Registering a channel, for the first time or again. -/
theorem Wired.registEvennt (h : p.Wired fdOf) {ch : Channel Ptr} (hfd : ch.index = ch.socketFd)
    (hown : fdOf ch.self = some ch.socketFd) : (p.registEvennt ch).Wired fdOf := by
  refine ⟨h.inStep.registEvennt hfd ?_, ?_, h.inj⟩
  · intro ptr hlookup
    exact h.eq_of_lookup hown (hfd ▸ hlookup)
  · intro fd ptr hlookup
    rw [h.lookup_registEvennt hfd hown] at hlookup
    split at hlookup
    · rename_i heq
      cases hlookup
      exact heq ▸ hown
    · exact h.owner fd ptr hlookup

/-- A channel that is made for its descriptor starts reading. -/
theorem Wired.enableReading (h : p.Wired fdOf) (ptr : Ptr) (fd : Nat) (event : Events) (hown : fdOf ptr = some fd) :
    ((Channel.new ptr fd event).enableReading p).2.Wired fdOf := h.registEvennt rfl hown

theorem Wired.removeChannel (h : p.Wired fdOf) {ch : Channel Ptr} (hfd : ch.index = ch.socketFd) :
    (p.removeChannel ch).Wired fdOf := by
  refine ⟨h.inStep.removeChannel hfd, ?_, h.inj⟩
  intro fd ptr hlookup
  rw [channelMap_removeChannel] at hlookup
  split at hlookup
  · cases hlookup
  · exact h.owner fd ptr hlookup

/-- A channel gets a descriptor that no channel has. -/
theorem Wired.open [DecidableEq Ptr] (h : p.Wired fdOf) {ptr : Ptr} {fd : Nat} (hptr : fdOf ptr = none)
    (hfd : ∀ ptr', fdOf ptr' ≠ some fd) : p.Wired (Function.update fdOf ptr (some fd)) := by
  have hother : ∀ ptr' fd', fdOf ptr' = some fd' → Function.update fdOf ptr (some fd) ptr' = some fd' := by
    intro ptr' fd' hfd'
    rw [Function.update_of_ne (fun heq => by rw [heq, hptr] at hfd'; cases hfd')]
    exact hfd'
  refine ⟨h.inStep, fun fd' ptr' hlookup => hother ptr' fd' (h.owner fd' ptr' hlookup), ?_⟩
  intro a b fd' ha hb
  by_cases hac : a = ptr
  · by_cases hbc : b = ptr
    · exact hac.trans hbc.symm
    · rw [hac, Function.update_self] at ha
      rw [Function.update_of_ne hbc] at hb
      exact absurd (ha ▸ hb) (hfd b)
  · rw [Function.update_of_ne hac] at ha
    by_cases hbc : b = ptr
    · rw [hbc, Function.update_self] at hb
      exact absurd (hb ▸ ha) (hfd a)
    · rw [Function.update_of_ne hbc] at hb
      exact h.inj a b fd' ha hb

/-- The descriptor of a channel that is not registered is closed. -/
theorem Wired.close [DecidableEq Ptr] (h : p.Wired fdOf) {ptr : Ptr} {fd : Nat}
    (hlookup : p.channelMap.lookup fd = none) (hptr : fdOf ptr = some fd) :
    Wired { p with epfd := Epoll.ctlDel p.epfd fd } (Function.update fdOf ptr none) := by
  have hsome : ∀ ptr' fd', Function.update fdOf ptr none ptr' = some fd' → fdOf ptr' = some fd' := by
    intro ptr' fd' hfd'
    by_cases heq : ptr' = ptr
    · rw [heq, Function.update_self] at hfd'
      cases hfd'
    · rwa [Function.update_of_ne heq] at hfd'
  refine ⟨?_, ?_, ?_⟩
  · intro fd'
    by_cases heq : fd' = fd
    · rw [heq, hlookup, Epoll.ctlDel, AList.lookup_erase]
      rfl
    · rw [Epoll.ctlDel, AList.lookup_erase_ne heq]
      exact h.inStep fd'
  · intro fd' ptr' hlookup'
    have hfd' := h.owner fd' ptr' hlookup'
    have hne : ptr' ≠ ptr := fun heq => by
      rw [heq, hptr, Option.some.injEq] at hfd'
      rw [← hfd', hlookup] at hlookup'
      cases hlookup'
    rwa [Function.update_of_ne hne]
  · intro a b fd' ha hb
    exact h.inj a b fd' (hsome a fd' ha) (hsome b fd' hb)

end Poll

end NetImitate
