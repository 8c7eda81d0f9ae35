import NetImitate.Poll.Wait
import NetImitate.Tcpserver.Run

/-!
# The loop over `channelList`

A server of `Run` has the channels that are left to be handled in its place, each with its events. The source keeps
them elsewhere: `FillEventArray` puts the channels into `channelList` and the events into the channels, and
`HandleEvent` takes what its channel has when its turn comes. `Polled` is the server with these.

* `Polled`, `polling`, `machine`; `Step`, `step_cases` : everything a step can do;
* `rest` : the channels the loop has not come to, with the events they have;
* `map_setEvents` : channels that are reported once have the events they were reported with;
* `rest_polling`, `polling_interrupted` : what a round leaves to be handled, and what a signal does;
* `rest_eq_cons`, `rest_eq_nil` : the next channel, and the end of the list.
-/

namespace NetImitate

/-- The events that fill `channelList` or go on with it. -/
def ServerEv.dispatches : ServerEv → Bool
  | .poll _ | .handle _ | .doPendingFunc => true
  | _ => false

/-- A server with the list its loop goes over, the place the loop has come to in it, and the `revent` of each channel.
In the server itself nothing is left to be handled. -/
structure Polled where
  server : Server
  channelList : List Chan
  iter : Nat
  revent : Chan → Events

/-- A round of `epoll_wait`, or another event of the server. -/
inductive PolledEv where
  | polling (w : EpollWait Chan)
  | other (e : ServerEv)

namespace EpollWait

/-- The channels reported, with their events. -/
def reports (w : EpollWait Chan) : List (Chan × Events) := w.events.map fun e => (e.ptr, e.events)

end EpollWait

/-- The event as the server has it. -/
def PolledEv.server : PolledEv → ServerEv
  | .polling w => .poll w.reports
  | .other e => e

namespace Polled

def new (base : BaseFds) (tid : Tid) (cb : CloseCallBack) : Polled := ⟨Server.new base tid cb, [], 0, fun _ => 0⟩

/-- `SetEvent` of each channel that is put into the list. -/
def setEvents (revent : Chan → Events) (filled : List (Chan × Events)) : Chan → Events :=
  filled.foldl (fun revent r => Function.update revent r.1 r.2) revent

/-- `polling`: the list is cleared and filled. Where the assertion of `poll` fails or a cell is read that nobody wrote,
the server comes to `fault`. -/
def polling (s : Polled) (w : EpollWait Chan) : Polled :=
  match s.server.poll.poll w with
  | some (.done _ filled) =>
    { server := { s.server with pc := .between (.dispatch []) }
      channelList := filled.map Prod.fst
      iter := 0
      revent := setEvents s.revent filled }
  | _ => { s with server := { s.server with pc := .fault }, channelList := [], iter := 0 }

/-- What `epoll_wait` may return. -/
def Returns (s : Polled) (w : EpollWait Chan) : Prop :=
  w.Allowed s.server.poll.channelMap.entries.length ∧ (w.ret = -1 ∨ s.server.Reported w.reports)

instance (s : Polled) : (w : EpollWait Chan) → Decidable (s.Returns w)
  | .reported events => decidable_of_iff
      ((1 ≤ events.length ∧ events.length ≤ s.server.poll.channelMap.entries.length) ∧
        ((events.length : Int) = -1 ∨ s.server.Reported (EpollWait.reported events).reports)) Iff.rfl
  | .interrupted => isTrue ⟨trivial, Or.inl rfl⟩

def step (s : Polled) : PolledEv → Option Polled
  | .polling w => match s.server.pc with
    | .wait => if s.Returns w then some (s.polling w) else none
    | _ => none
  | .other (.poll _) => none
  | .other (.handle io) => match s.server.pc, s.channelList[s.iter]? with
    | .between (.dispatch _), some ch =>
      (s.server.handleEvent ch (s.revent ch) io (.dispatch [])).map fun server =>
        { s with server := server, iter := s.iter + 1 }
    | _, _ => none
  | .other .doPendingFunc =>
    -- the loop goes on to the end of the list
    if s.iter < s.channelList.length then none
    else (Server.machine.step s.server .doPendingFunc).map fun server => { s with server := server }
  | .other e => (Server.machine.step s.server e).map fun server => { s with server := server }

def machine : Machine Polled PolledEv := ⟨step⟩

/-- The channels the loop has not come to, with the events they have. -/
def rest (s : Polled) : List (Chan × Events) := (s.channelList.drop s.iter).map fun ch => (ch, s.revent ch)

/-- The channel whose `HandleEvent` a step runs, with the events it has. -/
def handles (s : Polled) : PolledEv → List (Chan × Events)
  | .other (.handle _) => s.channelList[s.iter]?.toList.map fun ch => (ch, s.revent ch)
  | _ => []

def reports : PolledEv → List (Chan × Events)
  | .polling w => w.reports
  | .other _ => []

variable {s s' : Polled} {e : PolledEv}

/-! ## Everything a step can do -/

inductive Step (s : Polled) : PolledEv → Polled → Prop
  | polling {w : EpollWait Chan} (hpc : s.server.pc = .wait) (hw : s.Returns w) : Step s (.polling w) (s.polling w)
  | handle {io : Io} {ch : Chan} {l : List (Chan × Events)} {server : Server}
      (hpc : s.server.pc = .between (.dispatch l)) (hch : s.channelList[s.iter]? = some ch)
      (h : s.server.handleEvent ch (s.revent ch) io (.dispatch []) = some server) :
      Step s (.other (.handle io)) { s with server := server, iter := s.iter + 1 }
  | doPendingFunc {server : Server} (hend : s.channelList.length ≤ s.iter)
      (h : Server.machine.step s.server .doPendingFunc = some server) :
      Step s (.other .doPendingFunc) { s with server := server }
  | other {e : ServerEv} {server : Server} (he : e.dispatches = false)
      (h : Server.machine.step s.server e = some server) : Step s (.other e) { s with server := server }

theorem step_cases (h : machine.step s e = some s') : Step s e s' := by
  rcases e with w | e
  · simp only [machine, step] at h
    split at h
    · rename_i hpc
      split at h
      · rename_i hw
        cases h
        exact .polling hpc hw
      · cases h
    · cases h
  · cases e with
    | poll reported => cases h
    | handle io =>
      simp only [machine, step] at h
      split at h
      · rename_i l ch hpc hch
        obtain ⟨server, hserver, rfl⟩ := Option.map_eq_some_iff.mp h
        exact .handle hpc hch hserver
      · cases h
    | doPendingFunc =>
      simp only [machine, step] at h
      split at h
      · cases h
      · rename_i hend
        obtain ⟨server, hserver, rfl⟩ := Option.map_eq_some_iff.mp h
        exact .doPendingFunc (not_lt.mp hend) hserver
    | _ =>
      obtain ⟨server, hserver, rfl⟩ := Option.map_eq_some_iff.mp h
      exact .other rfl hserver

/-! ## Filling the list -/

theorem setEvents_of_not_mem {filled : List (Chan × Events)} {ch : Chan} (revent : Chan → Events)
    (h : ch ∉ filled.map Prod.fst) : setEvents revent filled ch = revent ch := by
  induction filled generalizing revent with
  | nil => rfl
  | cons r filled ih =>
    rw [List.map_cons, List.mem_cons, not_or] at h
    exact (ih _ h.2).trans (Function.update_of_ne h.1 _ _)

/-- A channel that is reported once has the events it was reported with. -/
theorem setEvents_of_mem {filled : List (Chan × Events)} (hnodup : (filled.map Prod.fst).Nodup) {r : Chan × Events}
    (hr : r ∈ filled) (revent : Chan → Events) : setEvents revent filled r.1 = r.2 := by
  induction filled generalizing revent with
  | nil => cases hr
  | cons r' filled ih =>
    rw [List.map_cons, List.nodup_cons] at hnodup
    rcases List.mem_cons.mp hr with rfl | hr
    · exact (setEvents_of_not_mem _ hnodup.1).trans (Function.update_self _ _ _)
    · exact ih hnodup.2 hr _

theorem map_setEvents {filled : List (Chan × Events)} (hnodup : (filled.map Prod.fst).Nodup)
    (revent : Chan → Events) :
    (filled.map Prod.fst).map (fun ch => (ch, setEvents revent filled ch)) = filled := by
  have hsame : ∀ r ∈ filled, ((fun ch => (ch, setEvents revent filled ch)) ∘ Prod.fst) r = id r :=
    fun r hr => Prod.ext rfl (setEvents_of_mem hnodup hr revent)
  rw [List.map_map]
  exact (List.map_congr_left hsame).trans (List.map_id filled)

/-- With channels registered, the events the kernel has written fill the list. -/
theorem polling_reported (s : Polled) {w : EpollWait Chan} (hw : w.ret = w.events.length)
    (hpos : 0 < s.server.poll.channelMap.entries.length) :
    s.polling w = {
      server := { s.server with pc := .between (.dispatch []) }
      channelList := w.reports.map Prod.fst
      iter := 0
      revent := setEvents s.revent w.reports } := by
  rw [polling, Poll.poll_eq hpos, Poll.fillEventArray_reported hw]
  rfl

theorem rest_polling (s : Polled) {w : EpollWait Chan} (hw : w.ret = w.events.length)
    (hpos : 0 < s.server.poll.channelMap.entries.length) (hnodup : (w.reports.map Prod.fst).Nodup) :
    (s.polling w).rest = w.reports := by
  rw [polling_reported s hw hpos, rest, List.drop_zero]
  exact map_setEvents hnodup s.revent

/-- A signal makes `FillEventArray` read a cell that nobody wrote. -/
theorem polling_interrupted (s : Polled) (hpos : 0 < s.server.poll.channelMap.entries.length) :
    (s.polling .interrupted).server.pc = .fault := by
  rw [polling, Poll.poll_eq hpos, Poll.fillEventArray_interrupted rfl hpos]

/-- The channel whose turn has come, and the ones behind it. -/
theorem rest_eq_cons {ch : Chan} (hch : s.channelList[s.iter]? = some ch) (server : Server) :
    s.rest = (ch, s.revent ch) :: Polled.rest { s with server := server, iter := s.iter + 1 } := by
  obtain ⟨hlt, hget⟩ := List.getElem?_eq_some_iff.mp hch
  rw [rest, rest, List.drop_eq_getElem_cons hlt, hget, List.map_cons]

theorem rest_eq_nil (hend : s.channelList.length ≤ s.iter) : s.rest = [] := by
  rw [rest, List.drop_of_length_le hend, List.map_nil]

end Polled

end NetImitate
