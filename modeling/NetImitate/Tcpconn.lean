import NetImitate.Buffer
import NetImitate.Poll

/-!
# `Tcpconn`: one connection

The functions of `tcpconn.cc` that touch only the connection and the poller of its loop. The connection goes together
with that poller through `Wrote`; what closing does to the server is in `Tcpserver`.

* `WriteRet p n ret` : what `::write(fd, p, n)` may return;
* `sendInLoop`, `handleWrite`, `shutDownInloop`, `connectEstablished`;
* `outBuffer_sendInLoop`, `handleWrite_of_empty` : a send makes no byte of `outBuffer` readable, and a drain with
  nothing readable changes nothing;
* `sendInLoop_cases` : the three things a send can do.
-/

namespace NetImitate

inductive KState where
  | kConnected
  | kClosed
deriving DecidableEq

/-- A connected socket; `shutWr` records the `::shutdown(fd, SHUT_WR)` of `ShutdownWrite`. -/
structure Socket where
  socketfd : Nat
  shutWr : Bool

namespace Socket

def setSocketFd (fd : Nat) : Socket := ⟨fd, false⟩

def shutdownWrite (s : Socket) : Socket := { s with shutWr := true }

end Socket

structure Tcpconn (Ptr : Type*) where
  socketChannel : Channel Ptr
  connectSocket : Socket
  peerAddress : String
  inBuffer : Buffer
  outBuffer : Buffer
  state : KState

/-- What `::write(fd, p, n)` may return: `-1`, or the length of the prefix of `p` it accepted. -/
def WriteRet (p : List UInt8) (n : Nat) (ret : Int) : Prop := ret = -1 ∨ (0 ≤ ret ∧ ret ≤ n ∧ ret ≤ p.length)

instance (p : List UInt8) (n : Nat) (ret : Int) : Decidable (WriteRet p n ret) := by
  unfold WriteRet
  infer_instance

/-- A connection and its loop's poller after a call, with the bytes the kernel accepted in it. -/
structure Wrote (Ptr : Type*) where
  conn : Tcpconn Ptr
  poll : Poll Ptr
  accepted : List UInt8

namespace Tcpconn
variable {Ptr : Type*}

/-- `event` is what the channel's unset field holds. -/
def new (ptr : Ptr) (fd : Nat) (address : String) (event : Events) : Tcpconn Ptr where
  socketChannel := Channel.new ptr fd event
  connectSocket := Socket.setSocketFd fd
  peerAddress := address
  inBuffer := Buffer.new
  outBuffer := Buffer.new
  state := .kConnected

/-- `ConnectEstablished` behind its `connectionCallBack`: the channel starts reading. -/
def connectEstablished (c : Tcpconn Ptr) (p : Poll Ptr) : Tcpconn Ptr × Poll Ptr :=
  let r := c.socketChannel.enableReading p
  ({ c with socketChannel := r.1 }, r.2)

/-- `sendInLoop(str)`, its `::write`, where it gets to one, returning `ret`. -/
def sendInLoop (c : Tcpconn Ptr) (p : Poll Ptr) (str : List UInt8) (ret : Int) : Option (Wrote Ptr) :=
  let len := int32 str.length
  if !c.socketChannel.isWriting && c.outBuffer.readableBytes == 0 then
    if WriteRet str (sizeT len) ret then
      let nwrite := int32 ret
      let accepted := str.take ret.toNat
      if 0 < nwrite ∧ nwrite < len then
        let restStr := slice str nwrite.toNat len.toNat
        let c := { c with outBuffer := (c.outBuffer.appendInBuf restStr).2 }
        let r := c.socketChannel.enableWriting p
        some ⟨{ c with socketChannel := r.1 }, r.2, accepted⟩
      else some ⟨c, p, accepted⟩
    else none
  else some ⟨{ c with outBuffer := (c.outBuffer.appendInBuf str).2 }, p, []⟩

/-- `handleWrite`, its `::write`, where it gets to one, returning `ret`; `none` also when `RetrieveAsString` raises. -/
def handleWrite (c : Tcpconn Ptr) (p : Poll Ptr) (ret : Int) : Option (Wrote Ptr) :=
  if c.socketChannel.isWriting then
    let readable := c.outBuffer.readableBytes
    if WriteRet (c.outBuffer.data.drop c.outBuffer.startRead) (sizeT readable) ret then
      let nwrite := int32 ret
      let accepted := (c.outBuffer.data.drop c.outBuffer.startRead).take ret.toNat
      if 0 < nwrite then
        (c.outBuffer.retrieveAsStringN nwrite).map fun r =>
          let c := { c with outBuffer := r.2 }
          if c.outBuffer.readableBytes == 0 then
            ⟨{ c with socketChannel := c.socketChannel.disableWriting }, p, accepted⟩
          else ⟨c, p, accepted⟩
      else some ⟨c, p, accepted⟩
    else none
  else some ⟨c, p, []⟩

def shutDownInloop (c : Tcpconn Ptr) : Tcpconn Ptr := { c with connectSocket := c.connectSocket.shutdownWrite }

/-! ## What a send does -/

/-- The short write: part of the string accepted, the rest handed to `AppendInBuf`, the write event enabled. -/
def ShortWrite (c : Tcpconn Ptr) (str : List UInt8) (ret : Int) : Prop :=
  c.socketChannel.isWriting = false ∧ c.outBuffer.readableBytes = 0 ∧ 0 < int32 ret ∧ int32 ret < int32 str.length

instance (c : Tcpconn Ptr) (str : List UInt8) (ret : Int) : Decidable (c.ShortWrite str ret) := by
  unfold ShortWrite
  infer_instance

/-- Everything a send can do. -/
theorem sendInLoop_cases {c : Tcpconn Ptr} {p : Poll Ptr} {str : List UInt8} {ret : Int} {w : Wrote Ptr}
    (h : c.sendInLoop p str ret = some w) :
    (c.ShortWrite str ret ∧ WriteRet str (sizeT (int32 str.length)) ret ∧ w.accepted = str.take ret.toNat ∧
      ∃ restStr, w.conn = { c with
        outBuffer := (c.outBuffer.appendInBuf restStr).2
        socketChannel := (c.socketChannel.enableWriting p).1 } ∧ w.poll = (c.socketChannel.enableWriting p).2) ∨
    (c.socketChannel.isWriting = false ∧ c.outBuffer.readableBytes = 0 ∧ ¬ c.ShortWrite str ret ∧
      WriteRet str (sizeT (int32 str.length)) ret ∧ w = ⟨c, p, str.take ret.toNat⟩) ∨
    ((c.socketChannel.isWriting = true ∨ c.outBuffer.readableBytes ≠ 0) ∧
      w = ⟨{ c with outBuffer := (c.outBuffer.appendInBuf str).2 }, p, []⟩) := by
  simp only [sendInLoop] at h
  split at h
  · rename_i hdirect
    simp only [Bool.and_eq_true, Bool.not_eq_true', beq_iff_eq] at hdirect
    split at h
    · rename_i hret
      split at h
      · rename_i hshort
        simp only [Option.some.injEq] at h
        subst h
        exact Or.inl ⟨⟨hdirect.1, hdirect.2, hshort⟩, hret, rfl, _, rfl, rfl⟩
      · rename_i hshort
        simp only [Option.some.injEq] at h
        exact Or.inr (Or.inl ⟨hdirect.1, hdirect.2, fun hs => hshort hs.2.2, hret, h.symm⟩)
    · cases h
  · rename_i hdirect
    simp only [Bool.and_eq_true, Bool.not_eq_true', beq_iff_eq, not_and_or, Bool.not_eq_false] at hdirect
    simp only [Option.some.injEq] at h
    exact Or.inr (Or.inr ⟨hdirect, h.symm⟩)

theorem sendInLoop_enabled {c : Tcpconn Ptr} {str : List UInt8} {ret : Int} (p : Poll Ptr)
    (hret : WriteRet str (sizeT (int32 str.length)) ret) : ∃ w, c.sendInLoop p str ret = some w := by
  simp only [sendInLoop, if_pos hret]
  split
  · split <;> exact ⟨_, rfl⟩
  · exact ⟨_, rfl⟩

/-- Whatever a send appends, no byte of `outBuffer` becomes readable. -/
theorem outBuffer_sendInLoop {c : Tcpconn Ptr} {p : Poll Ptr} {str : List UInt8} {ret : Int} {w : Wrote Ptr}
    (hc : c.outBuffer.Wf) (h : c.sendInLoop p str ret = some w) :
    w.conn.outBuffer.Wf ∧ w.conn.outBuffer.content = c.outBuffer.content := by
  rcases sendInLoop_cases h with ⟨-, -, -, restStr, hconn, -⟩ | ⟨-, -, -, -, rfl⟩ | ⟨-, rfl⟩
  · rw [hconn]
    exact ⟨Buffer.wf_appendInBuf hc restStr, Buffer.content_appendInBuf hc restStr⟩
  · exact ⟨hc, rfl⟩
  · exact ⟨Buffer.wf_appendInBuf hc str, Buffer.content_appendInBuf hc str⟩

theorem state_sendInLoop {c : Tcpconn Ptr} {p : Poll Ptr} {str : List UInt8} {ret : Int} {w : Wrote Ptr}
    (h : c.sendInLoop p str ret = some w) : w.conn.state = c.state := by
  rcases sendInLoop_cases h with ⟨-, -, -, restStr, hconn, -⟩ | ⟨-, -, -, -, rfl⟩ | ⟨-, rfl⟩
  · rw [hconn]
  · rfl
  · rfl

theorem connectSocket_sendInLoop {c : Tcpconn Ptr} {p : Poll Ptr} {str : List UInt8} {ret : Int} {w : Wrote Ptr}
    (h : c.sendInLoop p str ret = some w) : w.conn.connectSocket = c.connectSocket := by
  rcases sendInLoop_cases h with ⟨-, -, -, restStr, hconn, -⟩ | ⟨-, -, -, -, rfl⟩ | ⟨-, rfl⟩
  · rw [hconn]
  · rfl
  · rfl

/-! ## What a writability event does -/

/-- A drain touches neither the state nor the poller, and of the channel only the mask. -/
theorem handleWrite_frame {c : Tcpconn Ptr} {p : Poll Ptr} {ret : Int} {w : Wrote Ptr}
    (h : c.handleWrite p ret = some w) :
    w.poll = p ∧ w.conn.state = c.state ∧ w.conn.connectSocket = c.connectSocket ∧
      ∃ event, w.conn.socketChannel = { c.socketChannel with event := event } := by
  simp only [handleWrite] at h
  split at h
  · split at h
    · split at h
      · obtain ⟨r, -, rfl⟩ := Option.map_eq_some_iff.mp h
        split
        · exact ⟨rfl, rfl, rfl, _, rfl⟩
        · exact ⟨rfl, rfl, rfl, _, rfl⟩
      · cases h
        exact ⟨rfl, rfl, rfl, _, rfl⟩
    · cases h
  · cases h
    exact ⟨rfl, rfl, rfl, _, rfl⟩

/-- With nothing readable in `outBuffer`, `::write` is offered nothing and `handleWrite` changes nothing. -/
theorem handleWrite_of_empty {c : Tcpconn Ptr} {p : Poll Ptr} {ret : Int} {w : Wrote Ptr} (hc : c.outBuffer.Wf)
    (hempty : c.outBuffer.content = []) (h : c.handleWrite p ret = some w) : w = ⟨c, p, []⟩ := by
  have hread : c.outBuffer.readableBytes = 0 := by
    rw [Buffer.readableBytes_of_lt hc (by simp [hempty]), hempty]
    rfl
  have hsize : sizeT 0 = 0 := sizeT_natCast (n := 0) (by decide)
  simp only [handleWrite, hread, hsize] at h
  split at h
  · split at h
    · rename_i hret
      have hnwrite : int32 ret = ret := by
        rcases hret with hret | hret
        · exact int32_eq_self (by omega) (by omega)
        · exact int32_eq_self (by omega) (by omega)
      have hle : ¬ 0 < int32 ret := by
        rw [hnwrite]
        rcases hret with hret | hret <;> omega
      rw [if_neg hle, Option.some.injEq] at h
      rw [← h, show ret.toNat = 0 by omega, List.take_zero]
    · cases h
  · simp only [Option.some.injEq] at h
    exact h.symm

@[simp] theorem isWriting_connectEstablished (c : Tcpconn Ptr) (p : Poll Ptr) :
    (c.connectEstablished p).1.socketChannel.isWriting = false := Channel.isWriting_enableReading c.socketChannel p

@[simp] theorem outBuffer_connectEstablished (c : Tcpconn Ptr) (p : Poll Ptr) :
    (c.connectEstablished p).1.outBuffer = c.outBuffer := rfl

end Tcpconn

end NetImitate
