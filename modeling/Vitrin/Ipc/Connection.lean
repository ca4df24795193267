import Vitrin.Lib.Machine
import Vitrin.Lib.Stream
import Vitrin.Protocol.Header

/-!
# A transport connection

One end of a Unix stream socket that carries frames, and beside a frame at most one
descriptor. Nothing here knows what a message means: it delimits frames, sends what the
kernel will take and parks the rest, and gives every received descriptor to the frame that
declares it.

The two directions share no state, so a `Connection` is a `SendSide` and a `RecvSide`.
Descriptors are values of an arbitrary type `φ`: a duplicate is the same open file, so it
is the same value. What the kernel does is an argument. A call that may write takes the
list of the kernel's answers (`Wrote`) and returns those it did not use and what the
kernel took, as the segments of the stream; when the answers run out the kernel would
block. A call that reads takes a machine that answers `recvmsg` and the list of its
labels. Interrupted calls are not modelled: the code repeats them.
-/

namespace Vitrin.Ipc

open Lib Protocol

universe u v w

variable {φ : Type u} {κ : Type v} {ι : Type w}

/-! ### Limits and errors -/

/-- The largest value of a header's size field. -/
def maxMessageSize : Nat := 65535

def maxFdsPerMessage : Nat := 1

/-- Cap on received descriptors that no frame has claimed. -/
def maxUnclaimedFds : Nat := 8

/-- Cap on the bytes parked for a peer that is not reading. -/
def maxSendQueueBytes : Nat := 256 * 1024

/-- Cap on the descriptors parked for a peer that is not reading. -/
def maxSendQueueFds : Nat := 16

/-- The kind of a failed system call. -/
inductive ErrorKind where
  | wouldBlock
  | writeZero
  | brokenPipe
  | other (code : Nat)
  deriving DecidableEq

/-- A call of the send path that contradicts itself. -/
inductive LocalMisuse where
  | frameTooShort (len : Nat)
  | sizeFieldMismatch (declared : UInt16) (actual : Nat)
  | fdCountMismatch (declared : UInt8) (attached : Bool)
  deriving DecidableEq

/-- A framing or descriptor rule the peer broke. -/
inductive PeerViolation where
  | undersizedSizeField (size : UInt16)
  | fdCountExceeded (fdCount : UInt8)
  | missingFd
  | unsolicitedFd
  | unclaimedFdOverflow
  | ancillaryTruncated
  deriving DecidableEq

inductive TransportError where
  | io (kind : ErrorKind)
  | eof (buffered : Nat)
  | localMisuse (misuse : LocalMisuse)
  | peerViolation (violation : PeerViolation)
  | sendQueueFull (queued : Nat)
  deriving DecidableEq

/-! ### Sending -/

/-- `frame` must be exactly one well-formed frame, and the descriptor must match its header. -/
def validateOutgoing (frame : List UInt8) (fd : Option φ) : Except LocalMisuse Unit :=
  match FrameHeader.decode frame with
  -- The header of a frame decodes unless the frame is shorter than a header.
  | .error _ => .error (.frameTooShort frame.length)
  | .ok header =>
    if header.size.toNat ≠ frame.length then .error (.sizeFieldMismatch header.size frame.length)
    else if header.fdCount.toNat > maxFdsPerMessage ∨ (header.fdCount == 1) ≠ fd.isSome then
      .error (.fdCountMismatch header.fdCount fd.isSome)
    else .ok ()

/-- The kernel's answer to a write. -/
inductive Wrote where
  /-- It took this many bytes, or all if there were fewer. -/
  | ok (n : Nat)
  | err (kind : ErrorKind)
  deriving DecidableEq

/-- One outgoing frame parked because the kernel would not take its bytes yet. -/
structure QueuedFrame (φ : Type u) where
  bytes : List UInt8
  /-- Bytes of `bytes` already written by a partial flush. -/
  offset : Nat
  /-- What must go with the first write, until it has gone. -/
  fd : Option φ
  deriving DecidableEq

structure SendSide (φ : Type u) where
  sendQueue : List (QueuedFrame φ)
  queuedSendBytes : Nat
  queuedSendFds : Nat
  sendOverflowed : Bool
  sendPoisoned : Option ErrorKind
  deriving DecidableEq

/-- What a call of the send path comes to: its result, the send side after it, what the kernel took and the answers of
the kernel that were not used. -/
structure Sent (φ : Type u) (α : Type v) where
  result : Except TransportError α
  side : SendSide φ
  wire : List (Segment UInt8 φ)
  script : List Wrote

def Sent.after {α : Type v} (wire : List (Segment UInt8 φ)) (s : Sent φ α) : Sent φ α :=
  { s with wire := wire ++ s.wire }

section

variable {α : Type v} (w : List (Segment UInt8 φ)) (s : Sent φ α)

@[simp] theorem Sent.after_side : (s.after w).side = s.side := rfl

@[simp] theorem Sent.after_wire : (s.after w).wire = w ++ s.wire := rfl

end

namespace SendSide

def new : SendSide φ := ⟨[], 0, 0, false, none⟩

/-- Record a fatal error of the send side, and report it. -/
def poisonSend {α : Type v} (tx : SendSide φ) (kind : ErrorKind) (script : List Wrote) : Sent φ α :=
  ⟨.error (.io kind), { tx with sendPoisoned := some kind }, [], script⟩

/-- The front of the queue after the kernel has taken `n` bytes of it. -/
def advance (tx : SendSide φ) (front : QueuedFrame φ) (rest : List (QueuedFrame φ)) (n : Nat) : SendSide φ :=
  { tx with
    queuedSendFds := if front.fd.isSome then tx.queuedSendFds - 1 else tx.queuedSendFds
    queuedSendBytes := tx.queuedSendBytes - n
    sendQueue :=
      if front.offset + n = front.bytes.length then rest
      else { front with offset := front.offset + n, fd := none } :: rest }

/-- Write as much of the parked queue as the kernel will take. -/
def flushSendQueue (tx : SendSide φ) : List Wrote → Sent φ Unit
  | [] => ⟨.ok (), tx, [], []⟩
  | answer :: script => match tx.sendQueue with
    | [] => ⟨.ok (), tx, [], answer :: script⟩
    | front :: rest =>
      -- A frame that still owes its descriptor is written from its first byte.
      let payload := if front.fd.isSome then front.bytes else front.bytes.drop front.offset
      match answer with
      | .err .wouldBlock => ⟨.ok (), tx, [], script⟩
      | .err kind => tx.poisonSend kind script
      | .ok n =>
        if min n payload.length = 0 then tx.poisonSend .writeZero script
        else ((tx.advance front rest (min n payload.length)).flushSendQueue script).after
          (Segment.ofWrite front.fd (payload.take n))

/-- Send the frame from `sent` on, without a descriptor, until it is done or the kernel would block. -/
def sendRest (tx : SendSide φ) (frame : List UInt8) (sent : Nat) : List Wrote → Sent φ Nat
  | [] => ⟨.ok sent, tx, [], []⟩
  | answer :: script =>
    if sent < frame.length then
      match answer with
      | .err .wouldBlock => ⟨.ok sent, tx, [], script⟩
      | .err kind => tx.poisonSend kind script
      | .ok n =>
        if min n (frame.length - sent) = 0 then tx.poisonSend .writeZero script
        else (tx.sendRest frame (sent + min n (frame.length - sent)) script).after
          (Segment.ofWrite none ((frame.drop sent).take n))
    else ⟨.ok sent, tx, [], answer :: script⟩

/-- One attempt to write a fresh frame: the descriptor goes with the first write. -/
def trySendNow (tx : SendSide φ) (frame : List UInt8) (fd : Option φ) : List Wrote → Sent φ Nat
  | [] => ⟨.ok 0, tx, [], []⟩
  | .err .wouldBlock :: script => ⟨.ok 0, tx, [], script⟩
  | .err kind :: script => tx.poisonSend kind script
  | .ok n :: script =>
    (tx.sendRest frame (min n frame.length) script).after (Segment.ofWrite fd (frame.take n))

/-- Park an unsent frame, or the unsent tail of one, within the two caps. -/
def park (tx : SendSide φ) (bytes : List UInt8) (fd : Option φ) : Except TransportError Unit × SendSide φ :=
  if tx.queuedSendBytes + bytes.length > maxSendQueueBytes ∨ tx.queuedSendFds + fd.isSome.toNat > maxSendQueueFds then
    (.error (.sendQueueFull tx.queuedSendBytes), { tx with sendOverflowed := true })
  else
    (.ok (), { tx with
      queuedSendBytes := tx.queuedSendBytes + bytes.length
      queuedSendFds := tx.queuedSendFds + fd.isSome.toNat
      sendQueue := tx.sendQueue ++ [⟨bytes, 0, fd⟩] })

/-- Park with a duplicate of the descriptor; `dup` is the error if duplicating it fails. -/
def parkDup (tx : SendSide φ) (bytes : List UInt8) (fd : Option φ) (dup : Option ErrorKind) (script : List Wrote) :
    Sent φ Unit := match fd, dup with
  | some _, some kind => ⟨.error (.io kind), tx, [], script⟩
  | _, _ => ⟨(tx.park bytes fd).1, (tx.park bytes fd).2, [], script⟩

/-- The send of a frame once the parked ones have had their turn. -/
def sendFlushed (tx : SendSide φ) (frame : List UInt8) (fd : Option φ) (dup : Option ErrorKind) (script : List Wrote) :
    Sent φ Unit := match tx.sendQueue with
  | [] =>
    let now := tx.trySendNow frame fd script
    match now.result with
    | .error e => ⟨.error e, now.side, now.wire, now.script⟩
    | .ok sent =>
      if sent = frame.length then ⟨.ok (), now.side, now.wire, now.script⟩
      -- Any write that succeeded carried the descriptor, so it is owed only if nothing went out.
      else (now.side.parkDup (frame.drop sent) (if sent = 0 then fd else none) dup now.script).after now.wire
  | _ :: _ => tx.parkDup frame fd dup script

/-- Send one frame without blocking, parking what the kernel will not take. -/
def sendOrQueue (tx : SendSide φ) (frame : List UInt8) (fd : Option φ) (dup : Option ErrorKind) (script : List Wrote) :
    Sent φ Unit := match validateOutgoing frame fd with
  | .error misuse => ⟨.error (.localMisuse misuse), tx, [], script⟩
  | .ok () =>
    if tx.sendOverflowed then ⟨.error (.sendQueueFull tx.queuedSendBytes), tx, [], script⟩
    else match tx.sendPoisoned with
      | some kind => ⟨.error (.io kind), tx, [], script⟩
      | none => match tx.sendQueue with
        | [] => tx.sendFlushed frame fd dup script
        | _ :: _ =>
          let flushed := tx.flushSendQueue script
          match flushed.result with
          | .error e => ⟨.error e, flushed.side, flushed.wire, flushed.script⟩
          | .ok () => (flushed.side.sendFlushed frame fd dup flushed.script).after flushed.wire

end SendSide

/-! ### Receiving -/

/-- One received frame: its header, its bytes, and the descriptor it declares. -/
structure Message (φ : Type u) where
  header : FrameHeader
  bytes : List UInt8
  fd : Option φ
  deriving DecidableEq

/-- What a `recvmsg` that delivers bytes delivers. -/
structure Delivery (φ : Type u) where
  bytes : List UInt8
  fds : List φ
  /-- More descriptors came than the ancillary buffer admits. -/
  truncated : Bool
  nonempty : bytes ≠ []

/-- The kernel's answer to a `recvmsg`. -/
inductive Received (φ : Type u) where
  | delivery (d : Delivery φ)
  | eof
  | err (kind : ErrorKind)

structure RecvSide (φ : Type u) where
  /-- Bytes received but not yet returned as frames. -/
  recvBuf : List UInt8
  /-- Descriptors no frame has claimed yet, each with the span of the `recvmsg` that delivered it. -/
  pendingFds : List (Span φ)
  /-- The stream offset of the first byte of `recvBuf`. -/
  consumed : Nat
  poisoned : Option PeerViolation

namespace RecvSide

def new : RecvSide φ := ⟨[], [], 0, none⟩

/-- Queue the descriptors of one delivery; what does not fit is a violation. -/
def queueFds (rx : RecvSide φ) (spanStart spanEnd : Nat) : List φ → Except PeerViolation Unit × RecvSide φ
  | [] => (.ok (), rx)
  | fd :: fds =>
    if rx.pendingFds.length ≥ maxUnclaimedFds then
      (.error .unclaimedFdOverflow, { rx with poisoned := some .unclaimedFdOverflow })
    else queueFds { rx with pendingFds := rx.pendingFds ++ [⟨spanStart, spanEnd, fd⟩] } spanStart spanEnd fds

/-- One `recvmsg` round: the number of bytes it appended, `0` at the end of the stream. -/
def fill (rx : RecvSide φ) : Received φ → Except TransportError Nat × RecvSide φ
  | .err kind => (.error (.io kind), rx)
  | .eof => (.ok 0, rx)
  | .delivery d =>
    if d.truncated then
      (.error (.peerViolation .ancillaryTruncated), { rx with poisoned := some .ancillaryTruncated })
    else
      let spanStart := rx.consumed + rx.recvBuf.length
      match rx.queueFds spanStart (spanStart + d.bytes.length) d.fds with
      | (.error v, rx) => (.error (.peerViolation v), rx)
      | (.ok (), rx) => (.ok d.bytes.length, { rx with recvBuf := rx.recvBuf ++ d.bytes })

/-- Give out a frame that ends at `frameEnd`, unless a descriptor is left that came with its bytes or earlier ones. -/
def release (rx : RecvSide φ) (msg : Message φ) (frameEnd : Nat) : Except PeerViolation (Message φ) × RecvSide φ :=
  match rx.pendingFds with
  | front :: _ =>
    if front.spanEnd ≤ frameEnd then (.error .unsolicitedFd, { rx with poisoned := some .unsolicitedFd })
    else (.ok msg, rx)
  | [] => (.ok msg, rx)

/-- Take the frame at the front of the buffer, whose header this is, and the descriptor it declares. -/
def takeFrame (rx : RecvSide φ) (header : FrameHeader) : Except PeerViolation (Message φ) × RecvSide φ :=
  let size := header.size.toNat
  let bytes := rx.recvBuf.take size
  let frameStart := rx.consumed
  let frameEnd := frameStart + size
  let rx := { rx with recvBuf := rx.recvBuf.drop size, consumed := frameEnd }
  if header.fdCount = 1 then
    match rx.pendingFds with
    | entry :: rest =>
      if entry.spanStart ≤ frameStart then
        release { rx with pendingFds := rest } ⟨header, bytes, some entry.fd⟩ frameEnd
      else (.error .missingFd, { rx with poisoned := some .missingFd })
    | [] => (.error .missingFd, { rx with poisoned := some .missingFd })
  else rx.release ⟨header, bytes, none⟩ frameEnd

/-- What the buffer holds at its front: a frame, a violation, or nothing whole yet. -/
def nextFrame (rx : RecvSide φ) : Option (Except PeerViolation (Message φ) × RecvSide φ) :=
  match FrameHeader.decode rx.recvBuf with
  | .error _ => none
  | .ok header =>
    if header.size.toNat < headerLen then
      some (.error (.undersizedSizeField header.size), { rx with poisoned := some (.undersizedSizeField header.size) })
    else if header.fdCount.toNat > maxFdsPerMessage then
      some (.error (.fdCountExceeded header.fdCount), { rx with poisoned := some (.fdCountExceeded header.fdCount) })
    else if rx.recvBuf.length < header.size.toNat then none
    else some (rx.takeFrame header)

/-- The receiving loop: frames from the buffer, and a `recvmsg` whenever it holds no whole one. -/
def recvLoop (kernel : Machine κ ι (Received φ)) (rx : RecvSide φ) (k : κ) :
    List ι → Except TransportError (Option (Message φ)) × RecvSide φ × κ × List ι
  | [] => match rx.nextFrame with
    | some (.ok msg, rx) => (.ok (some msg), rx, k, [])
    | some (.error v, rx) => (.error (.peerViolation v), rx, k, [])
    | none => (.error (.io .wouldBlock), rx, k, [])
  | a :: rest => match rx.nextFrame with
    | some (.ok msg, rx) => (.ok (some msg), rx, k, a :: rest)
    | some (.error v, rx) => (.error (.peerViolation v), rx, k, a :: rest)
    | none => match rx.fill (kernel k a).2 with
      | (.error e, rx) => (.error e, rx, (kernel k a).1, rest)
      | (.ok 0, rx) =>
        (if rx.recvBuf = [] then .ok none else .error (.eof rx.recvBuf.length), rx, (kernel k a).1, rest)
      | (.ok (_ + 1), rx) => rx.recvLoop kernel (kernel k a).1 rest

section

variable {ke : Machine κ ι (Received φ)} {rx rx' : RecvSide φ} {k : κ}

theorem recvLoop_taken {m : Message φ} (h : rx.nextFrame = some (.ok m, rx')) (l : List ι) :
    rx.recvLoop ke k l = (.ok (some m), rx', k, l) := by
  cases l <;> rw [recvLoop, h]

theorem recvLoop_violated {v : PeerViolation} (h : rx.nextFrame = some (.error v, rx')) (l : List ι) :
    rx.recvLoop ke k l = (.error (.peerViolation v), rx', k, l) := by
  cases l <;> rw [recvLoop, h]

theorem recvLoop_nil (h : rx.nextFrame = none) : rx.recvLoop ke k [] = (.error (.io .wouldBlock), rx, k, []) := by
  rw [recvLoop, h]

theorem recvLoop_cons (h : rx.nextFrame = none) (a : ι) (r : List ι) :
    rx.recvLoop ke k (a :: r) = match rx.fill (ke k a).2 with
      | (.error e, rx) => (.error e, rx, (ke k a).1, r)
      | (.ok 0, rx) => (if rx.recvBuf = [] then .ok none else .error (.eof rx.recvBuf.length), rx, (ke k a).1, r)
      | (.ok (_ + 1), rx) => rx.recvLoop ke (ke k a).1 r := by
  rw [recvLoop, h]

end

/-- Receive the next complete frame; `none` is a clean end of the stream. -/
def recvMessage (kernel : Machine κ ι (Received φ)) (rx : RecvSide φ) (k : κ) (labels : List ι) :
    Except TransportError (Option (Message φ)) × RecvSide φ × κ × List ι := match rx.poisoned with
  | some v => (.error (.peerViolation v), rx, k, labels)
  | none => rx.recvLoop kernel k labels

end RecvSide

structure Connection (φ : Type u) where
  rx : RecvSide φ
  tx : SendSide φ

def Connection.new : Connection φ := ⟨.new, .new⟩

end Vitrin.Ipc
