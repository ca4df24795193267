import Vitrin.Ipc.Send
import Vitrin.Lib.Ring

/-!
# The shim's transport

The shim's end of its connection to the core, in C: frames out with at most one descriptor
each, frames in. Outgoing frames that the kernel will not take wait in a ring of small
slots; one that is too large for a slot has a buffer of its own, which is written first.
Incoming bytes are cut into frames by their size field, and descriptors are matched to the
frames that declare them as the core's transport does it.

`Wire` is the connection with its buffers. The kernel's answers to `sendmsg` are a list
that a call uses from the front; an answer to `recvmsg` comes from a machine, which is
asked for no more than there is room for. A handler of a frame may send, claim the
descriptor and reject the frame (`Reaction`).

Two fields of `Wire` are not in the source and nothing reads them: `log` is what happened,
in order, and `dups` counts the descriptors that were duplicated, which gives each of them
a name.

A loop of the source whose rounds are not bounded by a list is bounded by a number here:
by the bytes that are left, in `flushBig`, the slots in use, in `flushQueue`, and the
bytes received, in `dispatchLoop`. Every round but the last takes one off.
-/

namespace Vitrin.Shim

open Lib Protocol Ipc

universe u v w

variable {φ : Type u}

/-! ### Limits and errors -/

/-- The largest frame the format can express. -/
def maxFrame : Nat := 65535

/-- The largest frame that fits into a slot of the queue. -/
def slotBytes : Nat := 64

def queueSlots : Nat := 64

/-- Received descriptors that may wait for the frame that declares them. -/
def maxUnclaimed : Nat := 4

/-- Why a system call failed. An interrupted one is made again. -/
inductive Errno where
  | again
  | pipe
  | connReset
  | other (code : Nat)
  deriving DecidableEq

/-- The kernel's answer to a `sendmsg` or `send`. -/
inductive Sendmsg where
  | took (n : Nat)
  | err (e : Errno)
  deriving DecidableEq

/-- The kernel's answer to a `recvmsg`. -/
inductive Recvmsg (φ : Type u) where
  | delivery (d : Delivery φ)
  | eof
  | err (e : Errno)

/-- Why the connection was given up. -/
inductive Failure where
  | sendmsgFailed
  | sendMidFrame
  | zeroMidFrame
  /-- a second oversized frame while one is unsent: the core has stopped reading -/
  | secondOversized
  /-- outgoing queue full: the core has stopped reading -/
  | queueFull
  /-- cannot duplicate a buffer fd for the send queue -/
  | cannotDuplicate
  /-- outgoing frame outside the shim's size envelope -/
  | sizeEnvelope
  /-- an oversized outgoing frame may not carry a descriptor -/
  | oversizedDescriptor
  | outgoingHeader
  /-- outgoing frame size field disagrees with its length -/
  | outgoingSize
  | outgoingFdCount
  | recvmsgFailed
  | rejected
  | bufferFull
  | unclaimedOverflow
  | ancillaryTruncated
  | undecodableHeader
  /-- frame size below the 8-byte header minimum -/
  | undersized
  | manyDescriptors
  /-- frame declares a descriptor that no ancillary data delivered -/
  | missingDescriptor
  | unsolicitedDescriptor
  deriving DecidableEq

/-- The peer's framing is at fault. -/
def Failure.Violation : Failure → Prop
  | .bufferFull | .unclaimedOverflow | .ancillaryTruncated | .undecodableHeader | .undersized | .manyDescriptors
  | .missingDescriptor | .unsolicitedDescriptor => True
  | _ => False

/-! ### The connection -/

/-- A duplicate of a descriptor: the file it stands for, and its own name. -/
structure Dup (φ : Type u) where
  file : φ
  id : Nat

/-- One outgoing frame the kernel would not take yet, or the rest of one. -/
structure Slot (φ : Type u) where
  bytes : List UInt8
  /-- Bytes an earlier flush has written. -/
  offset : Nat
  /-- The descriptor that must go with the frame's first byte. -/
  fd : Option (Dup φ)

/-- A received descriptor that waits for the frame that declares it. -/
structure PendingFd (φ : Type u) where
  spanStart : Nat
  spanEnd : Nat
  fd : Option φ

inductive Mark (φ : Type u) where
  | wrote (segment : Segment UInt8 φ)
  | sent (frame : Ipc.Frame φ) (ok : Bool)
  | duped (d : Dup φ)
  | closedDup (d : Dup φ)
  /-- A received descriptor was queued or, if there are too many, not. -/
  | received (fd : φ)
  | closed (fd : φ)
  | claimed (fd : φ)
  | handed (frame : Ipc.Frame φ)
  /-- The layer above was told that a batch is over. -/
  | drained
  /-- The layer above was told that the connection is over. -/
  | finished

structure Wire (φ : Type u) where
  opened : Bool
  failed : Option Failure
  eof : Bool
  rx : List UInt8
  /-- The stream offset of the first byte of `rx`. -/
  consumed : Nat
  pending : Ring (PendingFd φ) maxUnclaimed
  queue : Ring (Slot φ) queueSlots
  big : List UInt8
  bigOffset : Nat
  /-- The event source, and whether it watches for write readiness. -/
  source : Option Bool
  /-- The layer above has not been told that the connection is over. -/
  onClosed : Bool
  dups : Nat
  log : List (Mark φ)

namespace Wire

def new : Wire φ :=
  { opened := true, failed := none, eof := false, rx := [], consumed := 0
    pending := .empty ⟨0, 0, none⟩ (by decide), queue := .empty ⟨[], 0, none⟩ (by decide), big := [], bigOffset := 0
    source := some false, onClosed := true, dups := 0, log := [] }

def note (w : Wire φ) (marks : List (Mark φ)) : Wire φ := { w with log := w.log ++ marks }

def alive (w : Wire φ) : Bool := w.opened && w.failed.isNone && !w.eof

/-- Close every received descriptor that no frame has claimed. -/
def dropPendingFds (w : Wire φ) : Wire φ :=
  { w with pending := w.pending.clear, log := w.log ++ (w.pending.toList.filterMap (·.fd)).map .closed }

/-- `wire_fail`: the first reason stays. -/
def fail (w : Wire φ) (reason : Failure) : Wire φ := { w with failed := w.failed.or (some reason) }.dropPendingFds

/-! ### Sending -/

/-- What a write comes to: the bytes taken, or none if it failed, and the answers that were not used. -/
structure Written (φ : Type u) where
  taken : Option Nat
  wire : Wire φ
  answers : List Sendmsg

/-- The loop of plain sends that carries the rest of a frame. -/
def writeRest (w : Wire φ) (bytes : List UInt8) (sent : Nat) : List Sendmsg → Written φ
  | [] => ⟨some sent, w, []⟩
  | answer :: answers =>
    if sent < bytes.length then
      match answer with
      | .err .again => ⟨some sent, w, answers⟩
      | .err .pipe | .err .connReset => ⟨none, { w with eof := true }, answers⟩
      | .err (.other _) => ⟨none, w.fail .sendMidFrame, answers⟩
      | .took n =>
        if min n (bytes.length - sent) = 0 then ⟨none, w.fail .zeroMidFrame, answers⟩
        else (w.note ((Segment.ofWrite none ((bytes.drop sent).take n)).map .wrote)).writeRest bytes
          (sent + min n (bytes.length - sent)) answers
    else ⟨some sent, w, answer :: answers⟩

/-- `wire_write`: one attempt, with the descriptor on the first `sendmsg`. -/
def wireWrite (w : Wire φ) (bytes : List UInt8) (fd : Option φ) : List Sendmsg → Written φ
  | [] => ⟨some 0, w, []⟩
  | .err .again :: answers => ⟨some 0, w, answers⟩
  | .err .pipe :: answers | .err .connReset :: answers => ⟨none, { w with eof := true }, answers⟩
  | .err (.other _) :: answers => ⟨none, w.fail .sendmsgFailed, answers⟩
  | .took n :: answers =>
    (w.note ((Segment.ofWrite fd (bytes.take n)).map .wrote)).writeRest bytes (min n bytes.length) answers

def parked (w : Wire φ) : Bool := decide (w.bigOffset < w.big.length) || decide (0 < w.queue.len)

/-- `wire_park`: an unsent frame, or the rest of one. `dup` says whether a descriptor can be duplicated. -/
def wirePark (w : Wire φ) (bytes : List UInt8) (fd : Option φ) (dup : Bool) : Bool × Wire φ :=
  if slotBytes < bytes.length then
    -- The oversized buffer is written before the queue, so the queue must be empty.
    if w.parked then (false, w.fail .secondOversized) else (true, { w with big := bytes, bigOffset := 0 })
  else if h : w.queue.len < queueSlots then
    match fd with
    | none => (true, { w with queue := w.queue.push ⟨bytes, 0, none⟩ h })
    | some file =>
      if dup then
        (true, { w with
          queue := w.queue.push ⟨bytes, 0, some ⟨file, w.dups⟩⟩ h
          dups := w.dups + 1
          log := w.log ++ [.duped ⟨file, w.dups⟩] })
      else (false, w.fail .cannotDuplicate)
  else (false, w.fail .queueFull)

/-- The first loop of `wire_flush`: the oversized frame. A result means that the flush returns it. -/
def flushBig (w : Wire φ) (answers : List Sendmsg) : Nat → Option Bool × Wire φ × List Sendmsg
  | 0 => (none, w, answers)
  | rounds + 1 =>
    if w.bigOffset < w.big.length then
      let t := w.wireWrite (w.big.drop w.bigOffset) none answers
      match t.taken with
      | none => (some false, t.wire, t.answers)
      | some n =>
        if n = 0 then (some true, t.wire, t.answers)
        else { t.wire with bigOffset := w.bigOffset + n }.flushBig t.answers rounds
    else (none, w, answers)

/-- The second loop of `wire_flush`: the queue. -/
def flushQueue (w : Wire φ) (answers : List Sendmsg) : Nat → Bool × Wire φ × List Sendmsg
  | 0 => (true, w, answers)
  | rounds + 1 => match w.queue.front? with
    | none => (true, w, answers)
    | some slot =>
      let t := w.wireWrite (slot.bytes.drop slot.offset) (slot.fd.map (·.file)) answers
      match t.taken with
      | none => (false, t.wire, t.answers)
      | some n =>
        -- Any successful write took the descriptor with it, so ours is closed and not sent again.
        let slot' := { slot with offset := slot.offset + n, fd := if 0 < n then none else slot.fd }
        let w := (if 0 < n then t.wire.note (slot.fd.toList.map .closedDup) else t.wire)
        if slot'.offset < slot.bytes.length then (true, { w with queue := w.queue.setFront slot' }, t.answers)
        else { w with queue := (w.queue.setFront slot').pop }.flushQueue t.answers rounds

/-- `wire_flush`: write as much of what is parked as the kernel will take. -/
def wireFlush (w : Wire φ) (answers : List Sendmsg) : Bool × Wire φ × List Sendmsg :=
  match w.flushBig answers (w.big.length - w.bigOffset) with
  | (some ok, w, answers) => (ok, w, answers)
  | (none, w, answers) => { w with big := [], bigOffset := 0 }.flushQueue answers w.queue.len

/-- `wire_update_mask`: watch for write readiness while something is parked. -/
def updateMask (w : Wire φ) : Wire φ := { w with source := w.source.map fun _ => w.parked }

end Wire

/-- A call of `vitrin_wire_send`, the kernel's answers to it and whether a descriptor can be duplicated. -/
structure SendCall (φ : Type u) where
  frame : Ipc.Frame φ
  answers : List Sendmsg
  dup : Bool

namespace Wire

def sendFresh (w : Wire φ) (frame : Ipc.Frame φ) (dup : Bool) (answers : List Sendmsg) : Bool × Wire φ :=
  let t := w.wireWrite frame.bytes frame.fd answers
  match t.taken with
  | none => (false, t.wire)
  | some sent =>
    if sent = frame.bytes.length then (true, t.wire)
    else
      let put := t.wire.wirePark (frame.bytes.drop sent) (if sent = 0 then frame.fd else none) dup
      (put.1, put.2.updateMask)

/-- The send of a frame that has been checked: what is parked goes first. -/
def sendChecked (w : Wire φ) (call : SendCall φ) : Bool × Wire φ :=
  if w.parked then
    let (ok, w, answers) := w.wireFlush call.answers
    if ok then
      if w.parked then
        let put := w.wirePark call.frame.bytes call.frame.fd call.dup
        (put.1, put.2.updateMask)
      else w.sendFresh call.frame call.dup answers
    else (false, w)
  else w.sendFresh call.frame call.dup call.answers

/-- What `vitrin_wire_send` checks before a byte reaches the kernel. -/
def checkOutgoing (frame : Ipc.Frame φ) : Except Failure Unit :=
  if frame.bytes.length < headerLen ∨ maxFrame < frame.bytes.length then .error .sizeEnvelope
  else if slotBytes < frame.bytes.length ∧ frame.fd.isSome then .error .oversizedDescriptor
  else match FrameHeader.decode frame.bytes with
    | .error _ => .error .outgoingHeader
    | .ok header =>
      if header.size.toNat ≠ frame.bytes.length then .error .outgoingSize
      else if decide (header.fdCount = 1) ≠ frame.fd.isSome then .error .outgoingFdCount
      else .ok ()

def send (w : Wire φ) (call : SendCall φ) : Bool × Wire φ :=
  let (ok, w) :=
    if w.alive then
      match checkOutgoing call.frame with
      | .error reason => (false, w.fail reason)
      | .ok () => w.sendChecked call
    else (false, w)
  (ok, w.note [.sent call.frame ok])

def sendAll (w : Wire φ) : List (SendCall φ) → Wire φ
  | [] => w
  | call :: calls => (w.send call).2.sendAll calls

/-! ### Receiving -/

/-- Queue the descriptors of one `recvmsg`; those that do not fit are closed. -/
def harvest (w : Wire φ) (spanStart spanEnd : Nat) : List φ → Bool × Wire φ
  | [] => (false, w)
  | fd :: fds =>
    if h : w.pending.len < maxUnclaimed then
      harvest { w with
        pending := w.pending.push ⟨spanStart, spanEnd, some fd⟩ h
        log := w.log ++ [.received fd] } spanStart spanEnd fds
    else (true, ((w.note [.received fd, .closed fd]).harvest spanStart spanEnd fds).2)

section

variable {κ : Type v} {ι : Type w}

/-- `wire_fill`: one `recvmsg` round. -/
def wireFill (kernel : Machine κ (Nat × ι) (Recvmsg φ)) (w : Wire φ) (k : κ) (a : ι) : Bool × Wire φ × κ :=
  if w.rx.length = maxFrame then (false, w.fail .bufferFull, k)
  else
    let k' := (kernel k (maxFrame - w.rx.length, a)).1
    match (kernel k (maxFrame - w.rx.length, a)).2 with
    | .err .again => (true, w, k')
    | .err .connReset => (true, { w with eof := true }, k')
    | .err _ => (false, w.fail .recvmsgFailed, k')
    | .eof => (true, { w with eof := true }, k')
    | .delivery d =>
      let spanStart := w.consumed + w.rx.length
      let (overflow, w) := w.harvest spanStart (spanStart + d.bytes.length) d.fds
      if overflow then (false, w.fail .unclaimedOverflow, k')
      else if d.truncated then (false, w.fail .ancillaryTruncated, k')
      else (true, { w with rx := w.rx ++ d.bytes }, k')

end

/-- `wire_take_fd`: the descriptor a frame that begins at `frameStart` declares. -/
def takeFd (w : Wire φ) (frameStart : Nat) : Option φ × Wire φ := match w.pending.front? with
  | none => (none, w)
  | some front =>
    if frameStart < front.spanStart then (none, w) else (front.fd, { w with pending := w.pending.pop })

/-- `wire_has_unclaimed_fd`: a descriptor is left that came with the bytes before `frameEnd`. -/
def hasUnclaimedFd (w : Wire φ) (frameEnd : Nat) : Bool := match w.pending.front? with
  | none => false
  | some front => decide (front.spanEnd ≤ frameEnd)

end Wire

/-- What the handler does with a frame: the sends it makes, whether it claims the descriptor, and what it returns. -/
structure Reaction (φ : Type u) where
  sends : List (SendCall φ)
  claims : Bool
  accepts : Bool

def Reaction.idle : Reaction φ := ⟨[], false, true⟩

namespace Wire

/-- What the dispatch of the frames received comes to: its return value, and how far it got. -/
structure Dispatched (φ : Type u) where
  ok : Bool
  wire : Wire φ
  pos : Nat

def handle (w : Wire φ) (frame : Ipc.Frame φ) (reaction : Reaction φ) : Wire φ :=
  ((w.note [.handed frame]).sendAll reaction.sends).note
    (frame.fd.toList.map (if reaction.claims then .claimed else .closed))

/-- What is at `pos` in the buffer: no complete frame, a violation, or a frame for the handler, with its size. -/
inductive Cut (φ : Type u) where
  | incomplete
  | violation (w : Wire φ) (reason : Failure)
  | frame (w : Wire φ) (frame : Ipc.Frame φ) (size : Nat)

/-- A complete frame with this header, and the descriptor it declares. -/
def claimFd (w : Wire φ) (pos : Nat) (header : FrameHeader) : Cut φ :=
  let size := header.size.toNat
  let frameStart := w.consumed + pos
  let (fd, w) := if header.fdCount = 1 then w.takeFd frameStart else (none, w)
  if header.fdCount = 1 ∧ fd.isNone then .violation w .missingDescriptor
  else if w.hasUnclaimedFd (frameStart + size) then
    .violation (w.note (fd.toList.map .closed)) .unsolicitedDescriptor
  else .frame w ⟨(w.rx.drop pos).take size, fd⟩ size

/-- One round of `wire_dispatch`, up to the handler. -/
def cutFrame (w : Wire φ) (pos : Nat) : Cut φ :=
  if w.rx.length - pos < headerLen then .incomplete
  else match FrameHeader.decode (w.rx.drop pos) with
    | .error _ => .violation w .undecodableHeader
    | .ok header =>
      if header.size.toNat < headerLen then .violation w .undersized
      else if header.fdCount.toNat > 1 then .violation w .manyDescriptors
      else if w.rx.length - pos < header.size.toNat then .incomplete
      else w.claimFd pos header

/-- The loop of `wire_dispatch`, from `pos` on. -/
def dispatchLoop (w : Wire φ) (reactions : List (Reaction φ)) (pos : Nat) : Nat → Dispatched φ
  | 0 => ⟨true, w, pos⟩
  | rounds + 1 => match w.cutFrame pos with
    | .incomplete => ⟨true, w, pos⟩
    | .violation w reason => ⟨false, w.fail reason, pos⟩
    | .frame w frame size =>
      let reaction := reactions.headD .idle
      let w := w.handle frame reaction
      if reaction.accepts then w.dispatchLoop reactions.tail (pos + size) rounds
      else ⟨false, w.fail .rejected, pos + size⟩

/-- `wire_dispatch`: hand every complete frame to the handler. -/
def wireDispatch (w : Wire φ) (reactions : List (Reaction φ)) : Bool × Wire φ :=
  let t := w.dispatchLoop reactions 0 (w.rx.length + 1)
  if t.ok then (true, { t.wire with rx := t.wire.rx.drop t.pos, consumed := t.wire.consumed + t.pos })
  else (false, t.wire)

/-- `wire_finished`: the event source is dropped and the layer above is told, once. -/
def wireFinished (w : Wire φ) : Wire φ :=
  if w.onClosed then { w with source := none, onClosed := false, log := w.log ++ [.finished] }
  else { w with source := none }

/-- `vitrin_wire_finish`: what is still owned is closed. -/
def finish (w : Wire φ) : Wire φ :=
  let w : Wire φ := { w with
    source := none
    queue := w.queue.clear
    log := w.log ++ (w.queue.toList.filterMap (·.fd)).map .closedDup }
  { w.dropPendingFds with opened := false }

end Wire

/-- A wakeup: what is ready, the kernel's answers, and what the layer above does. -/
structure Wake (ι : Type w) (φ : Type u) where
  writable : Bool
  readable : Bool
  answers : List Sendmsg
  read : ι
  reactions : List (Reaction φ)
  drained : List (SendCall φ)

namespace Wire

variable {κ : Type v} {ι : Type w}

/-- The writing half of `wire_ready`. -/
def readyWrite (w : Wire φ) (writable : Bool) (answers : List Sendmsg) : Wire φ :=
  if writable then
    let (ok, w, _) := w.wireFlush answers
    if ok then w.updateMask else w
  else w

/-- The reading half of `wire_ready`. -/
def readyRead (kernel : Machine κ (Nat × ι) (Recvmsg φ)) (w : Wire φ) (k : κ) (wake : Wake ι φ) : Wire φ × κ :=
  if w.alive && wake.readable then
    match w.wireFill kernel k wake.read with
    | (false, w, k) => (w, k)
    | (true, w, k) => match w.wireDispatch wake.reactions with
      | (false, w) => (w, k)
      | (true, w) => (((w.note [.drained]).sendAll wake.drained).updateMask, k)
  else (w, k)

/-- `wire_ready`: the event source fires. -/
def wireReady (kernel : Machine κ (Nat × ι) (Recvmsg φ)) (w : Wire φ) (k : κ) (wake : Wake ι φ) : Wire φ × κ :=
  let (w, k) := (w.readyWrite wake.writable wake.answers).readyRead kernel k wake
  (if w.alive then w else w.wireFinished, k)

end Wire

end Vitrin.Shim
