import Vitrin.Ipc.Receive
import Vitrin.Ipc.Send

/-!
# A connection in the event loop

The core's loop owns its connections as event sources. A source has two registered
descriptors: the connection's socket, and a ping by which the rest of the core, through an
`Outbox`, gets the source dispatched without the peer having said anything. A dispatch
drains the outbox, or flushes, receives to exhaustion and hands every frame to a callback;
it decides whether the connection lives on, and what readiness it waits for.

`ConnectionSource` has the connection, the outbox's queue, its two flags (a ping is
pending, a turn was asked for), whether every handle to the outbox has been dropped, the
registered interest and whether the source has left the loop. Everything outside is in the
labels (`LoopOp`): which descriptor is ready, the kernel's answers, and what the callback
does at each event, as a list of reactions (`Act`): it replies, asks for a turn, or sends
through the outbox. A step's output is the list of what happened in it (`LoopMark`).

Every frame takes bytes off what is buffered or still to be read (`recvMessage_shrinks`),
so the receive loop of a dispatch ends: `receiveBudget` bounds its rounds
(`exists_receiveAll`), and with more of them it does the same.
-/

namespace Vitrin.Ipc

open Lib Protocol

universe u

variable {φ : Type u}

def maxOutboxFrames : Nat := 64

/-- Why the glue terminated a connection. -/
inductive DisconnectReason where
  | slowReader (queued : Nat)
  | oversized (e : TransportError)
  | fdBomb (v : PeerViolation)
  | peerAborted (e : TransportError)
  | protocolError (e : TransportError)
  deriving DecidableEq

def DisconnectReason.ofError (e : TransportError) : DisconnectReason := match e with
  | .sendQueueFull queued => .slowReader queued
  | .eof _ | .io _ => .peerAborted e
  | .peerViolation (.undersizedSizeField _) => .oversized e
  | .peerViolation (.fdCountExceeded n) => .fdBomb (.fdCountExceeded n)
  | .peerViolation .unsolicitedFd => .fdBomb .unsolicitedFd
  | .peerViolation .unclaimedFdOverflow => .fdBomb .unclaimedFdOverflow
  | .peerViolation .ancillaryTruncated => .fdBomb .ancillaryTruncated
  | .peerViolation .missingFd | .localMisuse _ => .protocolError e

/-- What a source hands the core. -/
inductive ConnectionEvent (φ : Type u) where
  | message (msg : Message φ)
  | woken
  | disconnected
  | fault (reason : DisconnectReason)
  deriving DecidableEq

def ConnectionEvent.Terminal : ConnectionEvent φ → Prop
  | .disconnected | .fault _ => True
  | _ => False

inductive Act (φ : Type u) where
  /-- `reply`, with the kernel's answers to it. -/
  | reply (frame : Frame φ) (dup : Option ErrorKind) (script : List Wrote)
  /-- `Outbox::wake`. -/
  | wake
  /-- `Outbox::send`. -/
  | send (frame : List UInt8)

/-- Which registered descriptor is ready. -/
inductive Token where
  | connection
  | ping
  | foreign
  deriving DecidableEq

/-- What a dispatch meets: the kernel's answers in the drain of the outbox, in the flush and in the receive loop, and
what the callback does at each event. -/
structure Turn (φ : Type u) where
  drain : List Wrote
  flush : List Wrote
  reads : List (Received φ)
  reactions : List (List (Act φ))

inductive LoopOp (φ : Type u) where
  | dispatch (token : Token) (turn : Turn φ)
  /-- `Outbox::send`, from outside a dispatch. -/
  | send (frame : List UInt8)
  /-- `Outbox::wake`, from outside a dispatch. -/
  | wake
  | drop

inductive LoopMark (φ : Type u) where
  | event (e : ConnectionEvent φ)
  | asked
  /-- A frame was given to the outbox, which took it or was full. -/
  | offered (frame : List UInt8) (taken : Bool)
  | handed (frame : List UInt8)
  deriving DecidableEq

structure ConnectionSource (φ : Type u) where
  conn : Connection φ
  outbox : Bool
  queue : List (List UInt8)
  ping : Bool
  dropped : Bool
  wake : Bool
  writable : Bool
  removed : Bool

namespace ConnectionSource

/-- A connection whose every reply is issued from its own dispatch. -/
def new (conn : Connection φ) : ConnectionSource φ := ⟨conn, false, [], false, true, false, false, false⟩

def withOutbox (conn : Connection φ) : ConnectionSource φ := ⟨conn, true, [], false, false, false, false, false⟩

/-- `Outbox::send`: queue a frame and ping, unless the queue is full. -/
def send (s : ConnectionSource φ) (frame : List UInt8) : ConnectionSource φ × List (LoopMark φ) :=
  if s.dropped then (s, [])
  else if s.queue.length ≥ maxOutboxFrames then (s, [.offered frame false])
  else ({ s with queue := s.queue ++ [frame], ping := true }, [.offered frame true])

/-- `Outbox::wake`: ask for a turn. -/
def askTurn (s : ConnectionSource φ) : ConnectionSource φ × List (LoopMark φ) :=
  if s.dropped then (s, []) else ({ s with wake := true, ping := true }, [.asked])

def withTx (s : ConnectionSource φ) (tx : SendSide φ) : ConnectionSource φ := { s with conn := { s.conn with tx } }

def act (s : ConnectionSource φ) : Act φ → ConnectionSource φ × List (LoopMark φ)
  | .reply frame dup script => (s.withTx (s.conn.tx.sendOrQueue frame.bytes frame.fd dup script).side, [])
  | .wake => s.askTurn
  | .send frame => s.send frame

def react (s : ConnectionSource φ) : List (Act φ) → ConnectionSource φ × List (LoopMark φ)
  | [] => (s, [])
  | a :: acts => (((s.act a).1.react acts).1, (s.act a).2 ++ ((s.act a).1.react acts).2)

/-- Show the callback an event; it reacts with the first of its reactions. -/
def emit (s : ConnectionSource φ) (e : ConnectionEvent φ) (reactions : List (List (Act φ))) :
    ConnectionSource φ × List (LoopMark φ) :=
  ((s.react (reactions.headD [])).1, .event e :: (s.react (reactions.headD [])).2)

/-- Hand the frames of the outbox to the connection, until one fails; then the others are dropped. -/
def drainFrames (s : ConnectionSource φ) (script : List Wrote) :
    List (List UInt8) → ConnectionSource φ × List (LoopMark φ)
  | [] => (s, [])
  | frame :: frames =>
    let sent := s.conn.tx.sendOrQueue frame none none script
    match sent.result with
    | .error _ => ({ s.withTx sent.side with queue := [] }, [.handed frame])
    | .ok () =>
      let next := { s.withTx sent.side with queue := frames }.drainFrames sent.script frames
      (next.1, .handed frame :: next.2)

/-- The outbox half of a dispatch: it runs when the ping is ready. -/
def drainOutbox (s : ConnectionSource φ) (turn : Turn φ) : ConnectionSource φ × List (LoopMark φ) :=
  if s.outbox then
    let drained := if s.ping then { s with ping := false }.drainFrames turn.drain s.queue else (s, [])
    -- Nothing can ping any more once every handle is gone.
    (if s.dropped then { drained.1 with outbox := false } else drained.1, drained.2)
  else (s, [])

/-- What the receive loop of a dispatch comes to. -/
structure Drained (φ : Type u) where
  source : ConnectionSource φ
  marks : List (LoopMark φ)
  reactions : List (List (Act φ))
  remove : Bool

/-- The loop ends with a last event and the removal of the source. -/
def finish (s : ConnectionSource φ) (e : ConnectionEvent φ) (reactions : List (List (Act φ))) : Drained φ :=
  ⟨(s.emit e reactions).1, (s.emit e reactions).2, reactions.tail, true⟩

/-- Receive to exhaustion, in at most this many rounds; nothing if they are too few. -/
def receiveAll (s : ConnectionSource φ) (reads : List (Received φ)) (reactions : List (List (Act φ))) :
    Nat → Option (Drained φ)
  | 0 => none
  | rounds + 1 =>
    let (result, rx, _, left) := s.conn.rx.recvMessage scripted () reads
    let s := { s with conn := { s.conn with rx } }
    match result with
    | .ok (some msg) =>
      let next := (s.emit (.message msg) reactions).1.receiveAll left reactions.tail rounds
      next.map fun next => { next with marks := (s.emit (.message msg) reactions).2 ++ next.marks }
    | .ok none => some (s.finish .disconnected reactions)
    | .error (.io .wouldBlock) => some ⟨s, [], reactions, false⟩
    | .error e => some (s.finish (.fault (.ofError e)) reactions)

/-- Rounds enough for all that is buffered or still to be read. -/
def receiveBudget (s : ConnectionSource φ) (reads : List (Received φ)) : Nat :=
  s.conn.rx.recvBuf.length + (stream reads).length + 1

/-- The end of a dispatch that has received all there is: the turn that is owed, and then the state of the send side. -/
def settle (s : ConnectionSource φ) (reactions : List (List (Act φ))) : ConnectionSource φ × List (LoopMark φ) × Bool :=
  let turned := if s.wake then { s with wake := false }.emit .woken reactions else (s, [])
  let left := if s.wake then reactions.tail else reactions
  let ended := turned.1
  if ended.conn.tx.sendOverflowed then
    let last := ended.emit (.fault (.slowReader ended.conn.tx.queuedSendBytes)) left
    (last.1, turned.2 ++ last.2, true)
  else match ended.conn.tx.sendPoisoned with
    | some kind =>
      let last := ended.emit (.fault (.ofError (.io kind))) left
      (last.1, turned.2 ++ last.2, true)
    | none => (ended, turned.2, false)

/-- The connection's half of a dispatch: whether the source is to be removed comes last. -/
def processConnection (s : ConnectionSource φ) (turn : Turn φ) : ConnectionSource φ × List (LoopMark φ) × Bool :=
  let flushed := if s.conn.tx.queuedSendBytes > 0 then s.conn.tx.flushSendQueue turn.flush
    else ⟨.ok (), s.conn.tx, [], turn.flush⟩
  match flushed.result with
  | .error e =>
    let last := (s.withTx flushed.side).finish (.fault (.ofError e)) turn.reactions
    (last.source, last.marks, true)
  | .ok () =>
    let s := s.withTx flushed.side
    match s.receiveAll turn.reads turn.reactions (s.receiveBudget turn.reads) with
    -- The rounds are enough: `exists_receiveAll`.
    | none => (s, [], false)
    | some received =>
      if received.remove then (received.source, received.marks, true)
      else
        let settled := received.source.settle received.reactions
        (settled.1, received.marks ++ settled.2.1, settled.2.2)

/-- Watch for write-readiness exactly while something is parked or a turn is owed. -/
def updateInterest (s : ConnectionSource φ) : ConnectionSource φ :=
  { s with writable := decide (s.conn.tx.queuedSendBytes > 0) || s.wake }

def processEvents (s : ConnectionSource φ) (token : Token) (turn : Turn φ) : ConnectionSource φ × List (LoopMark φ) :=
  match token with
  | .foreign => (s.updateInterest, [])
  | .ping => ((s.drainOutbox turn).1.updateInterest, (s.drainOutbox turn).2)
  | .connection =>
    let done := s.processConnection turn
    (if done.2.2 then { done.1 with removed := true } else done.1.updateInterest, done.2.1)

end ConnectionSource

/-- One step of the world around a source. A source that has left the loop is not dispatched. -/
def sourceStep : Machine (ConnectionSource φ) (LoopOp φ) (List (LoopMark φ)) := fun s op => match op with
  | .dispatch token turn => if s.removed then (s, []) else s.processEvents token turn
  | .send frame => s.send frame
  | .wake => s.askTurn
  | .drop => ({ s with dropped := true }, [])

/-! ### The receive loop ends -/

namespace ConnectionSource

theorem act_rx (s : ConnectionSource φ) (a : Act φ) : (s.act a).1.conn.rx = s.conn.rx := by
  cases a with
  | reply => rfl
  | wake =>
    simp only [act, askTurn]
    split <;> rfl
  | send f =>
    simp only [act, send]
    split
    · rfl
    · split <;> rfl

theorem react_rx {s : ConnectionSource φ} {ac : List (Act φ)} : (s.react ac).1.conn.rx = s.conn.rx := by
  induction ac generalizing s with
  | nil => rfl
  | cons a ac ih => exact ih.trans (s.act_rx a)

end ConnectionSource

namespace RecvSide

variable {rx rx' : RecvSide φ}

theorem Takes.shrinks {m : Message φ} (h : Takes rx m rx') : rx'.recvBuf.length < rx.recvBuf.length := by
  have hw := h.whole
  rw [h.recvBuf, List.length_drop]
  unfold headerLen at hw
  omega

variable {r : List (Received φ)}

theorem recvLoop_shrinks_front {f : Except PeerViolation (Message φ) × RecvSide φ}
    (hn : rx.nextFrame = some f) {m : Message φ} (h : (rx.recvLoop scripted () r).1 = .ok (some m)) :
    (rx.recvLoop scripted () r).2.1.recvBuf.length + (stream (rx.recvLoop scripted () r).2.2.2).length <
      rx.recvBuf.length + (stream r).length := by
  have hf := rx.nextFrame_fronts
  rw [hn] at hf
  cases hf with
  | taken ht =>
    rw [recvLoop_taken hn]
    exact Nat.add_lt_add_right ht.shrinks _
  | violated =>
    rw [recvLoop_violated hn] at h
    cases h

/-- A frame takes bytes off what is buffered or still to be read. -/
theorem recvLoop_shrinks {m : Message φ} (h : (rx.recvLoop scripted () r).1 = .ok (some m)) :
    (rx.recvLoop scripted () r).2.1.recvBuf.length + (stream (rx.recvLoop scripted () r).2.2.2).length <
      rx.recvBuf.length + (stream r).length := by
  induction r generalizing rx with
  | nil =>
    cases hn : rx.nextFrame with
    | none =>
      rw [recvLoop_nil hn] at h
      cases h
    | some f => exact recvLoop_shrinks_front hn h
  | cons a r ih =>
    cases hn : rx.nextFrame with
    | none =>
      rw [recvLoop_cons hn] at h ⊢
      have hf := rx.fill_fills a
      change Fills rx a (rx.fill (scripted () a).2) at hf
      generalize rx.fill (scripted () a).2 = filled at hf h ⊢
      cases hf with
      | failed | violated => cases h
      | ended =>
        dsimp only at h
        split at h <;> cases h
      | appended d n =>
        have hr := ih h
        rw [stream, List.length_append]
        rw [arrive, List.length_append] at hr
        exact hr.trans_eq (Nat.add_assoc _ _ _)
    | some f => exact recvLoop_shrinks_front hn h

theorem recvMessage_shrinks {m : Message φ} (h : (rx.recvMessage scripted () r).1 = .ok (some m)) :
    (rx.recvMessage scripted () r).2.1.recvBuf.length + (stream (rx.recvMessage scripted () r).2.2.2).length <
      rx.recvBuf.length + (stream r).length := by
  unfold recvMessage at h ⊢
  split
  · next hp =>
    rw [hp] at h
    cases h
  · next hs =>
    rw [hs] at h
    exact recvLoop_shrinks h

end RecvSide

namespace ConnectionSource

/-- One outcome is reached with every number of rounds from the budget on. -/
theorem exists_receiveAll (s : ConnectionSource φ) (reads : List (Received φ)) (reactions : List (List (Act φ))) :
    ∃ out, ∀ rounds, s.receiveBudget reads ≤ rounds → s.receiveAll reads reactions rounds = some out := by
  induction hb : s.receiveBudget reads using Nat.strong_induction_on generalizing s reads reactions with
  | _ budget ih =>
    -- the budget is never zero, so there is a first round
    have hround (rounds : Nat) (h : budget ≤ rounds) : ∃ n, rounds = n + 1 :=
      Nat.exists_eq_succ_of_ne_zero (Nat.lt_of_lt_of_le (hb ▸ Nat.succ_pos _) h).ne'
    have hs := @RecvSide.recvMessage_shrinks φ s.conn.rx reads
    unfold receiveAll
    generalize s.conn.rx.recvMessage scripted () reads = received at hs
    obtain ⟨result, rx, _, left⟩ := received
    rcases result with e | (_ | msg)
    · cases e with
      | io kind =>
        cases kind with
        | wouldBlock => exact ⟨_, fun rounds h => by obtain ⟨n, rfl⟩ := hround rounds h; rfl⟩
        | _ => exact ⟨_, fun rounds h => by obtain ⟨n, rfl⟩ := hround rounds h; rfl⟩
      | _ => exact ⟨_, fun rounds h => by obtain ⟨n, rfl⟩ := hround rounds h; rfl⟩
    · exact ⟨_, fun rounds h => by obtain ⟨n, rfl⟩ := hround rounds h; rfl⟩
    · have hless : ({ s with conn := { s.conn with rx } }.emit (.message msg) reactions).1.receiveBudget left <
          budget := by
        rw [← hb]
        unfold receiveBudget emit
        rw [react_rx]
        exact Nat.succ_lt_succ (hs rfl)
      obtain ⟨out, hout⟩ := ih _ hless _ left reactions.tail rfl
      refine ⟨{ out with marks := ({ s with conn := { s.conn with rx } }.emit (.message msg) reactions).2 ++
        out.marks }, fun rounds h => ?_⟩
      obtain ⟨n, rfl⟩ := hround rounds h
      dsimp only
      rw [hout n (Nat.le_of_lt_succ (hless.trans_le h))]
      rfl

/-- **The receive loop ends**: it comes to an outcome within the budget, and with more rounds to the same one. -/
theorem receiveAll_budget (s : ConnectionSource φ) (reads : List (Received φ)) (reactions : List (List (Act φ)))
    {rounds : Nat} (hrounds : s.receiveBudget reads ≤ rounds) : ∃ out : Drained φ,
      s.receiveAll reads reactions (s.receiveBudget reads) = some out ∧
      s.receiveAll reads reactions rounds = some out := by
  obtain ⟨out, h⟩ := s.exists_receiveAll reads reactions
  exact ⟨out, h _ (Nat.le_refl _), h _ hrounds⟩

theorem receiveAll_budget_bareFrame : let s : ConnectionSource Nat := .new .new
    let reads : List (Received Nat) := [.delivery ⟨bareFrame, [], false, by decide⟩]
    ∃ out, s.receiveAll reads [] (s.receiveBudget reads) = some out ∧ s.receiveAll reads [] 100 = some out :=
  receiveAll_budget _ _ _ (by decide)

end ConnectionSource

end Vitrin.Ipc
