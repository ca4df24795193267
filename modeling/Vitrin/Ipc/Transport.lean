import Vitrin.Ipc.Receive
import Vitrin.Ipc.Send

/-!
# Two ends of a connection

What one end sends, the other receives: frame by frame, in order, each with its own
descriptor, whatever the kernel does in between.

A `Link` is the send side of one end, the channel and the receive side of the other. A run
is a list of sends, flushes and receives in any order; each carries the kernel's answers.
A write takes any part of what it is given, fails or would block; a `recvmsg` takes any
amount the channel allows (`Lib.recv`), or reports the end of the stream or an error at
any time.

The sender's half of `transport_faithful` is `Feeds`. The receiver's half is `Holds`: its
buffer and its queue are a stretch of the stream, so that it finds a whole frame with its
descriptor, or nothing whole yet. `Faithful` puts the two together over the channel.

`dup_failure_forgotten` is a failure that is not remembered.
-/

namespace Vitrin.Ipc

open Lib Protocol RecvSide
open List (length_map append_assoc mem_cons_self append_nil)

universe u v w

variable {φ : Type u}

/-! ### The receive side of a stream of frames -/

/-- The receiver has taken these cells of the stream and returned none of them. -/
structure RecvSide.Holds (rx : RecvSide φ) (taken : List (Cell UInt8 φ)) : Prop where
  recvBuf : rx.recvBuf = taken.map (·.1)
  pending : Carries rx.consumed taken rx.pendingFds
  sound : rx.poisoned = none

theorem RecvSide.holds_new : Holds (new : RecvSide φ) [] := ⟨rfl, carries_nil 0, rfl⟩

def Message.frame (msg : Message φ) : Frame φ := ⟨msg.bytes, msg.fd⟩

namespace RecvSide

variable {rx : RecvSide φ} {t : List (Cell UInt8 φ)}

theorem nextFrame_whole {f : Frame φ} (hf : f.Valid) (h : rx.Holds (f.cells ++ t)) :
    ∃ m r', rx.nextFrame = some (.ok m, r') ∧ m.frame = f ∧ r'.Holds t := by
  obtain ⟨header, hde, hsi, hc, hfd⟩ := hf.header
  have hlo := hf.header_le
  have hb : rx.recvBuf = f.bytes ++ t.map (·.1) := by
    rw [h.recvBuf, List.map_append, Frame.cells, map_fst_laden]
  have hfr : FrameHeader.decode rx.recvBuf = .ok header := by
    rw [hb, FrameHeader.decode_append hlo, hde]
  have hfi : f.bytes.length ≤ rx.recvBuf.length := by
    rw [hb, List.length_append]
    exact Nat.le_add_right _ _
  have ht : rx.recvBuf.take header.size.toNat = f.bytes := by rw [hb, hsi, List.take_left]
  have hd : rx.recvBuf.drop header.size.toNat = t.map (·.1) := by rw [hb, hsi, List.drop_left]
  -- What is pending behind the frame was brought by reads that went beyond it.
  have hr {p : List (Span φ)} (hp : Carries (rx.consumed + header.size.toNat) t p)
      (m : Message φ) :
      release { rx with recvBuf := rx.recvBuf.drop header.size.toNat, consumed := rx.consumed + header.size.toNat,
                        pendingFds := p } m (rx.consumed + header.size.toNat) =
        (.ok m, { rx with recvBuf := rx.recvBuf.drop header.size.toNat,
                            consumed := rx.consumed + header.size.toNat, pendingFds := p }) := by
    cases p with
    | nil => rfl
    | cons fr res => exact if_neg (Nat.not_le_of_lt hp.spanEnd_gt)
  have hn : rx.nextFrame = some (rx.takeFrame header) := by
    unfold nextFrame
    rw [hfr]
    dsimp only
    rw [if_neg (by omega), if_neg (Nat.not_lt.mpr hc), if_neg (by omega)]
  rw [hn]
  have hp := h.pending
  unfold takeFrame
  cases ha : f.fd with
  | none =>
    have hon : header.fdCount ≠ 1 := fun hon => by simpa [ha] using hfd.mp hon
    rw [Frame.cells, ha] at hp
    have hl := hp.laden_none
    rw [← hsi] at hl
    rw [if_neg hon]
    refine ⟨_, _, congrArg some (hr hl _), ?_, ⟨hd, hl, h.sound⟩⟩
    rw [Message.frame, ht, ← ha]
  | some x =>
    rw [Frame.cells, ha] at hp
    obtain ⟨s, res, hq, hs, hst, hl⟩ := hp.laden_some hf.ne_nil
    rw [← hsi] at hl
    rw [if_pos (hfd.mpr (by rw [ha]; rfl)), hq]
    dsimp only
    rw [if_pos hst]
    refine ⟨_, _, congrArg some (hr hl _), ?_, ⟨hd, hl, h.sound⟩⟩
    rw [Message.frame, ht, hs, ← ha]

theorem nextFrame_piece (ht : Torn t) (h : rx.recvBuf = t.map (·.1)) : rx.nextFrame = none := by
  rcases ht with rfl | ⟨f, hf, hpi, hs⟩
  · unfold nextFrame
    rw [h]
    rfl
  · obtain ⟨header, hd, hsi, hc, -⟩ := hf.header
    have hp : t.map (·.1) = f.bytes.take t.length := by
      rw [List.prefix_iff_eq_take.mp hpi, Frame.cells, take_laden, map_fst_laden, length_laden, List.length_take,
        ← List.take_eq_take_min]
    have hl : rx.recvBuf.length = t.length := by rw [h, length_map]
    unfold nextFrame
    by_cases hh : headerLen ≤ t.length
    · have hfr : FrameHeader.decode rx.recvBuf = .ok header := by
        rw [← hd, ← List.take_append_drop t.length f.bytes, ← hp, ← h, FrameHeader.decode_append (hl ▸ hh)]
      rw [hfr]
      dsimp only
      rw [if_neg (by omega), if_neg (Nat.not_lt.mpr hc), if_pos (by omega)]
    · rw [FrameHeader.decode, if_pos (by omega)]

theorem nextFrame_torn (ht : Torn t) (h : rx.Holds t) : rx.nextFrame = none ∧ rx.pendingFds.length ≤ 1 := by
  refine ⟨nextFrame_piece ht h.recvBuf, ?_⟩
  rw [h.pending.length]
  rcases ht with rfl | ⟨f, -, hp, -⟩
  · exact Nat.zero_le 1
  · rw [List.prefix_iff_eq_take.mp hp, Frame.cells, take_laden]
    exact length_attached_laden_le

theorem queueFds_of_room {f : List φ} (hr : rx.pendingFds.length + f.length ≤ maxUnclaimedFds)
    (ss se : Nat) : rx.queueFds ss se f =
      (.ok (), { rx with pendingFds := rx.pendingFds ++ f.map (⟨ss, se, ·⟩) }) := by
  induction f generalizing rx with
  | nil => simp [queueFds]
  | cons fd f ih =>
    rw [List.length_cons] at hr
    unfold queueFds
    rw [if_neg (by omega), ih (by rw [List.length_append, List.length_singleton]; omega), append_assoc]
    rfl

theorem fill_of_room {d : Delivery φ} (hr : rx.pendingFds.length + d.fds.length ≤ maxUnclaimedFds)
    (hw : d.truncated = false) : ∃ n, rx.fill (.delivery d) = (.ok (n + 1), rx.arrive d) := by
  obtain ⟨n, hn⟩ := Nat.exists_eq_succ_of_ne_zero (List.length_pos_iff.mpr d.nonempty).ne'
  refine ⟨n, ?_⟩
  unfold fill
  dsimp only
  rw [hw, if_neg Bool.false_ne_true, queueFds_of_room hr, ← Nat.succ_eq_add_one, ← hn]
  rfl

theorem Holds.arrive (h : rx.Holds t) {m : List (Cell UInt8 φ)} {d : Delivery φ}
    (hb : d.bytes = m.map (·.1)) (hf : d.fds = attached m) : (rx.arrive d).Holds (t ++ m) where
  recvBuf := by
    unfold RecvSide.arrive
    rw [h.recvBuf, hb, List.map_append]
  pending := by
    have hl := h.pending.append m
    unfold RecvSide.arrive
    rw [hb, hf, h.recvBuf, length_map, length_map]
    exact hl
  sound := h.sound

end RecvSide

/-! ### The channel -/

/-- What the kernel does at a `recvmsg`. -/
inductive Read where
  /-- Deliver up to this much of what the channel allows. -/
  | upTo (n : Nat)
  | eof
  | err (kind : ErrorKind)
  deriving DecidableEq

/-- `recvmsg` on the channel, into a buffer of the largest frame's size. -/
def channelKernel : Machine (List (Segment UInt8 φ)) Read (Received φ) := fun channel read => match read with
  | .upTo n =>
    if h : (recv (min n maxMessageSize) channel).1 = [] then (channel, .err .wouldBlock)
    else ((recv (min n maxMessageSize) channel).2,
      .delivery
        { bytes := (recv (min n maxMessageSize) channel).1.map (·.1)
          fds := attached (recv (min n maxMessageSize) channel).1
          truncated := false
          nonempty := by simpa using h })
  | .eof => (channel, .eof)
  | .err kind => (channel, .err kind)

/-- What the channel delivers next: cells from its front with at most one descriptor, or nothing. -/
theorem channelKernel_cases (channel : List (Segment UInt8 φ)) (r : Read) :
    (∃ m d, (channelKernel channel r).2 = .delivery d ∧ d.bytes = m.map (·.1) ∧ d.fds = attached m ∧
      d.truncated = false ∧ (attached m).length ≤ 1 ∧
      m ++ cells (channelKernel channel r).1 = cells channel) ∨
    ((channelKernel channel r).1 = channel ∧
      ((channelKernel channel r).2 = .eof ∨ ∃ k, (channelKernel channel r).2 = .err k)) := by
  cases r with
  | eof => exact .inr ⟨rfl, .inl rfl⟩
  | err k => exact .inr ⟨rfl, .inr ⟨k, rfl⟩⟩
  | upTo n =>
    unfold channelKernel
    dsimp only
    split
    · exact .inr ⟨rfl, .inr ⟨_, rfl⟩⟩
    · exact .inl ⟨_, _, rfl, rfl, rfl, rfl, recv_attached, recv_cells⟩

/-- What is before the receiver: `taken` is in its hands, the channel comes next, and all of it is a beginning of these
frames and perhaps a piece of one. -/
structure Before (frames : List (Frame φ)) (piece : List (Cell UInt8 φ)) (rest : List (Cell UInt8 φ))
    (channel : List (Segment UInt8 φ)) (rx : RecvSide φ) : Prop where
  valid : ∀ f ∈ frames, f.Valid
  torn : Torn piece
  holds : ∃ taken, rx.Holds taken ∧ taken ++ cells channel ++ rest = frames.flatMap Frame.cells ++ piece

/-- How receiving ends when a compliant peer sends: with the next frame, or without one, but never with a violation. -/
inductive Receives (frames : List (Frame φ)) (piece rest : List (Cell UInt8 φ)) :
    Except TransportError (Option (Message φ)) → RecvSide φ → List (Segment UInt8 φ) → Prop
  | frame {msg : Message φ} {later : List (Frame φ)} {rx : RecvSide φ} {channel : List (Segment UInt8 φ)}
      (hframes : frames = msg.frame :: later) (h : Before later piece rest channel rx) :
      Receives frames piece rest (.ok (some msg)) rx channel
  | nothing {result : Except TransportError (Option (Message φ))} {rx : RecvSide φ} {channel : List (Segment UInt8 φ)}
      (h : Before frames piece rest channel rx) (hresult : ∀ msg, result ≠ .ok (some msg))
      (hblameless : ∀ v, result ≠ .error (.peerViolation v)) : Receives frames piece rest result rx channel

namespace Before

variable {fr : List (Frame φ)} {p res : List (Cell UInt8 φ)} {c : List (Segment UInt8 φ)}
  {rx : RecvSide φ}

variable (h : Before fr p res c rx)

include h

/-- There is a whole frame in the receiver's hands and it is the next, or there is none and room for a descriptor. -/
theorem front : (∃ m r' l, rx.nextFrame = some (.ok m, r') ∧ fr = m.frame :: l ∧ Before l p res c r') ∨
    (rx.nextFrame = none ∧ rx.pendingFds.length ≤ 1) := by
  obtain ⟨ta, hh, hs⟩ := h.holds
  have hb : ta <+: fr.flatMap Frame.cells ++ p := by
    rw [← hs, append_assoc]
    exact List.prefix_append _ _
  rcases front_of_stream h.valid h.torn hb with ⟨f, l, t', rfl, rfl, -⟩ | ht
  · obtain ⟨m, r', hn, rfl, hh'⟩ := nextFrame_whole (h.valid f mem_cons_self) hh
    refine .inl ⟨m, r', l, hn, rfl, fun g hg => h.valid g (.tail _ hg), h.torn, t', hh', ?_⟩
    simpa using hs
  · exact .inr (nextFrame_torn ht hh)

/-- Where there is no whole frame, the buffer is shorter than the largest one and at most one descriptor waits. -/
theorem short
    (hn : rx.nextFrame = none) : rx.recvBuf.length < maxMessageSize ∧ rx.pendingFds.length ≤ 1 := by
  obtain ⟨ta, hh, hst⟩ := h.holds
  have hb : ta <+: fr.flatMap Frame.cells ++ p := by
    rw [← hst, append_assoc]
    exact List.prefix_append _ _
  rcases front_of_stream h.valid h.torn hb with ⟨f, l, t', rfl, rfl, -⟩ | ht
  · obtain ⟨m, r', hso, -, -⟩ := nextFrame_whole (h.valid f mem_cons_self) hh
    cases hn.symm.trans hso
  · refine ⟨?_, (nextFrame_torn ht hh).2⟩
    rw [hh.recvBuf, length_map]
    rcases ht with rfl | ⟨f, hf, -, hs⟩
    · exact Nat.lt_of_lt_of_le (Nat.succ_pos 0) (by decide)
    · exact hs.trans_le hf.le_max

/-- A `recvmsg` moves cells from the channel into the receiver's hands, or does nothing. -/
theorem fill (hfe : rx.pendingFds.length ≤ 1) (r : Read) :
    (∃ n r', rx.fill (channelKernel c r).2 = (.ok (n + 1), r') ∧ Before fr p res (channelKernel c r).1 r') ∨
    ((channelKernel c r).1 = c ∧ (rx.fill (channelKernel c r).2 = (.ok 0, rx) ∨
        ∃ k, rx.fill (channelKernel c r).2 = (.error (.io k), rx))) := by
  rcases channelKernel_cases c r with
    ⟨m, d, ha, hb, hf, hw, hon, hc⟩ | ⟨hs, ha⟩
  · obtain ⟨ta, hh, hst⟩ := h.holds
    have hr : rx.pendingFds.length + d.fds.length ≤ maxUnclaimedFds := by
      rw [hf]
      unfold maxUnclaimedFds
      omega
    obtain ⟨n, hfi⟩ := fill_of_room hr hw
    refine .inl ⟨n, rx.arrive d, ha ▸ hfi, h.valid, h.torn, ta ++ m, hh.arrive hb hf, ?_⟩
    rw [append_assoc ta, hc, hst]
  · refine .inr ⟨hs, ?_⟩
    rcases ha with ha | ⟨k, ha⟩
    · exact .inl (ha ▸ rfl)
    · exact .inr ⟨k, ha ▸ rfl⟩

end Before

variable {channel : List (Segment UInt8 φ)} {fr : List (Frame φ)}

theorem recvLoop_receives {p res : List (Cell UInt8 φ)} {rx : RecvSide φ} (h : Before fr p res channel rx)
    (r : List Read) : let t := rx.recvLoop channelKernel channel r
    Receives fr p res t.1 t.2.1 t.2.2.1 := by
  induction r generalizing rx channel with
  | nil =>
    rcases h.front with ⟨m, r', l, hn, hfr, hl⟩ | ⟨hn, -⟩
    · rw [recvLoop_taken hn]
      exact .frame hfr hl
    · rw [recvLoop_nil hn]
      exact .nothing h (fun _ => nofun) (fun _ => nofun)
  | cons re r ih =>
    rcases h.front with ⟨m, r', l, hn, hfr, hl⟩ | ⟨hn, hfe⟩
    · rw [recvLoop_taken hn]
      exact .frame hfr hl
    · rw [recvLoop_cons hn]
      rcases h.fill hfe re with ⟨n, r', hf, ha⟩ | ⟨hs, hf | ⟨k, hf⟩⟩
      · rw [hf]
        exact ih ha
      · rw [hf, hs]
        refine .nothing h (fun _ => ?_) (fun _ => ?_)
        · dsimp only
          split <;> nofun
        · dsimp only
          split <;> nofun
      · rw [hf, hs]
        exact .nothing h (fun _ => nofun) (fun _ => nofun)

theorem recvMessage_receives {p res : List (Cell UInt8 φ)} {rx : RecvSide φ}
    (h : Before fr p res channel rx) (r : List Read) : let t := rx.recvMessage channelKernel channel r
    Receives fr p res t.1 t.2.1 t.2.2.1 := by
  obtain ⟨ta, hh, -⟩ := h.holds
  unfold recvMessage
  rw [hh.sound]
  exact recvLoop_receives h r

/-! ### Runs -/

/-- The send side of one end, the channel, and the receive side of the other end. -/
structure Link (φ : Type u) where
  tx : SendSide φ
  channel : List (Segment UInt8 φ)
  rx : RecvSide φ

def Link.new : Link φ := ⟨.new, [], .new⟩

/-- A call at one of the ends, and the kernel's answers to it; `dup` is the error if a descriptor cannot be
duplicated. -/
inductive LinkOp (φ : Type u) where
  | send (frame : Frame φ) (dup : Option ErrorKind) (script : List Wrote)
  | flush (script : List Wrote)
  | recv (reads : List Read)

inductive LinkOut (φ : Type u) where
  | sent (frame : Frame φ) (result : Except TransportError Unit) (wire : List (Segment UInt8 φ))
  | flushed (result : Except TransportError Unit) (wire : List (Segment UInt8 φ))
  | received (result : Except TransportError (Option (Message φ)))

def linkStep : Machine (Link φ) (LinkOp φ) (LinkOut φ) := fun s op => match op with
  | .send frame dup script =>
    let sent := s.tx.sendOrQueue frame.bytes frame.fd dup script
    ({ s with tx := sent.side, channel := s.channel ++ sent.wire }, .sent frame sent.result sent.wire)
  | .flush script =>
    let sent := s.tx.flushSendQueue script
    ({ s with tx := sent.side, channel := s.channel ++ sent.wire }, .flushed sent.result sent.wire)
  | .recv reads =>
    let (result, rx, channel, _) := s.rx.recvMessage channelKernel s.channel reads
    ({ s with rx, channel }, .received result)

namespace LinkOut

def accepted : LinkOut φ → List (Frame φ)
  | .sent frame (.ok ()) _ => [frame]
  | _ => []

def delivered : LinkOut φ → List (Frame φ)
  | .received (.ok (some msg)) => [msg.frame]
  | _ => []

def wire : LinkOut φ → List (Segment UInt8 φ)
  | .sent _ _ wire => wire
  | .flushed _ wire => wire
  | .received _ => []

/-- A send or a flush failed, other than by contradicting itself. -/
def Fails : LinkOut φ → Prop
  | .sent _ (.error (.localMisuse _)) _ => False
  | .sent _ (.error _) _ => True
  | .flushed (.error _) _ => True
  | _ => False

end LinkOut

def acceptedIn (outs : List (LinkOut φ)) : List (Frame φ) := outs.flatMap LinkOut.accepted

def deliveredIn (outs : List (LinkOut φ)) : List (Frame φ) := outs.flatMap LinkOut.delivered

def wireIn (outs : List (LinkOut φ)) : List (Segment UInt8 φ) := outs.flatMap LinkOut.wire

/-- The kernel takes at least a byte whenever it takes something. -/
def LinkOp.Progresses : LinkOp φ → Prop
  | .send _ _ script => SendSide.Progress script
  | .flush _ => True
  | .recv _ => True

def LinkOp.Duplicates : LinkOp φ → Prop
  | .send _ dup _ => dup = none
  | .flush _ => True
  | .recv _ => True

/-- The run so far: the sender feeds the stream, and the receiver has returned a beginning of what was accepted and has
the rest before it. -/
structure Faithful (accepted delivered : List (Frame φ)) (s : Link φ) : Prop where
  feeds : ∃ wire, Feeds accepted wire s.tx ∧ ∃ taken, s.rx.Holds taken ∧
    delivered.flatMap Frame.cells ++ taken ++ cells s.channel = wire
  begun : delivered <+: accepted

theorem faithful_new : Faithful [] [] (Link.new : Link φ) := ⟨⟨[], feeds_new, [], holds_new, rfl⟩, List.nil_prefix⟩

namespace Faithful

variable {a d : List (Frame φ)} {s : Link φ}

theorem grows (h : Faithful a d s) {tx : SendSide φ} {w : List (Segment UInt8 φ)} {m : List (Frame φ)}
    (hf : ∀ b, Feeds a b s.tx → Feeds (a ++ m) (b ++ cells w) tx) :
    Faithful (a ++ m) d { s with tx, channel := s.channel ++ w } := by
  obtain ⟨b, hb, ta, hh, hs⟩ := h.feeds
  refine ⟨⟨b ++ cells w, hf b hb, ta, hh, ?_⟩, h.begun.trans (List.prefix_append _ _)⟩
  rw [cells_append, ← append_assoc, hs]

/-- The receiving end did something: no violation is reported, and a frame it returned is the next one. -/
theorem receives (h : Faithful a d s) (r : List Read) : let t := s.rx.recvMessage channelKernel s.channel r
    Faithful a (d ++ (LinkOut.received t.1).delivered) { s with rx := t.2.1, channel := t.2.2.1 } ∧
      ∀ v, t.1 ≠ .error (.peerViolation v) := by
  intro t
  obtain ⟨w, hfe, ta, hh, hst⟩ := h.feeds
  obtain ⟨l, rfl⟩ := h.begun
  obtain ⟨p, hal, ht, -⟩ := hfe.stream
  have hb : Before l p s.tx.cells s.channel s.rx := by
    refine ⟨fun f hf => hfe.valid f (List.mem_append_right _ hf), ht, ta, hh, ?_⟩
    rw [← hst, List.flatMap_append] at hal
    simpa using hal
  -- What is before the receiver then, behind what it has returned then, is what was before it.
  have hs {fr now : List (Frame φ)} (hn : l = now ++ fr)
      (ha : Before fr p s.tx.cells t.2.2.1 t.2.1) :
      Faithful (d ++ l) (d ++ now) { s with rx := t.2.1, channel := t.2.2.1 } := by
    obtain ⟨t', hh', hs'⟩ := ha.holds
    refine ⟨⟨w, hfe, t', hh', ?_⟩, ⟨fr, by rw [hn, append_assoc]⟩⟩
    have hw : (d ++ now).flatMap Frame.cells ++ t' ++ cells t.2.2.1 ++ s.tx.cells =
        w ++ s.tx.cells := by
      rw [hal, hn]
      simp [← hs']
    exact List.append_cancel_right hw
  have hr := recvMessage_receives hb r
  change Receives l p s.tx.cells t.1 t.2.1 t.2.2.1 at hr
  generalize t.1 = result at hr
  cases hr with
  | frame hfr ha => exact ⟨hs hfr ha, fun _ => nofun⟩
  | nothing ha hre hbl =>
    have hno : (LinkOut.received result : LinkOut φ).delivered = [] := by
      unfold LinkOut.delivered
      split
      · next msg he => exact absurd (LinkOut.received.inj he) (hre msg)
      · rfl
    rw [hno]
    exact ⟨hs rfl ha, hbl⟩

end Faithful

variable {s : Link φ}

theorem linkStep_faithful {ac de : List (Frame φ)} (h : Faithful ac de s) {op : LinkOp φ}
    (hp : op.Progresses) :
    Faithful (ac ++ (linkStep s op).2.accepted) (de ++ (linkStep s op).2.delivered) (linkStep s op).1 ∧
      ∀ v, (linkStep s op).2 ≠ .received (.error (.peerViolation v)) := by
  cases op with
  | send f du sc =>
    refine ⟨?_, fun _ => nofun⟩
    have ha : (linkStep s (.send f du sc)).2.accepted =
        (s.tx.sendOrQueue f.bytes f.fd du sc).frame f := by
      change LinkOut.accepted (.sent f (s.tx.sendOrQueue f.bytes f.fd du sc).result _) = _
      unfold Sent.frame
      cases (s.tx.sendOrQueue f.bytes f.fd du sc).result <;> rfl
    change Faithful _ (de ++ []) _
    rw [ha, append_nil]
    exact h.grows fun b hb => hb.send f du hp
  | flush sc =>
    refine ⟨?_, fun _ => nofun⟩
    change Faithful (ac ++ []) (de ++ []) _
    rw [append_nil de]
    exact h.grows fun b hb => by
      rw [append_nil]
      exact hb.flush sc
  | recv r =>
    obtain ⟨hf, hbl⟩ := h.receives r
    refine ⟨?_, fun v hv => hbl v (LinkOut.received.inj hv)⟩
    change Faithful (ac ++ []) _ _
    rw [append_nil]
    exact hf

theorem faithful_run (ops : List (LinkOp φ)) (hp : ∀ op ∈ ops, op.Progresses) :
    Faithful (acceptedIn (linkStep.outs .new ops)) (deliveredIn (linkStep.outs .new ops)) (linkStep.exec .new ops) ∧
      ∀ o ∈ linkStep.outs (.new : Link φ) ops, ∀ v, o ≠ .received (.error (.peerViolation v)) := by
  refine linkStep.exec_past (P := fun ops s => (∀ op ∈ ops, op.Progresses) →
    Faithful (acceptedIn (linkStep.outs .new ops)) (deliveredIn (linkStep.outs .new ops)) s ∧
      ∀ o ∈ linkStep.outs (.new : Link φ) ops, ∀ v, o ≠ .received (.error (.peerViolation v)))
    (fun _ => ⟨faithful_new, fun _ hou => nomatch hou⟩) ?_ ops hp
  intro p op hpa hp
  obtain ⟨hf, hb⟩ := hpa fun o' hop => hp o' (List.mem_append_left _ hop)
  obtain ⟨hs, hn⟩ := linkStep_faithful hf (hp op (List.mem_append_right _ mem_cons_self))
  rw [linkStep.outs_append]
  constructor
  · simpa [acceptedIn, deliveredIn] using hs
  · intro o hou
    rcases List.mem_append.mp hou with hou | hou
    · exact hb o hou
    · exact List.mem_singleton.mp hou ▸ hn

/-! ### After a failure -/

theorem linkStep_fails (hc : s.tx.Counted) {op : LinkOp φ} (hdu : op.Duplicates)
    (hf : (linkStep s op).2.Fails) : (linkStep s op).1.tx.Dead := by
  cases op with
  | recv r => exact hf.elim
  | flush sc =>
    obtain ⟨-, -, he⟩ := SendSide.flushSendQueue_spec hc sc
    rcases he with ⟨hok, -⟩ | ⟨k, -, hp⟩
    · change LinkOut.Fails (.flushed (s.tx.flushSendQueue sc).result _) at hf
      rw [hok] at hf
      exact hf.elim
    · refine .inr ?_
      change (s.tx.flushSendQueue sc).side.sendPoisoned.isSome
      rw [hp]
      rfl
  | send f du sc =>
    change LinkOut.Fails (.sent f (s.tx.sendOrQueue f.bytes f.fd du sc).result _) at hf
    cases SendSide.sendOrQueue_outcome hc f du sc with
    | accepted hr _ _ _ | misuse hr _ _ =>
      rw [hr] at hf
      exact hf.elim
    | failed _ _ hd | torn _ _ _ _ _ _ hd => exact hd
    | forgotten _ hfa _ => cases hfa.symm.trans hdu

theorem linkStep_dead (hc : s.tx.Counted) (hd : s.tx.Dead) (op : LinkOp φ) :
    (linkStep s op).1.tx.Dead ∧ (linkStep s op).1.tx.Counted ∧
    cells (linkStep s op).2.wire ++ (linkStep s op).1.tx.cells = s.tx.cells ∧
    ∀ fr re wi, (linkStep s op).2 = .sent fr re wi → wi = [] ∧ ∃ e, re = .error e := by
  cases op with
  | recv rea => exact ⟨hd, hc, rfl, fun _ _ _ => nofun⟩
  | flush sc =>
    obtain ⟨hco, hover, he⟩ := SendSide.flushSendQueue_spec hc sc
    refine ⟨?_, hco.counted, (hco.stream trivial).trans (append_nil _), fun _ _ _ => nofun⟩
    rcases hd with hd | hd
    · exact .inl (hover.trans hd)
    · rcases he with ⟨-, hs⟩ | ⟨k, -, hp⟩
      · exact .inr ((congrArg Option.isSome hs).trans hd)
      · exact .inr (congrArg Option.isSome hp)
  | send fr du sc =>
    obtain ⟨hsi, hw, e, hr⟩ := SendSide.sendOrQueue_dead hd fr.bytes fr.fd du sc
    have ht : (linkStep s (.send fr du sc)).1.tx = s.tx := hsi
    have hn : (linkStep s (.send fr du sc)).2.wire = [] := hw
    rw [ht, hn]
    refine ⟨hd, hc, rfl, ?_⟩
    intro f r w heq
    obtain ⟨-, rfl, rfl⟩ := LinkOut.sent.inj heq
    exact ⟨hw, e, hr⟩

/-- Whatever follows a failure: no send succeeds or writes, and all that is written was parked when it happened. -/
theorem dead_run (hco : s.tx.Counted) (hd : s.tx.Dead) (ops : List (LinkOp φ)) :
    (∀ f r w, .sent f r w ∈ linkStep.outs s ops → w = [] ∧ ∃ e, r = .error e) ∧
    cells (wireIn (linkStep.outs s ops)) <+: s.tx.cells := by
  induction ops generalizing s with
  | nil => exact ⟨fun _ _ _ h => (nomatch h), List.nil_prefix⟩
  | cons op ops ih =>
    obtain ⟨hd', hc', hc, hs⟩ := linkStep_dead hco hd op
    obtain ⟨hr, hw⟩ := ih hc' hd'
    constructor
    · intro f r w hm
      rcases List.mem_cons.mp hm with hm | hm
      · exact hs f r w hm.symm
      · exact hr f r w hm
    · change cells ((linkStep s op).2.wire ++ wireIn (linkStep.outs (linkStep s op).1 ops)) <+: _
      rw [cells_append, ← hc]
      exact (List.prefix_append_right_inj _).mpr hw

theorem SendSide.Counted.counters {tx : SendSide φ} (h : tx.Counted) :
    tx.queuedSendBytes = (tx.sendQueue.map fun q => (q.bytes.drop q.offset).length).sum ∧
    tx.queuedSendFds = (tx.sendQueue.filterMap (·.fd)).length := by
  have hfds : ∀ qu : List (QueuedFrame φ), (∀ q ∈ qu, q.Parked) →
      attached (qu.flatMap QueuedFrame.cells) = qu.filterMap (·.fd) := by
    intro qu hqu
    induction qu with
    | nil => rfl
    | cons q qu ih =>
      have hq := hqu q mem_cons_self
      have hn : q.bytes.drop q.offset ≠ [] := mt List.drop_eq_nil_iff.mp hq.unsent.not_ge
      rw [List.flatMap_cons, attached_append, ih fun q' hq' => hqu q' (.tail _ hq'),
        QueuedFrame.cells, attached_laden _ hn]
      cases hf : q.fd with
      | none => rw [List.filterMap_cons_none hf]; rfl
      | some x => rw [List.filterMap_cons_some hf]; rfl
  constructor
  · rw [h.bytes, cells, List.length_flatMap]
    simp [QueuedFrame.cells]
  · rw [h.fds, cells, hfds tx.sendQueue h.parked]

/-- **The transport carries frames and descriptors faithfully.** In any interleaving of sends, flushes and receives,
whatever parts the kernel takes or delivers and wherever it fails: the receiver reports no violation and has returned a
beginning of the frames whose send succeeded, each with its bytes and its descriptor; the counters of the send queue are
what it holds and within their caps. If descriptors can be duplicated, then after a send or flush that failed no send
succeeds or writes anything, and what flushes still write was parked at that time. -/
theorem transport_faithful (ops : List (LinkOp φ)) (hprogress : ∀ op ∈ ops, op.Progresses) :
    let s := linkStep.exec (.new : Link φ) ops
    let o := linkStep.outs (.new : Link φ)
    (∀ ou ∈ o ops, ∀ v, ou ≠ .received (.error (.peerViolation v))) ∧
    deliveredIn (o ops) <+: acceptedIn (o ops) ∧
    (s.tx.queuedSendBytes = (s.tx.sendQueue.map fun q => (q.bytes.drop q.offset).length).sum ∧
      s.tx.queuedSendFds = (s.tx.sendQueue.filterMap (·.fd)).length ∧
      s.tx.queuedSendBytes ≤ maxSendQueueBytes ∧ s.tx.queuedSendFds ≤ maxSendQueueFds) ∧
    ((∀ op ∈ ops, op.Duplicates) → ∀ p op res, ops = p ++ op :: res →
      (linkStep (linkStep.exec .new p) op).2.Fails →
      let a := linkStep.exec (.new : Link φ) (p ++ [op])
      (∀ f r w, .sent f r w ∈ linkStep.outs a res → w = [] ∧ ∃ e, r = .error e) ∧
      cells (wireIn (linkStep.outs a res)) <+: a.tx.cells) := by
  obtain ⟨hfa, hbl⟩ := faithful_run ops hprogress
  obtain ⟨w, hf, -⟩ := hfa.feeds
  have hc := hf.counted.counters
  refine ⟨hbl, hfa.begun,
    ⟨hc.1, hc.2, hf.counted.bytesCap, hf.counted.fdsCap⟩, ?_⟩
  intro hdu p op res he hfai a
  have hop : op ∈ ops := he ▸ List.mem_append_right _ mem_cons_self
  obtain ⟨hp, -⟩ := faithful_run p fun o' ho' => hprogress o' (he ▸ List.mem_append_left _ ho')
  obtain ⟨w', hb, -⟩ := hp.feeds
  have ha : a = (linkStep (linkStep.exec .new p) op).1 := linkStep.exec_concat _ _ _
  have hd := linkStep_fails hb.counted (hdu op hop) hfai
  obtain ⟨hn, -⟩ := linkStep_faithful hp (hprogress op hop)
  obtain ⟨w'', hl, -⟩ := hn.feeds
  rw [ha]
  exact dead_run hl.counted hd res

/-- A frame of eight bytes that declares a descriptor. -/
def ladenFrame : Frame Nat := ⟨[1, 0, 0, 0, 8, 0, 0, 1], some 5⟩

/-- A frame sent in two pieces and received in two pieces. -/
def carried : List (LinkOp Nat) :=
  [.send ladenFrame none [.ok 3, .err .wouldBlock], .flush [.ok 5], .recv [.upTo 6, .upTo 6]]

theorem transport_faithful_carried : deliveredIn (linkStep.outs .new carried) = [ladenFrame] ∧
    deliveredIn (linkStep.outs .new carried) <+: acceptedIn (linkStep.outs .new carried) := by
  refine ⟨by decide +kernel, (transport_faithful carried ?_).2.1⟩
  simp [carried, LinkOp.Progresses, SendSide.Progress]

/-- The kernel would block, the descriptor cannot be duplicated for the queue, and the send fails; but the next frame is
written as if nothing had happened. -/
theorem dup_failure_forgotten : let fails : LinkOp Nat := .send ladenFrame (some (.other 24)) [.err .wouldBlock]
    let f : LinkOp Nat := .send ⟨bareFrame, none⟩ none [.ok 8]
    (linkStep .new fails).2.Fails ∧
    acceptedIn (linkStep.outs .new [fails, f]) = [⟨bareFrame, none⟩] ∧
    (cells (wireIn (linkStep.outs .new [fails, f]))).map (·.1) = bareFrame :=
  ⟨trivial, by decide +kernel, by decide +kernel⟩

end Vitrin.Ipc
