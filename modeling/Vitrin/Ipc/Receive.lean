import Vitrin.Ipc.Connection

/-!
# What a hostile peer can do to the receiving side

The peer writes any bytes and attaches descriptors wherever it likes, any number of them
at a time, and the kernel cuts the stream anywhere. The receiver sees only which
descriptors came with which `recvmsg`. This module says what holds of the frames it gives
out all the same.

A run is a list of calls of `recvMessage`, each with the kernel's answers (`recvStep`); a
call's output has its result and the answers it used. `stream` is what those answers
delivered, `arrivals` the descriptors they delivered, each with the span of its `recvmsg`.
`slice` cuts one frame off a stream by its size field and `Slices` cuts several.

The invariant of `hostile_peer` is `Follows`; a `recvmsg` keeps it (`Follows.appended`),
taking a frame keeps it (`Follows.takes`), and so does a call (`recvLoop_ends`), unless it
reports a violation, which has a `Cause` in what the peer sent.
-/

namespace Vitrin.Ipc

open Lib Protocol RecvSide FrameHeader
open List (length_append append_assoc append_nil)

universe u v w

variable {φ : Type u}

/-! ### Cutting a stream by the size field -/

/-- The frame at the front of a stream, if there is a whole one, and the rest. -/
def slice (stream : List UInt8) : Option (List UInt8 × List UInt8) := match FrameHeader.decode stream with
  | .error _ => none
  | .ok header =>
    if headerLen ≤ header.size.toNat ∧ header.size.toNat ≤ stream.length then
      some (stream.take header.size.toNat, stream.drop header.size.toNat)
    else none

/-- These frames, one after the other, are what the size fields cut off the stream, and this is left. -/
def Slices : List (List UInt8) → List UInt8 → List UInt8 → Prop
  | [], stream, rest => stream = rest
  | f :: fs, stream, rest => ∃ tail, slice stream = some (f, tail) ∧ Slices fs tail rest

theorem slice_append {s f t : List UInt8} (h : slice s = some (f, t)) (m : List UInt8) :
    slice (s ++ m) = some (f, t ++ m) := by
  unfold slice at h ⊢
  cases hd : decode s with
  | error e =>
    rw [hd] at h
    cases h
  | ok header =>
    rw [hd] at h
    dsimp only at h
    split at h
    · next hs =>
      obtain ⟨rfl, rfl⟩ := Prod.mk.inj (Option.some.inj h)
      have hl : headerLen ≤ s.length := hs.1.trans hs.2
      have hf : headerLen ≤ header.size.toNat ∧ header.size.toNat ≤ (s ++ m).length :=
        ⟨hs.1, by rw [length_append]; omega⟩
      rw [decode_append hl, hd]
      dsimp only
      rw [if_pos hf, List.take_append_of_le_length hs.2, List.drop_append_of_le_length hs.2]
    · cases h

variable {fs : List (List UInt8)}

theorem Slices.append {s r : List UInt8} (h : Slices fs s r) (m : List UInt8) : Slices fs (s ++ m) (r ++ m) := by
  induction fs generalizing s with
  | nil => exact congrArg (· ++ m) h
  | cons f fs ih =>
    obtain ⟨t, hs, hr⟩ := h
    exact ⟨t ++ m, slice_append hs m, ih hr⟩

theorem Slices.concat {s r f t : List UInt8} (h : Slices fs s r)
    (hs : slice r = some (f, t)) : Slices (fs ++ [f]) s t := by
  induction fs generalizing s with
  | nil => exact ⟨t, h ▸ hs, rfl⟩
  | cons g fs ih =>
    obtain ⟨m, hg, hr⟩ := h
    exact ⟨m, hg, ih hr⟩

/-! ### What a `recvmsg` brings -/

/-- The bytes the kernel's answers delivered. -/
def stream : List (Received φ) → List UInt8
  | [] => []
  | .delivery d :: answers => d.bytes ++ stream answers
  | _ :: answers => stream answers

/-- The descriptors the kernel's answers delivered, each with the span of its `recvmsg`. -/
def arrivals (off : Nat) : List (Received φ) → List (Span φ)
  | [] => []
  | .delivery d :: answers =>
    d.fds.map (⟨off, off + d.bytes.length, ·⟩) ++ arrivals (off + d.bytes.length) answers
  | _ :: answers => arrivals off answers

theorem stream_append (as bs : List (Received φ)) : stream (as ++ bs) = stream as ++ stream bs := by
  induction as with
  | nil => rfl
  | cons a as ih => cases a <;> simp [stream, ih]

theorem arrivals_append (o : Nat) (as bs : List (Received φ)) :
    arrivals o (as ++ bs) = arrivals o as ++ arrivals (o + (stream as).length) bs := by
  induction as generalizing o with
  | nil => rfl
  | cons a as ih => cases a <;> simp [arrivals, stream, ih, Nat.add_assoc]

theorem arrivals_sorted (o : Nat) (as : List (Received φ)) :
    (arrivals o as).Pairwise (fun s t => s.spanEnd ≤ t.spanEnd) ∧ ∀ s ∈ arrivals o as, o ≤ s.spanEnd := by
  induction as generalizing o with
  | nil => exact ⟨.nil, fun s hs => nomatch hs⟩
  | cons a as ih =>
    cases a with
    | delivery d =>
      obtain ⟨hp, he⟩ := ih (o + d.bytes.length)
      have hsa {s : Span φ} (hs : s ∈ d.fds.map (⟨o, o + d.bytes.length, ·⟩)) :
          s.spanEnd = o + d.bytes.length := by
        obtain ⟨fd, -, rfl⟩ := List.mem_map.mp hs
        rfl
      constructor
      · refine List.pairwise_append.mpr ⟨?_, hp, fun s hs t ht => (hsa hs).le.trans (he t ht)⟩
        exact List.pairwise_map.mpr (List.pairwise_iff_forall_sublist.mpr fun _ => Nat.le_refl _)
      · intro s hs
        rcases List.mem_append.mp hs with hs | hs
        · exact (hsa hs) ▸ Nat.le_add_right _ _
        · exact (Nat.le_add_right _ _).trans (he s hs)
    | eof | err => exact ih o

variable {msg : Message φ}

namespace RecvSide

variable {rx rx' : RecvSide φ}

/-- The descriptors of a delivery are queued behind the others, unless there are too many. -/
theorem queueFds_cases (rx : RecvSide φ) (s se : Nat) (fds : List φ) : (rx.queueFds s se fds =
      (.ok (), { rx with pendingFds := rx.pendingFds ++ fds.map (⟨s, se, ·⟩) })) ∨
    maxUnclaimedFds < rx.pendingFds.length + fds.length ∧
    ∃ q, rx.queueFds s se fds = (.error .unclaimedFdOverflow,
      { rx with pendingFds := q, poisoned := some .unclaimedFdOverflow }) := by
  induction fds generalizing rx with
  | nil => exact .inl (by simp [queueFds])
  | cons fd fds ih =>
    unfold queueFds
    split
    · exact .inr ⟨by rw [List.length_cons]; omega, rx.pendingFds, rfl⟩
    · rcases ih { rx with pendingFds := rx.pendingFds ++ [⟨s, se, fd⟩] } with hok | ⟨hmany, q, hover⟩
      · exact .inl (by rw [hok, append_assoc]; rfl)
      · rw [length_append, List.length_singleton] at hmany
        exact .inr ⟨by rw [List.length_cons]; omega, q, hover⟩

/-- The receiving side with what a `recvmsg` delivered. -/
def arrive (rx : RecvSide φ) (d : Delivery φ) : RecvSide φ :=
  { rx with
    recvBuf := rx.recvBuf ++ d.bytes
    pendingFds := rx.pendingFds ++ d.fds.map
      (⟨rx.consumed + rx.recvBuf.length, rx.consumed + rx.recvBuf.length + d.bytes.length, ·⟩) }

/-- A `recvmsg` round: it fails and changes nothing, it is a violation, it is the end of the stream, or it appends what
was delivered. -/
inductive Fills (rx : RecvSide φ) : Received φ → Except TransportError Nat × RecvSide φ → Prop
  | failed (kind : ErrorKind) : Fills rx (.err kind) (.error (.io kind), rx)
  | violated {d : Delivery φ} {v : PeerViolation} (queued : List (Span φ))
      (hcause : d.truncated = true ∧ v = .ancillaryTruncated ∨
        maxUnclaimedFds < rx.pendingFds.length + d.fds.length ∧ v = .unclaimedFdOverflow) :
      Fills rx (.delivery d) (.error (.peerViolation v), { rx with pendingFds := queued, poisoned := some v })
  | ended : Fills rx .eof (.ok 0, rx)
  | appended (d : Delivery φ) (n : Nat) : Fills rx (.delivery d) (.ok (n + 1), rx.arrive d)

theorem fill_fills (rx : RecvSide φ) (a : Received φ) : Fills rx a (rx.fill a) := by
  cases a with
  | err k => exact .failed k
  | eof => exact .ended
  | delivery d =>
    unfold fill
    dsimp only
    split
    · next ht => exact .violated rx.pendingFds (.inl ⟨ht, rfl⟩)
    · rcases rx.queueFds_cases (rx.consumed + rx.recvBuf.length)
        (rx.consumed + rx.recvBuf.length + d.bytes.length) d.fds with hok | ⟨hmany, queued, hover⟩
      · -- A delivery is not empty, so it does not look like the end of the stream.
        obtain ⟨n, hn⟩ := Nat.exists_eq_succ_of_ne_zero (List.length_pos_iff.mpr d.nonempty).ne'
        rw [hok]
        have ha : Fills rx (.delivery d) (.ok (n + 1), rx.arrive d) := .appended d n
        rwa [← Nat.succ_eq_add_one, ← hn] at ha
      · rw [hover]
        exact .violated queued (.inr ⟨hmany, rfl⟩)

/-! ### Taking a frame -/

/-- The receiver takes a frame off its buffer, and the descriptor it declares off the front of its queue. -/
structure Takes (rx : RecvSide φ) (msg : Message φ) (rx' : RecvSide φ) : Prop where
  header : FrameHeader.decode rx.recvBuf = .ok msg.header
  whole : headerLen ≤ msg.header.size.toNat ∧ msg.header.size.toNat ≤ rx.recvBuf.length
  bytes : msg.bytes = rx.recvBuf.take msg.header.size.toNat
  recvBuf : rx'.recvBuf = rx.recvBuf.drop msg.header.size.toNat
  consumed : rx'.consumed = rx.consumed + msg.header.size.toNat
  poisoned : rx'.poisoned = rx.poisoned
  descriptor : (msg.header.fdCount = 1 ∧ ∃ entry : Span φ, rx.pendingFds = entry :: rx'.pendingFds ∧
      msg.fd = some entry.fd ∧ entry.spanStart ≤ rx.consumed) ∨
    (msg.header.fdCount ≠ 1 ∧ msg.fd = none ∧ rx'.pendingFds = rx.pendingFds)
  beyond : ∀ front ∈ rx'.pendingFds.head?, rx'.consumed < front.spanEnd

/-- What is wrong with the frame at the front of these bytes, the first of which is at `start`, when these descriptors
are unclaimed: its size field is too small, it declares too many descriptors, it declares one that did not come in time,
or one is left that came with bytes up to its end. -/
inductive Faulty (bytes : List UInt8) (start : Nat) (pending : List (Span φ)) : PeerViolation → Prop
  | undersized {header : FrameHeader} (hdecode : FrameHeader.decode bytes = .ok header)
      (hsize : header.size.toNat < headerLen) : Faulty bytes start pending (.undersizedSizeField header.size)
  | bomb {header : FrameHeader} (hdecode : FrameHeader.decode bytes = .ok header)
      (hcount : maxFdsPerMessage < header.fdCount.toNat) : Faulty bytes start pending (.fdCountExceeded header.fdCount)
  | missing {header : FrameHeader} (hdecode : FrameHeader.decode bytes = .ok header)
      (hwhole : header.size.toNat ≤ bytes.length) (hcount : header.fdCount = 1)
      (hlate : ∀ front ∈ pending.head?, start < front.spanStart) : Faulty bytes start pending .missingFd
  | unsolicited {header : FrameHeader} {left : Span φ} (hdecode : FrameHeader.decode bytes = .ok header)
      (hwhole : header.size.toNat ≤ bytes.length)
      (hleft : (if header.fdCount = 1 then pending.tail else pending).head? = some left)
      (hbehind : left.spanEnd ≤ start + header.size.toNat) : Faulty bytes start pending .unsolicitedFd

theorem release_cases (rx : RecvSide φ) (msg : Message φ) (fe : Nat) :
    (rx.release msg fe = (.ok msg, rx) ∧ ∀ fr ∈ rx.pendingFds.head?, fe < fr.spanEnd) ∨
    rx.release msg fe = (.error .unsolicitedFd, { rx with poisoned := some .unsolicitedFd }) ∧
      ∃ fr, rx.pendingFds.head? = some fr ∧ fr.spanEnd ≤ fe := by
  unfold release
  cases hp : rx.pendingFds with
  | nil => exact .inl ⟨rfl, fun fr hfr => nomatch hfr⟩
  | cons fr r =>
    dsimp only
    split
    · next he => exact .inr ⟨rfl, fr, rfl, he⟩
    · next he =>
      refine .inl ⟨rfl, fun f hf => ?_⟩
      cases Option.some.inj hf
      exact Nat.lt_of_not_le he

/-- What the front of the buffer comes to: a frame is taken, or a violation is recorded. -/
theorem takeFrame_cases {header : FrameHeader} (hd : decode rx.recvBuf = .ok header)
    (hw : headerLen ≤ header.size.toNat ∧ header.size.toNat ≤ rx.recvBuf.length) :
    (∃ msg rx', rx.takeFrame header = (.ok msg, rx') ∧ Takes rx msg rx') ∨
    ∃ v, (rx.takeFrame header).1 = .error v ∧ (rx.takeFrame header).2.poisoned = some v ∧
      (rx.takeFrame header).2.pendingFds.length ≤ rx.pendingFds.length ∧
      Faulty rx.recvBuf rx.consumed rx.pendingFds v := by
  unfold takeFrame
  by_cases hon : header.fdCount = 1
  · rw [if_pos hon]
    cases hp : rx.pendingFds with
    | nil => exact .inr ⟨_, rfl, rfl, Nat.le_refl _, .missing hd hw.2 hon nofun⟩
    | cons e re =>
      dsimp only
      by_cases hs : e.spanStart ≤ rx.consumed
      · rw [if_pos hs]
        rcases release_cases { rx with
            recvBuf := rx.recvBuf.drop header.size.toNat, consumed := rx.consumed + header.size.toNat,
            pendingFds := re }
          ⟨header, rx.recvBuf.take header.size.toNat, some e.fd⟩ (rx.consumed + header.size.toNat) with
          ⟨hok, hbe⟩ | ⟨hb, fr, hfr, hle⟩
        · rw [hok]
          exact .inl ⟨_, _, rfl, hd, hw, rfl, rfl, rfl, rfl, .inl ⟨hon, e, hp, rfl, hs⟩, hbe⟩
        · rw [hb]
          exact .inr ⟨_, rfl, rfl, Nat.le_succ _, .unsolicited hd hw.2 (by rw [if_pos hon]; exact hfr) hle⟩
      · rw [if_neg hs]
        refine .inr ⟨_, rfl, rfl, Nat.le_refl _, .missing hd hw.2 hon fun front hf => ?_⟩
        cases Option.some.inj hf
        exact Nat.lt_of_not_le hs
  · rw [if_neg hon]
    rcases release_cases { rx with
        recvBuf := rx.recvBuf.drop header.size.toNat, consumed := rx.consumed + header.size.toNat }
      ⟨header, rx.recvBuf.take header.size.toNat, none⟩ (rx.consumed + header.size.toNat) with
      ⟨hok, hbe⟩ | ⟨hb, fr, hfr, hle⟩
    · rw [hok]
      exact .inl ⟨_, _, rfl, hd, hw, rfl, rfl, rfl, rfl, .inr ⟨hon, rfl, rfl⟩, hbe⟩
    · rw [hb]
      exact .inr ⟨_, rfl, rfl, Nat.le_refl _, .unsolicited hd hw.2 (by rw [if_neg hon]; exact hfr) hle⟩

/-- The front of the buffer: no whole frame, a frame that is taken, or a violation that is recorded. -/
inductive Fronts (rx : RecvSide φ) : Option (Except PeerViolation (Message φ) × RecvSide φ) → Prop
  | none (h : slice rx.recvBuf = Option.none) : Fronts rx Option.none
  | taken {msg : Message φ} {rx' : RecvSide φ} (h : Takes rx msg rx') : Fronts rx (some (.ok msg, rx'))
  | violated {v : PeerViolation} {rx' : RecvSide φ} (h : rx'.poisoned = some v)
      (hfew : rx'.pendingFds.length ≤ rx.pendingFds.length) (hfaulty : Faulty rx.recvBuf rx.consumed rx.pendingFds v) :
      Fronts rx (some (.error v, rx'))

theorem nextFrame_fronts (rx : RecvSide φ) : Fronts rx rx.nextFrame := by
  unfold nextFrame
  cases hd : decode rx.recvBuf with
  | error e => exact .none (by rw [slice, hd])
  | ok header =>
    dsimp only
    split_ifs with hsm hm hs
    · exact .violated rfl (Nat.le_refl _) (.undersized hd hsm)
    · exact .violated rfl (Nat.le_refl _) (.bomb hd hm)
    · refine .none ?_
      rw [slice, hd]
      exact if_neg fun h => by omega
    · rcases takeFrame_cases hd ⟨by omega, by omega⟩ with
        ⟨msg, rx', he, ht⟩ | ⟨v, hr, hp, hf, hfa⟩
      · exact he ▸ .taken ht
      · generalize rx.takeFrame header = x at hr hp hf
        obtain ⟨r, rx'⟩ := x
        cases hr
        exact .violated hp hf hfa

variable (h : Takes rx msg rx')

include h

theorem Takes.slice : slice rx.recvBuf = some (msg.bytes, rx'.recvBuf) := by
  rw [Ipc.slice, h.header, h.bytes, h.recvBuf]
  exact if_pos h.whole

theorem Takes.length : msg.bytes.length = msg.header.size.toNat := by
  rw [h.bytes, List.length_take]
  exact Nat.min_eq_left h.whole.2

theorem Takes.decode : decode msg.bytes = .ok msg.header := by
  have hl : headerLen ≤ msg.bytes.length := h.length ▸ h.whole.1
  rw [← decode_append hl (rx.recvBuf.drop msg.header.size.toNat), h.bytes, List.take_append_drop, h.header]

end RecvSide

/-! ### Runs -/

/-- A kernel that gives these answers. -/
def scripted : Machine Unit (Received φ) (Received φ) := fun _ answer => ((), answer)

/-- What a call of `recvMessage` returned, and the kernel's answers it used. -/
structure RecvOut (φ : Type u) where
  result : Except TransportError (Option (Message φ))
  used : List (Received φ)

def RecvOut.frame (out : RecvOut φ) : List (Message φ) := match out.result with
  | .ok (some msg) => [msg]
  | _ => []

def Message.cells (msg : Message φ) : List (Cell UInt8 φ) := laden msg.fd msg.bytes

def RecvOut.Violation (out : RecvOut φ) (v : PeerViolation) : Prop := out.result = .error (.peerViolation v)

/-- What was returned after these answers of the kernel, and the descriptors it was returned with. -/
structure Returned (used : List (Received φ)) (returned : List (Message φ)) : Prop where
  slices : ∃ rest, Slices (returned.map (·.bytes)) (stream used) rest
  descriptors : ∃ claimed, claimed <+: arrivals 0 used ∧ Carries 0 (returned.flatMap Message.cells) claimed
  headers : ∀ msg ∈ returned, FrameHeader.decode msg.bytes = .ok msg.header ∧ (msg.fd.isSome ↔ msg.header.fdCount = 1)

/-- Why a violation is reported after these answers of the kernel, when these frames have been returned: the frame that
comes next in the stream is faulty, or the last delivery brought descriptors that were cut off, or more than the cap. -/
inductive Cause (used : List (Received φ)) (returned : List (Message φ)) : PeerViolation → Prop
  | front {rest : List UInt8} {claimed pending : List (Span φ)} {v : PeerViolation}
      (hrest : Slices (returned.map (·.bytes)) (stream used) rest) (hclaimed : claimed ++ pending = arrivals 0 used)
      (hcarries : Carries 0 (returned.flatMap Message.cells) claimed)
      (hfaulty : Faulty rest (returned.flatMap Message.cells).length pending v) : Cause used returned v
  | truncated {before : List (Received φ)} {d : Delivery φ} (hused : used = before ++ [.delivery d])
      (htruncated : d.truncated = true) : Cause used returned .ancillaryTruncated
  | overflow {before : List (Received φ)} {d : Delivery φ} {claimed pending : List (Span φ)}
      (hused : used = before ++ [.delivery d]) (hclaimed : claimed ++ pending = arrivals 0 before)
      (hcarries : Carries 0 (returned.flatMap Message.cells) claimed)
      (hmany : maxUnclaimedFds < pending.length + d.fds.length) : Cause used returned .unclaimedFdOverflow

/-- Without a violation, the receiver follows the stream: what it has not returned is in its buffer and its queue. -/
structure Follows (used : List (Received φ)) (returned : List (Message φ)) (rx : RecvSide φ) : Prop where
  slices : Slices (returned.map (·.bytes)) (stream used) rx.recvBuf
  consumed : (returned.flatMap Message.cells).length = rx.consumed
  length : rx.consumed + rx.recvBuf.length = (stream used).length
  descriptors : ∃ claimed, claimed ++ rx.pendingFds = arrivals 0 used ∧
    Carries 0 (returned.flatMap Message.cells) claimed
  headers : ∀ msg ∈ returned, FrameHeader.decode msg.bytes = .ok msg.header ∧ (msg.fd.isSome ↔ msg.header.fdCount = 1)
  beyond : ∀ p ∈ rx.pendingFds, rx.consumed < p.spanEnd

namespace Returned

variable {u : List (Received φ)} {re : List (Message φ)}

theorem more (h : Returned u re) (l : List (Received φ)) : Returned (u ++ l) re where
  slices := by
    obtain ⟨r, hs⟩ := h.slices
    exact ⟨r ++ stream l, stream_append u l ▸ hs.append _⟩
  descriptors := by
    obtain ⟨c, ha, hc⟩ := h.descriptors
    exact ⟨c, ha.trans (arrivals_append 0 u l ▸ List.prefix_append _ _), hc⟩
  headers := h.headers

end Returned

namespace Follows

variable {u : List (Received φ)} {f : List (Message φ)} {rx rx' : RecvSide φ}

variable (h : Follows u f rx)

include h

theorem returned : Returned u f where
  slices := ⟨_, h.slices⟩
  descriptors := by
    obtain ⟨c, ha, hc⟩ := h.descriptors
    exact ⟨c, ⟨rx.pendingFds, ha⟩, hc⟩
  headers := h.headers

theorem idle {a : Received φ} (hs : stream [a] = [])
    (ha : ∀ o, arrivals o [a] = []) : Follows (u ++ [a]) f rx where
  slices := by
    rw [stream_append, hs, append_nil]
    exact h.slices
  consumed := h.consumed
  length := by
    rw [stream_append, hs, append_nil]
    exact h.length
  descriptors := by
    rw [arrivals_append, ha, append_nil]
    exact h.descriptors
  headers := h.headers
  beyond := h.beyond

theorem appended (d : Delivery φ) : Follows (u ++ [.delivery d]) f (rx.arrive d) := by
  have hs : stream (u ++ [.delivery d]) = stream u ++ d.bytes := by
    rw [stream_append, stream, stream, append_nil]
  refine ⟨hs ▸ h.slices.append d.bytes, h.consumed, ?_, ?_, h.headers, ?_⟩
  · rw [hs, arrive, length_append, length_append, ← h.length, Nat.add_assoc]
  · obtain ⟨c, ha, hc⟩ := h.descriptors
    refine ⟨c, ?_, hc⟩
    rw [arrivals_append, ← ha, ← h.length, append_assoc, Nat.zero_add, arrivals, arrivals, append_nil]
    rfl
  · intro p hp
    rcases List.mem_append.mp hp with hp | hp
    · exact h.beyond p hp
    · obtain ⟨fd, -, rfl⟩ := List.mem_map.mp hp
      have hpo := List.length_pos_iff.mpr d.nonempty
      dsimp only [arrive]
      omega

theorem sorted : rx.pendingFds.Pairwise fun s t => s.spanEnd ≤ t.spanEnd := by
  obtain ⟨c, ha, -⟩ := h.descriptors
  have hs := (arrivals_sorted 0 u).1
  rw [← ha] at hs
  exact (List.pairwise_append.mp hs).2.1

omit h in
theorem beyond_of_head {pe : List (Span φ)} {o : Nat} (hs : pe.Pairwise fun s t => s.spanEnd ≤ t.spanEnd)
    (hh : ∀ f ∈ pe.head?, o < f.spanEnd) : ∀ p ∈ pe, o < p.spanEnd := by
  cases hs with
  | nil => exact fun p hp => nomatch hp
  | cons hfi _ =>
    intro p hp
    have hf := hh _ rfl
    rcases List.mem_cons.mp hp with rfl | hp
    · exact hf
    · exact hf.trans_le (hfi p hp)

/-- Taking a frame moves its bytes from the buffer to what was returned, and its descriptor from the queue. -/
theorem takes (ht : RecvSide.Takes rx msg rx') : Follows u (f ++ [msg]) rx' := by
  have hl := ht.length
  have hn : msg.bytes ≠ [] := by
    intro hni
    have hw := ht.whole.1
    rw [← hl, hni] at hw
    exact absurd hw (by decide)
  have hce : (f ++ [msg]).flatMap Message.cells = f.flatMap Message.cells ++ msg.cells := by simp
  have hh : ∀ m ∈ f ++ [msg],
      decode m.bytes = .ok m.header ∧ (m.fd.isSome ↔ m.header.fdCount = 1) := by
    intro m hm
    rcases List.mem_append.mp hm with hm | hm
    · exact h.headers m hm
    · cases List.mem_singleton.mp hm
      refine ⟨ht.decode, ?_⟩
      rcases ht.descriptor with ⟨hon, e, -, hf, -⟩ | ⟨hno, hf, -⟩
      · simp [hon, hf]
      · simp [hno, hf]
  obtain ⟨c, ha, hc⟩ := h.descriptors
  refine ⟨?_, ?_, ?_, ?_, hh, ?_⟩
  · rw [List.map_append]
    exact h.slices.concat ht.slice
  · rw [hce, length_append, h.consumed, Message.cells, length_laden, hl, ht.consumed]
  · rw [ht.consumed, ht.recvBuf, ← h.length, List.length_drop]
    have := ht.whole.2
    omega
  · rw [hce]
    rcases ht.descriptor with ⟨-, e, hp, hf, hst⟩ | ⟨-, hf, hp⟩
    · refine ⟨c ++ [e], ?_, hc.concat ?_⟩
      · rw [← ha, hp, append_assoc, List.singleton_append]
      · rw [Message.cells, hf, Nat.zero_add, h.consumed]
        exact carries_laden_some hn hst (h.beyond e (hp ▸ (.head _)))
    · refine ⟨c, hp ▸ ha, ?_⟩
      have hla := hc.concat (carries_laden_none msg.bytes)
      rwa [append_nil, ← hf] at hla
  · refine beyond_of_head ?_ ht.beyond
    rcases ht.descriptor with ⟨-, e, hp, -, -⟩ | ⟨-, -, hp⟩
    · have hs := h.sorted
      rw [hp] at hs
      exact hs.of_cons
    · exact hp ▸ h.sorted

end Follows

/-- How a call ends: with a frame; without one, because there is no whole one yet; or with a violation. -/
inductive Ends (used : List (Received φ)) (frames : List (Message φ)) :
    Except TransportError (Option (Message φ)) → RecvSide φ → Prop
  | frame {msg : Message φ} {rx : RecvSide φ} (h : Follows used (frames ++ [msg]) rx) (hsound : rx.poisoned = none) :
      Ends used frames (.ok (some msg)) rx
  | stopped {result : Except TransportError (Option (Message φ))} {rx : RecvSide φ} (h : Follows used frames rx)
      (hsound : rx.poisoned = none) (hslice : slice rx.recvBuf = none) (hresult : ∀ msg, result ≠ .ok (some msg))
      (hblameless : ∀ v, result ≠ .error (.peerViolation v)) : Ends used frames result rx
  | violated {v : PeerViolation} {rx : RecvSide φ} (h : Returned used frames) (hpoisoned : rx.poisoned = some v)
      (hcause : Cause used frames v) : Ends used frames (.error (.peerViolation v)) rx

variable {u : List (Received φ)} {rx : RecvSide φ} {f : List (Message φ)}

/-- The state of the receiver in a run: it follows the stream, or a violation has been reported. -/
inductive Standing (used : List (Received φ)) (frames : List (Message φ)) (rx : RecvSide φ) : Prop
  | sound (h : Follows used frames rx) (hsound : rx.poisoned = none)
  | violated (h : Returned used frames) {v : PeerViolation} (hpoisoned : rx.poisoned = some v)

theorem Standing.returned (h : Standing u f rx) : Returned u f := by
  cases h with
  | sound h _ => exact h.returned
  | violated h _ => exact h

theorem Ends.standing {o : RecvOut φ} (h : Ends u f o.result rx) : Standing u (f ++ o.frame) rx := by
  obtain ⟨r, now⟩ := o
  cases h with
  | frame h hs => exact .sound h hs
  | stopped h hs _ hr _ =>
    have hn : RecvOut.frame ⟨r, now⟩ = [] := by
      unfold RecvOut.frame
      split
      · next msg he => exact absurd he (hr msg)
      · rfl
    rw [hn, append_nil]
    exact .sound h hs
  | violated h hp _ =>
    change Standing u (f ++ []) rx
    rw [append_nil]
    exact .violated h hp

/-- A frame of eight bytes that declares no descriptor. -/
def bareFrame : List UInt8 := [1, 0, 0, 0, 8, 0, 0, 0]

end Vitrin.Ipc
