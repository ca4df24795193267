import Vitrin.Ipc.Receive
import Vitrin.Shim.WireSend

/-!
# The shim receives as the core does

The shim cuts the bytes it received into frames with C code of its own. It finds what the
core's receiver would find.

`Views` relates the shim's buffer, from a position on, and its ring of descriptors to a
receive side of the core's kind. `cutFrame_agrees` is the result: from related states, one
round of the shim's dispatch and one `nextFrame` of the core both find nothing whole, or
both find the same frame with the same descriptor and end in related states, or both
report a violation. Of the descriptor's side, `claimFd_agrees` has the argument.
-/

namespace Vitrin.Shim

open Lib Protocol Ipc

universe u

variable {φ : Type u}

/-- A span of the core's receiver as the shim keeps it. -/
def PendingFd.ofSpan (s : Span φ) : PendingFd φ := ⟨s.spanStart, s.spanEnd, some s.fd⟩

namespace Wire

/-- The shim's receiving side, `pos` bytes into its buffer, is this one of the core's kind. -/
structure Views (w : Wire φ) (pos : Nat) (rx : RecvSide φ) : Prop where
  recvBuf : rx.recvBuf = w.rx.drop pos
  consumed : rx.consumed = w.consumed + pos
  pending : w.pending.toList = rx.pendingFds.map PendingFd.ofSpan
  sound : rx.poisoned = none

variable {w : Wire φ} {pos : Nat} {rx rx' : RecvSide φ}

theorem Views.length (h : Views w pos rx) : rx.recvBuf.length = w.rx.length - pos := by
  rw [h.recvBuf, List.length_drop]

theorem Views.front (h : Views w pos rx) : w.pending.front? = rx.pendingFds.head?.map PendingFd.ofSpan := by
  rw [Ring.front?_eq, h.pending, List.head?_map]

/-- What the core's receiver makes of the buffer and what the shim makes of it. -/
inductive Agree (w : Wire φ) (pos : Nat) : Option (Except PeerViolation (Ipc.Message φ) × RecvSide φ) → Cut φ → Prop
  | none : Agree w pos none .incomplete
  | frame {msg : Ipc.Message φ} {rx : RecvSide φ} {pending : Ring (PendingFd φ) maxUnclaimed}
      (h : Views (w.withPending pending) (pos + msg.header.size.toNat) rx) :
      Agree w pos (some (.ok msg, rx)) (.frame (w.withPending pending) ⟨msg.bytes, msg.fd⟩ msg.header.size.toNat)
  | violation {v : PeerViolation} {rx : RecvSide φ} {pending : Ring (PendingFd φ) maxUnclaimed} {fds : List φ}
      {reason : Failure} (h : reason.Violation) :
      Agree w pos (some (.error v, rx)) (.violation ((w.withPending pending).note (fds.map .closed)) reason)

theorem Agree.plain {v : PeerViolation} {r : Failure} (h : r.Violation) :
    Agree w pos (some (.error v, rx)) (.violation w r) := by
  have hs : w = (w.withPending w.pending).note (([] : List φ).map .closed) := by simp [withPending, note]
  have ha : Agree w pos (some (.error v, rx))
      (.violation ((w.withPending w.pending).note (([] : List φ).map .closed)) r) := .violation h
  rwa [← hs] at ha

variable (h : Views w pos rx)

include h

/-- The check for descriptors that came too early gives the same answer. -/
theorem Views.unclaimed (f : Nat) : w.hasUnclaimedFd f = true ↔ ∃ fr ∈ rx.pendingFds.head?, fr.spanEnd ≤ f := by
  unfold hasUnclaimedFd
  rw [h.front]
  cases rx.pendingFds with
  | nil => simp
  | cons fr r => simp [PendingFd.ofSpan]

/-- A frame is given out, unless a descriptor is left that came with it or before it. -/
theorem release_agrees (header : FrameHeader) {p : Ring (PendingFd φ) maxUnclaimed}
    {s : List (Span φ)} (hp : p.toList = s.map PendingFd.ofSpan) (fd : Option φ) :
    Agree w pos
      (some (RecvSide.release { rx with
          recvBuf := rx.recvBuf.drop header.size.toNat
          consumed := rx.consumed + header.size.toNat
          pendingFds := s }
        ⟨header, rx.recvBuf.take header.size.toNat, fd⟩ (rx.consumed + header.size.toNat)))
      (if (w.withPending p).hasUnclaimedFd (w.consumed + pos + header.size.toNat) then
        .violation ((w.withPending p).note (fd.toList.map .closed)) .unsolicitedDescriptor
      else .frame (w.withPending p) ⟨(w.rx.drop pos).take header.size.toNat, fd⟩ header.size.toNat) := by
  have ha : Views (w.withPending p) (pos + header.size.toNat)
      { rx with recvBuf := rx.recvBuf.drop header.size.toNat
                consumed := rx.consumed + header.size.toNat
                pendingFds := s } := by
    refine ⟨?_, ?_, hp, h.sound⟩
    · rw [h.recvBuf, List.drop_drop]
      rfl
    · rw [h.consumed, Nat.add_assoc]
      rfl
  have hu := ha.unclaimed (w.consumed + pos + header.size.toNat)
  rw [← h.consumed] at hu ⊢
  have hf : Agree w pos
      (some (.ok ⟨header, rx.recvBuf.take header.size.toNat, fd⟩, { rx with
          recvBuf := rx.recvBuf.drop header.size.toNat
          consumed := rx.consumed + header.size.toNat
          pendingFds := s }))
      (.frame (w.withPending p) ⟨rx.recvBuf.take header.size.toNat, fd⟩ header.size.toNat) := .frame ha
  rw [h.recvBuf] at hf ⊢
  unfold RecvSide.release
  cases s with
  | nil =>
    rw [if_neg (by simpa using hu)]
    exact hf
  | cons f r =>
    dsimp only
    by_cases he : f.spanEnd ≤ rx.consumed + header.size.toNat
    · rw [if_pos he, if_pos (hu.mpr ⟨f, rfl, he⟩)]
      exact .violation trivial
    · have hn : ¬ (w.withPending p).hasUnclaimedFd (rx.consumed + header.size.toNat) = true := by
        intro hs
        obtain ⟨f', hfr, he'⟩ := hu.mp hs
        cases Option.some.inj hfr
        exact he he'
      rw [if_neg he, if_neg hn]
      exact hf

omit h in
theorem claimFd_eq {header : FrameHeader} {fd : Option φ} {w' : Wire φ}
    (h : (if header.fdCount = 1 then w.takeFd (w.consumed + pos) else (none, w)) = (fd, w')) :
    w.claimFd pos header =
      if header.fdCount = 1 ∧ fd.isNone then .violation w' .missingDescriptor
      else if w'.hasUnclaimedFd (w.consumed + pos + header.size.toNat) then
        .violation (w'.note (fd.toList.map .closed)) .unsolicitedDescriptor
      else .frame w' ⟨(w'.rx.drop pos).take header.size.toNat, fd⟩ header.size.toNat := by
  unfold claimFd
  extract_lets size frameStart
  rw [show (if header.fdCount = 1 then w.takeFd frameStart else (none, w)) = (fd, w') from h]

/-- A complete frame is claimed, or refused, by the shim as by the core's receiver. -/
theorem claimFd_agrees (header : FrameHeader) : Agree w pos (some (rx.takeFrame header)) (w.claimFd pos header) := by
  unfold RecvSide.takeFrame
  by_cases hon : header.fdCount = 1
  · rw [if_pos hon]
    have hf := h.front
    cases hs : rx.pendingFds with
    | nil =>
      rw [hs] at hf
      have ht : w.takeFd (w.consumed + pos) = (none, w) := by rw [takeFd, hf]; rfl
      rw [claimFd_eq (by rw [if_pos hon, ht]), if_pos ⟨hon, rfl⟩]
      exact .plain trivial
    | cons f r =>
      rw [hs] at hf
      dsimp only
      by_cases hb : f.spanStart ≤ rx.consumed
      · have ht : w.takeFd (w.consumed + pos) = (some f.fd, w.withPending w.pending.pop) := by
          rw [takeFd, hf]
          exact if_neg (Nat.not_lt.mpr (h.consumed ▸ hb))
        have hp : w.pending.pop.toList = r.map PendingFd.ofSpan := by
          rw [Ring.toList_pop, h.pending, hs]
          rfl
        rw [if_pos hb, claimFd_eq (by rw [if_pos hon, ht]), if_neg fun hn => absurd hn.2 nofun]
        exact release_agrees h header hp (some f.fd)
      · have ht : w.takeFd (w.consumed + pos) = (none, w) := by
          rw [takeFd, hf]
          exact if_pos (h.consumed ▸ Nat.lt_of_not_le hb)
        rw [if_neg hb, claimFd_eq (by rw [if_pos hon, ht]), if_pos ⟨hon, rfl⟩]
        exact .plain trivial
  · rw [if_neg hon, claimFd_eq (by rw [if_neg hon]), if_neg fun hn => hon hn.1]
    exact release_agrees h header h.pending none

/-- **The shim's reading of its buffer is the core's.** -/
theorem cutFrame_agrees : Agree w pos rx.nextFrame (w.cutFrame pos) := by
  unfold RecvSide.nextFrame cutFrame
  rw [← h.length, ← h.recvBuf]
  by_cases hs : rx.recvBuf.length < headerLen
  · rw [if_pos hs, FrameHeader.decode, if_pos hs]
    exact .none
  · rw [if_neg hs]
    obtain ⟨header, hd⟩ := FrameHeader.decode_ok (Nat.le_of_not_lt hs)
    rw [hd]
    dsimp only
    by_cases hsm : header.size.toNat < headerLen
    · rw [if_pos hsm, if_pos hsm]
      exact .plain trivial
    · rw [if_neg hsm, if_neg hsm]
      by_cases hm : header.fdCount.toNat > 1
      · rw [if_pos hm, if_pos (show header.fdCount.toNat > maxFdsPerMessage from hm)]
        exact .plain trivial
      · rw [if_neg hm, if_neg (show ¬ header.fdCount.toNat > maxFdsPerMessage from hm)]
        by_cases hp : rx.recvBuf.length < header.size.toNat
        · rw [if_pos hp, if_pos hp]
          exact .none
        · rw [if_neg hp, if_neg hp]
          exact claimFd_agrees h header

end Wire

end Vitrin.Shim
