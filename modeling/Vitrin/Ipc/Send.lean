import Vitrin.Ipc.Connection

/-!
# What the send path puts on the wire

The non-blocking send path takes a frame, gives the kernel what it will take, and keeps
the rest in a bounded queue. This module says what the kernel has been given at any time,
whatever parts it takes and wherever it fails.

`Counted` is the invariant of the queue: its counters are what it holds, within their
caps. Every call keeps it and says what it does to the stream, as `Conveys`: what the
kernel took, followed by what is parked then, is what was parked before and what was
added. A flush adds nothing (`flushSendQueue_spec`). A send adds its frame, or fails and
adds nothing, or fails and leaves a piece of the frame at the very end
(`sendOrQueue_outcome`), and once it has failed it does nothing more (`sendOrQueue_dead`).

`Feeds` is the run: all that the kernel took, followed by what is parked, are the frames
accepted so far and perhaps such a piece. A receiver that has taken a beginning of that
stream has a whole accepted frame before it, or a piece of a frame (`front_of_stream`).
-/

namespace Vitrin.Ipc

open Lib Protocol
open List (length_take append_assoc mem_cons_of_mem length_drop length_append append_nil)

universe u v

variable {φ : Type u}

/-- A frame as it is handed to the send path. -/
structure Frame (φ : Type u) where
  bytes : List UInt8
  fd : Option φ
  deriving DecidableEq

variable {f : Frame φ}

namespace Frame

def cells (f : Frame φ) : List (Cell UInt8 φ) := laden f.fd f.bytes

/-- One well-formed frame, with a descriptor exactly if its header declares one. -/
def Valid (f : Frame φ) : Prop := validateOutgoing f.bytes f.fd = .ok ()

variable (h : f.Valid)

include h

theorem Valid.header : ∃ header, FrameHeader.decode f.bytes = .ok header ∧
    header.size.toNat = f.bytes.length ∧ header.fdCount.toNat ≤ maxFdsPerMessage ∧
    (header.fdCount = 1 ↔ f.fd.isSome) := by
  unfold Valid validateOutgoing at h
  cases hd : FrameHeader.decode f.bytes with
  | error e =>
    rw [hd] at h
    cases h
  | ok header =>
    rw [hd] at h
    dsimp only at h
    split_ifs at h with hs hf
    obtain ⟨hm, ha⟩ := not_or.mp hf
    refine ⟨header, rfl, not_not.mp hs, Nat.le_of_not_lt hm, ?_⟩
    rw [← not_not.mp ha, beq_iff_eq]

theorem Valid.header_le : headerLen ≤ f.bytes.length := by
  obtain ⟨header, hd, -⟩ := h.header
  by_contra hs
  rw [FrameHeader.decode, if_pos (Nat.lt_of_not_le hs)] at hd
  cases hd

theorem Valid.le_max : f.bytes.length ≤ maxMessageSize := by
  obtain ⟨header, -, hs, -⟩ := h.header
  rw [← hs]
  exact Nat.le_of_lt_succ header.size.toNat_lt

theorem Valid.ne_nil : f.bytes ≠ [] :=
  List.ne_nil_of_length_pos (Nat.lt_of_lt_of_le (by decide) h.header_le)

end Frame

/-! ### The send side -/

/-- What is left of a parked frame, as a stretch of the stream. -/
def QueuedFrame.cells (q : QueuedFrame φ) : List (Cell UInt8 φ) := laden q.fd (q.bytes.drop q.offset)

/-- A parked frame has something left, and a descriptor it owes goes with its first byte. -/
structure QueuedFrame.Parked (q : QueuedFrame φ) : Prop where
  unsent : q.offset < q.bytes.length
  whole : q.fd.isSome → q.offset = 0

variable {a : List (Cell UInt8 φ)} {sc : List Wrote} {ke : Prop}

namespace SendSide

variable {tx : SendSide φ}

def cells (tx : SendSide φ) : List (Cell UInt8 φ) := tx.sendQueue.flatMap QueuedFrame.cells

/-- The counters are what the queue holds, and within their caps. -/
structure Counted (tx : SendSide φ) : Prop where
  parked : ∀ q ∈ tx.sendQueue, q.Parked
  bytes : tx.queuedSendBytes = tx.cells.length
  fds : tx.queuedSendFds = (attached tx.cells).length
  bytesCap : tx.queuedSendBytes ≤ maxSendQueueBytes
  fdsCap : tx.queuedSendFds ≤ maxSendQueueFds

/-- No later frame may be written. -/
def Dead (tx : SendSide φ) : Prop := tx.sendOverflowed = true ∨ tx.sendPoisoned.isSome

theorem counted_new : Counted (new : SendSide φ) where
  parked _ h := nomatch h
  bytes := rfl
  fds := rfl
  bytesCap := Nat.zero_le _
  fdsCap := Nat.zero_le _

theorem Counted.poison (h : tx.Counted) (k : ErrorKind) : Counted { tx with sendPoisoned := some k } :=
  ⟨h.parked, h.bytes, h.fds, h.bytesCap, h.fdsCap⟩

theorem Counted.advance (h : tx.Counted) {fr : QueuedFrame φ} {r : List (QueuedFrame φ)}
    (hqu : tx.sendQueue = fr :: r) {n : Nat} (hp : 0 < n) (hl : n ≤ (fr.bytes.drop fr.offset).length) :
    laden fr.fd ((fr.bytes.drop fr.offset).take n) ++ (tx.advance fr r n).cells = tx.cells ∧
      (tx.advance fr r n).Counted := by
  have hn : (fr.bytes.drop fr.offset).take n ≠ [] := by
    refine List.ne_nil_of_length_pos ?_
    rw [length_take]
    omega
  -- What is left of the front, if anything.
  have hlef : (tx.advance fr r n).cells =
      laden none ((fr.bytes.drop fr.offset).drop n) ++ r.flatMap QueuedFrame.cells := by
    unfold SendSide.advance cells
    split
    · next hd =>
      rw [List.drop_drop, List.drop_of_length_le (Nat.le_of_eq hd.symm)]
      rfl
    · rw [List.drop_drop]
      rfl
  have hc : laden fr.fd ((fr.bytes.drop fr.offset).take n) ++ (tx.advance fr r n).cells =
      tx.cells := by
    rw [hlef, ← append_assoc, laden_take_append_drop hp]
    unfold cells
    rw [hqu]
    rfl
  refine ⟨hc, ?_, ?_, ?_, (Nat.sub_le _ _).trans h.bytesCap, ?_⟩
  · intro q hq
    unfold SendSide.advance at hq
    split at hq
    · exact h.parked q (hqu ▸ mem_cons_of_mem _ hq)
    · next hm =>
      rcases List.mem_cons.mp hq with rfl | hq
      · rw [length_drop] at hl
        exact ⟨Nat.lt_of_le_of_ne (by dsimp only; omega) hm, nofun⟩
      · exact h.parked q (hqu ▸ mem_cons_of_mem _ hq)
  · have hlen := congrArg List.length hc
    rw [length_append, length_laden, length_take, Nat.min_eq_left hl, ← h.bytes] at hlen
    change tx.queuedSendBytes - n = _
    omega
  · have ha := congrArg (fun cs => (attached cs).length) hc
    rw [attached_append, length_append, attached_laden _ hn, ← h.fds] at ha
    change (if fr.fd.isSome then tx.queuedSendFds - 1 else tx.queuedSendFds) = _
    cases hf : fr.fd with
    | none =>
      rw [hf] at ha
      simpa using ha.symm
    | some x =>
      rw [hf] at ha
      simp only [Option.toList_some, List.length_singleton] at ha
      simp only [Option.isSome_some, if_true]
      omega
  · refine le_trans ?_ h.fdsCap
    change (if fr.fd.isSome then tx.queuedSendFds - 1 else tx.queuedSendFds) ≤ _
    split <;> omega

/-- What a call of the send path may do to what is parked: if the kernel keeps its side, what it took and what is parked
then are what was parked before and, at the end, `added`. -/
structure Conveys {α : Type v} (kept : Prop) (tx : SendSide φ) (s : Sent φ α) (added : List (Cell UInt8 φ)) : Prop where
  counted : s.side.Counted
  stream : kept → Lib.cells s.wire ++ s.side.cells = tx.cells ++ added

variable {w : List (Segment UInt8 φ)}

theorem Conveys.after {α : Type v} {t' : SendSide φ} {s : Sent φ α} (h : Conveys ke t' s a)
    (hw : ke → Lib.cells w ++ t'.cells = tx.cells) :
    Conveys ke tx (s.after w) a where
  counted := h.counted
  stream hk := by
    rw [Sent.after_wire, Sent.after_side, cells_append, append_assoc, h.stream hk, ← append_assoc, hw hk]

theorem Counted.conveys {α : Type v} (h : tx.Counted) (ke : Prop) (r : Except TransportError α)
    (sc : List Wrote) : Conveys ke tx ⟨r, tx, [], sc⟩ [] :=
  ⟨h, fun _ => (append_nil _).symm⟩

theorem Counted.conveys_poison {α : Type v} (h : tx.Counted) (ke : Prop) (k : ErrorKind) (sc : List Wrote) :
    Conveys ke tx (tx.poisonSend k sc : Sent φ α) [] :=
  ⟨h.poison k, fun _ => (append_nil _).symm⟩

theorem flushSendQueue_spec (h : tx.Counted) (sc : List Wrote) : Conveys True tx (tx.flushSendQueue sc) [] ∧
    (tx.flushSendQueue sc).side.sendOverflowed = tx.sendOverflowed ∧
    (((tx.flushSendQueue sc).result = .ok () ∧ (tx.flushSendQueue sc).side.sendPoisoned = tx.sendPoisoned) ∨
      ∃ k, (tx.flushSendQueue sc).result = .error (.io k) ∧
        (tx.flushSendQueue sc).side.sendPoisoned = some k) := by
  induction sc generalizing tx with
  | nil => exact ⟨h.conveys _ _ _, rfl, .inl ⟨rfl, rfl⟩⟩
  | cons a sc ih =>
    unfold flushSendQueue
    cases hq : tx.sendQueue with
    | nil => exact ⟨h.conveys _ _ _, rfl, .inl ⟨rfl, rfl⟩⟩
    | cons fr r =>
      dsimp only
      have hfr := h.parked fr (hq ▸ (.head _))
      have hp : (if fr.fd.isSome then fr.bytes else fr.bytes.drop fr.offset) =
          fr.bytes.drop fr.offset := by
        split
        · next hf => rw [hfr.whole hf, List.drop_zero]
        · rfl
      rw [hp]
      cases a with
      | err k =>
        cases k with
        | wouldBlock => exact ⟨h.conveys _ _ _, rfl, .inl ⟨rfl, rfl⟩⟩
        | _ => exact ⟨h.conveys_poison _ _ _, rfl, .inr ⟨_, rfl, rfl⟩⟩
      | ok n =>
        dsimp only
        split
        · exact ⟨h.conveys_poison _ _ _, rfl, .inr ⟨_, rfl, rfl⟩⟩
        · next hz =>
          obtain ⟨hc, hcou⟩ := h.advance hq (Nat.pos_of_ne_zero hz) (Nat.min_le_right _ _)
          obtain ⟨hco, hover, he⟩ := ih hcou
          refine ⟨hco.after fun _ => ?_, hover, he⟩
          have ht : (fr.bytes.drop fr.offset).take n =
              (fr.bytes.drop fr.offset).take (min n (fr.bytes.drop fr.offset).length) :=
            List.take_eq_take_min
          rw [cells_ofWrite, ht, hc]

theorem flushSendQueue_script {an : Wrote} (h : an ∈ (tx.flushSendQueue sc).script) : an ∈ sc := by
  induction sc generalizing tx with
  | nil => exact h
  | cons a sc ih =>
    unfold flushSendQueue at h
    cases hq : tx.sendQueue with
    | nil =>
      rw [hq] at h
      exact h
    | cons fr r =>
      rw [hq] at h
      dsimp only at h
      generalize (if fr.fd.isSome = true then fr.bytes else fr.bytes.drop fr.offset) = payload at h
      cases a with
      | err k => cases k <;> exact mem_cons_of_mem _ h
      | ok n =>
        dsimp only at h
        split at h
        · exact mem_cons_of_mem _ h
        · exact mem_cons_of_mem _ (ih h)

variable {fr : List UInt8}

/-- A frame that has begun to go out goes on, without its descriptor, until it is done or the kernel would block. -/
theorem sendRest_spec (tx : SendSide φ) (fd : Option φ) {se : Nat} (hl : se ≤ fr.length) (sc : List Wrote) :
    let s := tx.sendRest fr se sc
    (∃ u, s.result = .ok u ∧ s.side = tx ∧ u ≤ fr.length ∧
      (0 < se → laden fd (fr.take se) ++ Lib.cells s.wire = laden fd (fr.take u))) ∨
    ∃ k u, s.result = .error (.io k) ∧ s.side = { tx with sendPoisoned := some k } ∧ u < fr.length ∧
      (0 < se → laden fd (fr.take se) ++ Lib.cells s.wire = laden fd (fr.take u)) := by
  induction sc generalizing se with
  | nil => exact .inl ⟨se, rfl, rfl, hl, fun _ => append_nil _⟩
  | cons a sc ih =>
    unfold sendRest
    split
    · next hm =>
      cases a with
      | err k =>
        cases k with
        | wouldBlock => exact .inl ⟨se, rfl, rfl, hl, fun _ => append_nil _⟩
        | _ => exact .inr ⟨_, se, rfl, rfl, hm, fun _ => append_nil _⟩
      | ok n =>
        dsimp only
        split
        · exact .inr ⟨_, se, rfl, rfl, hm, fun _ => append_nil _⟩
        · have ht (hp : 0 < se) : laden fd (fr.take se) ++ laden none ((fr.drop se).take n) =
              laden fd (fr.take (se + min n (fr.length - se))) := by
            have hn : fr.take se ≠ [] := by
              refine List.ne_nil_of_length_pos ?_
              rw [length_take]
              omega
            rw [List.take_add, laden_append hn, ← length_drop, ← List.take_eq_take_min]
          have hf : se + min n (fr.length - se) ≤ fr.length := by omega
          simp only [Sent.after_wire, cells_append, cells_ofWrite]
          rcases ih hf with ⟨u, hr, hs, hl', hw⟩ | ⟨k, u, hr, hs, hlt, hw⟩
          · refine .inl ⟨u, hr, hs, hl', fun hp => ?_⟩
            rw [← append_assoc, ht hp]
            exact hw (by omega)
          · refine .inr ⟨k, u, hr, hs, hlt, fun hp => ?_⟩
            rw [← append_assoc, ht hp]
            exact hw (by omega)
    · exact .inl ⟨se, rfl, rfl, hl, fun _ => append_nil _⟩

/-- The kernel takes at least a byte whenever it takes something. -/
def Progress (script : List Wrote) : Prop := ∀ n, .ok n ∈ script → 0 < n

/-- A fresh frame goes out from its first byte, which carries its descriptor. -/
theorem trySendNow_spec (tx : SendSide φ) (fd : Option φ) (hn : fr ≠ []) (sc : List Wrote) :
    let s := tx.trySendNow fr fd sc
    (∃ u, s.result = .ok u ∧ s.side = tx ∧ u ≤ fr.length ∧ (Progress sc → Lib.cells s.wire = laden fd (fr.take u))) ∨
    ∃ k u, s.result = .error (.io k) ∧ s.side = { tx with sendPoisoned := some k } ∧ u < fr.length ∧
      (Progress sc → Lib.cells s.wire = laden fd (fr.take u)) := by
  have hlen := List.length_pos_iff.mpr hn
  cases sc with
  | nil => exact .inl ⟨0, rfl, rfl, Nat.zero_le _, fun _ => rfl⟩
  | cons a sc =>
    cases a with
    | err k =>
      cases k with
      | wouldBlock => exact .inl ⟨0, rfl, rfl, Nat.zero_le _, fun _ => rfl⟩
      | _ => exact .inr ⟨_, 0, rfl, rfl, hlen, fun _ => rfl⟩
    | ok n =>
      have hse (hp : Progress (.ok n :: sc)) : 0 < min n fr.length := by
        have := hp n (.head _)
        omega
      unfold trySendNow
      simp only [Sent.after_wire, cells_append, cells_ofWrite]
      rw [List.take_eq_take_min]
      rcases tx.sendRest_spec fd (Nat.min_le_right n fr.length) sc with
        ⟨u, hr, hs, hl, hw⟩ | ⟨k, u, hr, hs, hlt, hw⟩
      · exact .inl ⟨u, hr, hs, hl, fun hp => hw (hse hp)⟩
      · exact .inr ⟨k, u, hr, hs, hlt, fun hp => hw (hse hp)⟩

variable {b : List UInt8}

theorem park_spec (h : tx.Counted) (hn : b ≠ []) (fd : Option φ) :
    ((tx.park b fd).1 = .ok () ∧ (tx.park b fd).2.cells = tx.cells ++ laden fd b ∧
      (tx.park b fd).2.Counted ∧ ((tx.park b fd).2.Dead ↔ tx.Dead)) ∨
    ((tx.park b fd).1 = .error (.sendQueueFull tx.queuedSendBytes) ∧
      (tx.park b fd).2 = { tx with sendOverflowed := true }) := by
  unfold park
  split
  · exact .inr ⟨rfl, rfl⟩
  · next hr =>
    obtain ⟨hb, hf⟩ := not_or.mp hr
    have hc : (tx.sendQueue ++ [(⟨b, 0, fd⟩ : QueuedFrame φ)]).flatMap QueuedFrame.cells =
        tx.cells ++ laden fd b := by
      rw [List.flatMap_append, List.flatMap_singleton]
      rfl
    have ha : (attached (laden fd b)).length = fd.isSome.toNat := by
      rw [attached_laden fd hn]
      cases fd <;> rfl
    refine .inl ⟨rfl, hc, ⟨?_, ?_, ?_, Nat.le_of_not_lt hb, Nat.le_of_not_lt hf⟩, Iff.rfl⟩
    · intro q hq
      rcases List.mem_append.mp hq with hq | hq
      · exact h.parked q hq
      · cases List.mem_singleton.mp hq
        exact ⟨List.length_pos_iff.mpr hn, fun _ => rfl⟩
    · unfold cells
      rw [hc, length_append, length_laden, h.bytes]
    · unfold cells
      rw [hc, attached_append, length_append, ha, h.fds]

theorem park_empty (h : tx.Counted) (he : tx.sendQueue = []) (hs : b.length ≤ maxMessageSize)
    (fd : Option φ) : (tx.park b fd).1 = .ok () := by
  have hc : tx.cells = [] := by
    unfold cells
    rw [he]
    rfl
  have hb : tx.queuedSendBytes = 0 := h.bytes.trans (congrArg List.length hc)
  have hf : tx.queuedSendFds = 0 := by
    rw [h.fds, hc]
    rfl
  have hfd : fd.isSome.toNat ≤ 1 := Bool.toNat_le _
  unfold park
  rw [hb, hf, if_neg]
  unfold maxMessageSize at hs
  unfold maxSendQueueBytes maxSendQueueFds
  omega

/-- How a send ends. -/
inductive Outcome (kept : Prop) (tx : SendSide φ) (f : Frame φ) (dup : Option ErrorKind) (s : Sent φ Unit) : Prop
  /-- The frame is on the wire or parked, behind everything before it. -/
  | accepted (hresult : s.result = .ok ()) (hvalid : f.Valid) (hconveys : Conveys kept tx s f.cells)
      (halive : ¬ s.side.Dead)
  /-- The call contradicts itself: nothing happens. -/
  | misuse {m : LocalMisuse} (hresult : s.result = .error (.localMisuse m)) (hinvalid : ¬ f.Valid)
      (hconveys : Conveys kept tx s [])
  /-- The send failed and no later one will succeed; nothing of the frame went out. -/
  | failed {e : TransportError} (hresult : s.result = .error e) (hconveys : Conveys kept tx s []) (hdead : s.side.Dead)
  /-- The send failed in the middle of the frame. -/
  | torn {e : TransportError} {piece : List (Cell UInt8 φ)} (hresult : s.result = .error e) (hvalid : f.Valid)
      (hconveys : Conveys kept tx s piece) (hpiece : piece <+: f.cells) (hshort : piece.length < f.bytes.length)
      (hqueue : s.side.sendQueue = []) (hdead : s.side.Dead)
  | forgotten {kind : ErrorKind} (hresult : s.result = .error (.io kind)) (hdup : dup = some kind)
      (hconveys : Conveys kept tx s [])

theorem Outcome.after {k' : Prop} {t' : SendSide φ} {d : Option ErrorKind} {s : Sent φ Unit}
    (h : Outcome k' t' f d s) (hke : ke → k') (hw : ke → Lib.cells w ++ t'.cells = tx.cells) :
    Outcome ke tx f d (s.after w) := by
  have ha {a : List (Cell UInt8 φ)} (hs : Conveys k' t' s a) : Conveys ke tx (s.after w) a :=
    Conveys.after ⟨hs.counted, fun hk => hs.stream (hke hk)⟩ hw
  cases h with
  | accepted hr hv hc hal => exact .accepted hr hv (ha hc) hal
  | misuse hr hi hc => exact .misuse hr hi (ha hc)
  | failed hr hc hd => exact .failed hr (ha hc) hd
  | torn hr hv hc hp hsh hq hd => exact .torn hr hv (ha hc) hp hsh hq hd
  | forgotten hr hdu hc => exact .forgotten hr hdu (ha hc)

theorem parkDup_outcome (h : tx.Counted) (ha : ¬ tx.Dead) (hv : f.Valid) (d : Option ErrorKind)
    (ke : Prop) (sc : List Wrote) : Outcome ke tx f d (tx.parkDup f.bytes f.fd d sc) := by
  unfold parkDup
  split
  · exact .forgotten rfl rfl (h.conveys _ _ _)
  · rcases park_spec h hv.ne_nil f.fd with ⟨hok, hc, hco, hd⟩ | ⟨hf, hs⟩
    · exact .accepted hok hv ⟨hco, fun _ => hc⟩ (mt hd.mp ha)
    · refine .failed hf ⟨?_, fun _ => ?_⟩ ?_
      · rw [hs]
        exact ⟨h.parked, h.bytes, h.fds, h.bytesCap, h.fdsCap⟩
      · rw [hs]
        exact (append_nil _).symm
      · rw [hs]
        exact .inl rfl

theorem sendFlushed_outcome (h : tx.Counted) (ha : ¬ tx.Dead) (hv : f.Valid) (d : Option ErrorKind)
    (sc : List Wrote) : Outcome (Progress sc) tx f d (tx.sendFlushed f.bytes f.fd d sc) := by
  unfold sendFlushed
  cases hq : tx.sendQueue with
  | cons fr r => exact parkDup_outcome h ha hv d _ sc
  | nil =>
    have he : tx.cells = [] := by
      unfold cells
      rw [hq]
      rfl
    dsimp only
    rcases tx.trySendNow_spec f.fd hv.ne_nil sc with
      ⟨u, hr, hs, hl, hw⟩ | ⟨k, u, hr, hs, hlt, hw⟩
    · rw [hr]
      dsimp only
      split
      · next hal =>
        refine .accepted rfl hv ⟨?_, fun hp => ?_⟩ ?_
        · rw [hs]
          exact h
        · rw [hs, he, hw hp, hal, List.take_length]
          exact append_nil _
        · rw [hs]
          exact ha
      · next hm =>
        by_cases hz : u = 0
        · -- Nothing went out: the frame is parked whole.
          rw [hs, hz, if_pos rfl, List.drop_zero]
          refine (parkDup_outcome h ha hv d _ _).after id fun hp => ?_
          rw [hw hp, hz]
          rfl
        · -- The descriptor is gone, so there is nothing to duplicate, and there is room in the empty queue.
          have hn : f.bytes.drop u ≠ [] := mt List.drop_eq_nil_iff.mp (by omega)
          have hsi : (f.bytes.drop u).length ≤ maxMessageSize := by
            have := hv.le_max
            rw [length_drop]
            omega
          rw [hs, if_neg hz]
          have hro := park_empty h hq hsi none
          rcases park_spec h hn (none : Option φ) with ⟨hok, hc, hco, hd⟩ | ⟨hf, -⟩
          · refine .accepted hok hv ⟨hco, fun hp => ?_⟩ (mt hd.mp ha)
            change Lib.cells (_ ++ []) ++ (tx.park (f.bytes.drop u) none).2.cells = _
            rw [append_nil, hw hp, hc, he, List.nil_append, List.nil_append,
              laden_take_append_drop (Nat.pos_of_ne_zero hz)]
            rfl
          · cases hro.symm.trans hf
    · rw [hr]
      refine .torn rfl hv ⟨?_, fun hp => ?_⟩ (List.take_prefix u f.cells) ?_ ?_ ?_
      · rw [hs]
        exact h.poison k
      · rw [hs, he, hw hp, Frame.cells, take_laden]
        change _ ++ tx.cells = _
        rw [he, append_nil]
        rfl
      · rw [length_take]
        omega
      · rw [hs]
        exact hq
      · rw [hs]
        exact .inr rfl

theorem sendOrQueue_dead (hd : tx.Dead) (fr : List UInt8) (fd : Option φ) (d : Option ErrorKind)
    (sc : List Wrote) : let s := tx.sendOrQueue fr fd d sc
    s.side = tx ∧ s.wire = [] ∧ ∃ e, s.result = .error e := by
  unfold sendOrQueue
  cases validateOutgoing fr fd with
  | error m => exact ⟨rfl, rfl, _, rfl⟩
  | ok =>
    by_cases hover : tx.sendOverflowed = true
    · rw [if_pos hover]
      exact ⟨rfl, rfl, _, rfl⟩
    · rw [if_neg hover]
      obtain ⟨k, hk⟩ := Option.isSome_iff_exists.mp (hd.resolve_left hover)
      rw [hk]
      exact ⟨rfl, rfl, _, rfl⟩

theorem sendOrQueue_outcome (h : tx.Counted) (f : Frame φ) (d : Option ErrorKind) (sc : List Wrote) :
    Outcome (Progress sc) tx f d (tx.sendOrQueue f.bytes f.fd d sc) := by
  by_cases hd : tx.Dead
  · obtain ⟨hs, hw, e, hr⟩ := sendOrQueue_dead hd f.bytes f.fd d sc
    refine .failed hr ⟨?_, fun _ => ?_⟩ ?_
    · rw [hs]
      exact h
    · rw [hs, hw]
      exact (append_nil _).symm
    · rw [hs]
      exact hd
  · obtain ⟨hover, hp⟩ := not_or.mp hd
    have hno : tx.sendPoisoned = none := Option.not_isSome_iff_eq_none.mp hp
    unfold sendOrQueue
    cases hva : validateOutgoing f.bytes f.fd with
    | error m =>
      refine .misuse rfl (fun hv => ?_) (h.conveys _ _ _)
      cases hva.symm.trans hv
    | ok =>
      have hv : f.Valid := hva
      dsimp only
      rw [if_neg hover, hno]
      cases hq : tx.sendQueue with
      | nil => exact sendFlushed_outcome h hd hv d sc
      | cons fr r =>
        obtain ⟨hc, hsa, he⟩ := flushSendQueue_spec h sc
        rcases he with ⟨hok, hcl⟩ | ⟨k, her, hpo⟩
        · rw [hok]
          have ha : ¬ (tx.flushSendQueue sc).side.Dead := by
            unfold Dead
            rw [hsa, hcl]
            exact hd
          refine (sendFlushed_outcome hc.counted ha hv d _).after ?_ fun _ => ?_
          · exact fun hpr n hn => hpr n (flushSendQueue_script hn)
          · exact (hc.stream trivial).trans (append_nil _)
        · rw [her]
          exact .failed rfl ⟨hc.counted, fun _ => hc.stream trivial⟩ (.inr (by rw [hpo]; rfl))

end SendSide

/-! ### Runs of the send path -/

def Torn (piece : List (Cell UInt8 φ)) : Prop :=
  piece = [] ∨ ∃ f : Frame φ, f.Valid ∧ piece <+: f.cells ∧ piece.length < f.bytes.length

/-- What the kernel took, followed by what is parked, is what was accepted and perhaps a piece of a frame after which
nothing comes. -/
structure Feeds (accepted : List (Frame φ)) (wire : List (Cell UInt8 φ)) (tx : SendSide φ) : Prop where
  counted : tx.Counted
  valid : ∀ f ∈ accepted, f.Valid
  stream : ∃ piece, wire ++ tx.cells = accepted.flatMap Frame.cells ++ piece ∧ Torn piece ∧
    (piece ≠ [] → tx.sendQueue = [] ∧ tx.Dead)

theorem feeds_new : Feeds [] [] (.new : SendSide φ) where
  counted := SendSide.counted_new
  valid _ h := nomatch h
  stream := ⟨[], rfl, .inl rfl, fun h => absurd rfl h⟩

def Sent.frame (s : Sent φ Unit) (f : Frame φ) : List (Frame φ) := match s.result with
  | .ok () => [f]
  | .error _ => []

namespace Feeds

variable {ac : List (Frame φ)} {w : List (Cell UInt8 φ)} {tx : SendSide φ}

variable (h : Feeds ac w tx)

include h

theorem conveys {α : Type v} {s : Sent φ α} (hk : ke)
    (hs : SendSide.Conveys ke tx s []) (he : tx.sendQueue = [] → tx.Dead → s.side.sendQueue = [] ∧ s.side.Dead) :
    Feeds ac (w ++ Lib.cells s.wire) s.side where
  counted := hs.counted
  valid := h.valid
  stream := by
    obtain ⟨p, hst, ht, hl⟩ := h.stream
    refine ⟨p, ?_, ht, fun hp => he (hl hp).1 (hl hp).2⟩
    rw [append_assoc, hs.stream hk, append_nil, hst]

/-- A call at the end of an intact stream, which adds a frame or a piece of one. -/
theorem adds {s : Sent φ Unit} (ha : ¬ tx.Dead) (hk : ke) (hs : SendSide.Conveys ke tx s a) :
    w ++ Lib.cells s.wire ++ s.side.cells = ac.flatMap Frame.cells ++ a := by
  obtain ⟨p, hst, -, hl⟩ := h.stream
  have hn : p = [] := by
    by_contra hp
    exact ha (hl hp).2
  rw [append_assoc, hs.stream hk, ← append_assoc, hst, hn, append_nil]

theorem flush (sc : List Wrote) :
    Feeds ac (w ++ Lib.cells (tx.flushSendQueue sc).wire) (tx.flushSendQueue sc).side := by
  refine h.conveys trivial (SendSide.flushSendQueue_spec h.counted sc).1 fun hq hd => ?_
  have hi : (tx.flushSendQueue sc).side = tx := by
    cases sc with
    | nil => rfl
    | cons a sc => rw [SendSide.flushSendQueue, hq]
  rw [hi]
  exact ⟨hq, hd⟩

theorem send (f : Frame φ) (d : Option ErrorKind) (hp : SendSide.Progress sc) :
    let s := tx.sendOrQueue f.bytes f.fd d sc
    Feeds (ac ++ s.frame f) (w ++ Lib.cells s.wire) s.side := by
  intro s
  have hn {e : TransportError} (hr : s.result = .error e) : ac ++ s.frame f = ac := by
    rw [Sent.frame, hr, append_nil]
  by_cases hde : tx.Dead
  · obtain ⟨hsi, hw, e, hr⟩ := SendSide.sendOrQueue_dead hde f.bytes f.fd d sc
    rw [hn hr, hw, hsi, cells_nil, append_nil]
    exact h
  · cases SendSide.sendOrQueue_outcome h.counted f d sc with
    | accepted hr hv hc _ =>
      have hon : ac ++ s.frame f = ac ++ [f] := by rw [Sent.frame, show s.result = _ from hr]
      rw [hon]
      refine ⟨hc.counted, ?_, [], ?_, .inl rfl, fun hne => absurd rfl hne⟩
      · intro g hg
        rcases List.mem_append.mp hg with hg | hg
        · exact h.valid g hg
        · exact List.mem_singleton.mp hg ▸ hv
      · rw [h.adds hde hp hc, List.flatMap_append, List.flatMap_singleton, append_nil]
    | torn hr hv hc hpi hs hq hl =>
      rw [hn hr]
      exact ⟨hc.counted, h.valid, _, h.adds hde hp hc, .inr ⟨f, hv, hpi, hs⟩,
        fun _ => ⟨hq, hl⟩⟩
    | misuse hr _ hc | failed hr hc hl | forgotten hr hdu hc =>
      rw [hn hr]
      exact h.conveys hp hc fun _ hd => absurd hd hde

end Feeds

/-- A beginning of a stream of frames: there is a whole frame at its front, or it is a piece of one. -/
theorem front_of_stream {t : List (Cell UInt8 φ)} {fr : List (Frame φ)} {p : List (Cell UInt8 φ)}
    (hv : ∀ f ∈ fr, f.Valid) (ht : Torn p) (h : t <+: fr.flatMap Frame.cells ++ p) :
    (∃ f r t', fr = f :: r ∧ t = f.cells ++ t' ∧
      t' <+: r.flatMap Frame.cells ++ p) ∨ Torn t := by
  cases fr with
  | nil =>
    refine .inr ?_
    rcases ht with rfl | ⟨f, hf, hpi, hs⟩
    · exact .inl (List.prefix_nil.mp h)
    · exact .inr ⟨f, hf, h.trans hpi, Nat.lt_of_le_of_lt h.length_le hs⟩
  | cons f r =>
    rw [List.flatMap_cons, append_assoc] at h
    have hl : f.cells.length = f.bytes.length := length_laden f.fd f.bytes
    by_cases hw : f.cells.length ≤ t.length
    · obtain ⟨t', rfl⟩ := List.prefix_of_prefix_length_le (List.prefix_append _ _) h hw
      exact .inl ⟨f, r, t', rfl, rfl, (List.prefix_append_right_inj _).mp h⟩
    · have hp := List.prefix_of_prefix_length_le h (List.prefix_append _ _) (by omega)
      exact .inr (.inr ⟨f, hv f (.head _), hp, by omega⟩)

end Vitrin.Ipc
