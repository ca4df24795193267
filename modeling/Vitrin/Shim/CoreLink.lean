import Vitrin.Ipc.Transport
import Vitrin.Protocol.CCodec
import Vitrin.Shim.WireReceive

/-!
# The core and the shim

The core's end of a connection and the shim's end of it, each sending to the other.

A `CoreShim` is the core's send side, the channel to the shim and the shim's connection.
A run is a list of sends and flushes at the core, and of sends, wakeups and a finish at
the shim, in any order, with any answers of the kernel. While a batch of frames is
dispatched, the shim's handlers may send, claim descriptors and reject frames.

Towards the shim: `Facing` says that what the shim has received and what is on its way
are the frames that the core sent, perhaps with a piece of one; a batch takes frames off
its front (`dispatchLoop_batch`) and a read only moves bytes (`wireFill_facing`). From the
shim: `Streams` of the send side. `Linked` has both, every step keeps it
(`coreShimStep_linked`), and `transports_interoperate` reads it at the end of a run. With
the codecs on top, messages arrive (`messages_arrive`).

The result asks that write readiness is not handled on a connection that was given up
(`Rests`). The source does not see to that: `wire_ready` flushes without a look at whether
the connection is alive (`failed_wire_writes_again`).
-/

namespace Vitrin.Shim

open Lib Protocol Ipc RecvSide
open List (append_assoc prefix_append append_nil)

universe u

variable {φ : Type u} {rx : RecvSide φ} {channel : List (Segment UInt8 φ)} {later : List (Ipc.Frame φ)}

namespace Wire

variable {w w' : Wire φ} {pos : Nat}

/-! ### A batch of frames -/

theorem Views.withNote (h : Views w pos rx) (m : List (Mark φ)) : Views (w.note m) pos rx :=
  ⟨h.recvBuf, h.consumed, h.pending, h.sound⟩

/-- The buffer from `pos` on, and what it is a beginning of: these frames and perhaps a piece of one. Once a send of the
handler has given the connection up, the descriptors are gone, but the frames are still there. -/
inductive Facing (later : List (Ipc.Frame φ)) (piece rest : List (Cell UInt8 φ)) (channel : List (Segment UInt8 φ))
    (w : Wire φ) (pos : Nat) : Prop
  | sound {rx : RecvSide φ} (hviews : Views w pos rx) (hbefore : Before later piece rest channel rx)
  | gone {taken : List (Cell UInt8 φ)} (hfailed : w.failed.isSome) (hnone : w.pending.toList = [])
      (hbuf : w.rx.drop pos = taken.map (·.1)) (hvalid : ∀ f ∈ later, f.Valid) (htorn : Torn piece)
      (hbegun : taken <+: later.flatMap Ipc.Frame.cells ++ piece)

theorem Facing.noted {p r : List (Cell UInt8 φ)} (h : Facing later p r channel w pos)
    (m : List (Mark φ)) : Facing later p r channel (w.note m) pos := by
  cases h with
  | sound hvi hb => exact .sound (hvi.withNote m) hb
  | gone hf hn hbu hv ht hbe => exact .gone hf hn hbu hv ht hbe

theorem Facing.side {p re : List (Cell UInt8 φ)} (h : Facing later p re channel w pos) (hs : Side w w') :
    Facing later p re channel w' pos := by
  cases h with
  | sound hv hb =>
    rcases hs.pending with hsa | ⟨hf, hn⟩
    · refine .sound ⟨?_, ?_, hsa.trans hv.pending, hv.sound⟩ hb
      · rw [hs.rx]
        exact hv.recvBuf
      · rw [hs.consumed]
        exact hv.consumed
    · obtain ⟨t, hh, hstr⟩ := hb.holds
      have hbu : w'.rx.drop pos = t.map (·.1) := by rw [hs.rx, ← hv.recvBuf, hh.recvBuf]
      refine .gone hf hn hbu hb.valid hb.torn ?_
      rw [← hstr, append_assoc]
      exact prefix_append _ _
  | gone hf hn hbu hva ht hbe =>
    obtain ⟨r, hr⟩ := Option.isSome_iff_exists.mp hf
    have hst : w'.failed.isSome := by
      rw [hs.sticky r hr]
      rfl
    have hn' : w'.pending.toList = [] := by
      rcases hs.pending with hsa | ⟨-, hd⟩
      · exact hsa.trans hn
      · exact hd
    exact .gone hst hn' (hs.rx ▸ hbu) hva ht hbe

theorem nextFrame_missing {f : Ipc.Frame φ} (hf : f.Valid) (hfd : f.fd.isSome) {m : List UInt8}
    (hb : rx.recvBuf = f.bytes ++ m) (hn : rx.pendingFds = []) : ∃ v r', rx.nextFrame = some (.error v, r') := by
  obtain ⟨header, hde, hs, hc, hd⟩ := hf.header
  have hfr : FrameHeader.decode rx.recvBuf = .ok header := by
    rw [hb, FrameHeader.decode_append hf.header_le, hde]
  have hfi : f.bytes.length ≤ rx.recvBuf.length := by
    rw [hb, List.length_append]
    exact Nat.le_add_right _ _
  have hl := hf.header_le
  unfold nextFrame
  rw [hfr]
  dsimp only
  rw [if_neg (by omega), if_neg (Nat.not_lt.mpr hc), if_neg (by omega)]
  unfold takeFrame
  rw [if_pos (hd.mpr hfd), hn]
  exact ⟨_, _, rfl⟩

/-- What is at the front of the buffer: the next frame, or nothing whole, or, when the descriptors are gone, a frame
that is refused for want of one. -/
theorem Facing.front {pi r : List (Cell UInt8 φ)} (h : Facing later pi r channel w pos) :
    (w.cutFrame pos = .incomplete ∧ (w.failed = none → ∃ rx, Views w pos rx ∧ Before later pi r channel rx ∧
      rx.nextFrame = none)) ∨
    (∃ f l' p si, later = f :: l' ∧ w.cutFrame pos = .frame (w.withPending p) f si ∧
      0 < si ∧ pos + si ≤ w.rx.length ∧ Facing l' pi r channel (w.withPending p) (pos + si)) ∨
    (w.failed.isSome ∧ ∃ p, ∃ fds : List φ, ∃ re,
      w.cutFrame pos = .violation ((w.withPending p).note (fds.map .closed)) re) := by
  -- The core's receiver takes the next frame, so the shim does.
  have ht {rx r' : RecvSide φ} {m : Ipc.Message φ} (hv : Views w pos rx)
      (hn : rx.nextFrame = some (.ok m, r')) :
      ∃ p, w.cutFrame pos = .frame (w.withPending p) m.frame m.header.size.toNat ∧
        0 < m.header.size.toNat ∧ pos + m.header.size.toNat ≤ w.rx.length ∧
        Views (w.withPending p) (pos + m.header.size.toNat) r' := by
    have ha := cutFrame_agrees hv
    have hfro := rx.nextFrame_fronts
    rw [hn] at ha hfro
    generalize w.cutFrame pos = cut at ha
    cases ha with
    | frame haf =>
      cases hfro with
      | taken hta =>
        have hw := hta.whole
        have hle := hv.length
        unfold headerLen at hw
        exact ⟨_, rfl, by omega, by omega, haf⟩
  have hno {rx : RecvSide φ} (hv : Views w pos rx) (hn : rx.nextFrame = none) :
      w.cutFrame pos = .incomplete := by
    have ha := cutFrame_agrees hv
    rw [hn] at ha
    generalize w.cutFrame pos = cut at ha
    cases ha
    rfl
  cases h with
  | sound hv hbe =>
    rcases hbe.front with ⟨m, r', l', hn, hl, haf⟩ | ⟨hn, -⟩
    · obtain ⟨p, hc, hp, hfi, hv'⟩ := ht hv hn
      exact .inr (.inl ⟨_, l', p, _, hl, hc, hp, hfi, .sound hv' haf⟩)
    · exact .inl ⟨hno hv hn, fun _ => ⟨_, hv, hbe, hn⟩⟩
  | @gone t hfa hnon hbu hva hto hbeg =>
    have hv : Views w pos ⟨w.rx.drop pos, [], w.consumed + pos, none⟩ := ⟨rfl, rfl, hnon, rfl⟩
    rcases front_of_stream hva hto hbeg with ⟨f, l', t', rfl, rfl, hb'⟩ | hpi
    · have hf := hva f (.head _)
      have hfr : w.rx.drop pos = f.bytes ++ t'.map (·.1) := by
        rw [hbu, List.map_append, Ipc.Frame.cells, map_fst_laden]
      cases hfd : f.fd with
      | some x =>
        have hm : ∃ v r', nextFrame ⟨w.rx.drop pos, [], w.consumed + pos, none⟩ =
            some (.error v, r') := nextFrame_missing hf (hfd ▸ rfl) hfr rfl
        obtain ⟨v, r', hn⟩ := hm
        have ha := cutFrame_agrees hv
        rw [hn] at ha
        generalize w.cutFrame pos = cut at ha
        cases ha with
        | violation => exact .inr (.inr ⟨hfa, _, _, _, rfl⟩)
      | none =>
        -- Without its descriptor a frame is a stretch of bare bytes, and so is what follows it here.
        have hh : RecvSide.Holds ⟨w.rx.drop pos, [], w.consumed + pos, none⟩
            (f.cells ++ laden none (t'.map (·.1))) := by
          have hb : f.cells ++ laden none (t'.map (·.1)) = laden none (f.bytes ++ t'.map (·.1)) := by
            rw [Ipc.Frame.cells, hfd, laden_append hf.ne_nil]
          refine ⟨?_, ?_, rfl⟩
          · rw [hb, map_fst_laden]
            exact hfr
          · rw [hb]
            exact carries_laden_none _
        obtain ⟨m, r', hn, rfl, hh'⟩ := nextFrame_whole hf hh
        obtain ⟨p, hc, hp, hfi, hv'⟩ := ht hv hn
        have he : r'.pendingFds = [] := by
          rw [← List.length_eq_zero_iff, hh'.pending.length, attached_laden_none]
          rfl
        refine .inr (.inl ⟨_, l', p, _, rfl, hc, hp, hfi, ?_⟩)
        refine .gone hfa ?_ ?_ (fun g hg => hva g (.tail _ hg)) hto hb'
        · rw [hv'.pending, he]
          rfl
        · rw [← hv'.recvBuf, hh'.recvBuf, map_fst_laden]
    · exact .inl ⟨hno hv (nextFrame_piece hpi hbu), fun hs => by
        rw [hs] at hfa
        cases hfa⟩

/-- Giving the connection up again does not change why it was given up. -/
theorem fail_blameless (h : ∀ r, w.failed = some r → ¬ r.Violation) {re : Failure}
    (hre : w.failed.isSome ∨ ¬ re.Violation) : ∀ r, (w.fail re).failed = some r → ¬ r.Violation := by
  intro r hr
  change w.failed.or (some re) = some r at hr
  cases hf : w.failed with
  | some r' =>
    rw [hf] at hr
    cases Option.some.inj hr
    exact h _ hf
  | none =>
    rw [hf] at hr hre
    cases Option.some.inj hr
    exact hre.resolve_left nofun

theorem isSome_fail {w : Wire φ} {r : Failure} : (w.fail r).failed.isSome := by
  change (w.failed.or (some r)).isSome
  cases w.failed <;> rfl

theorem handedIn_fail {w : Wire φ} {r : Failure} : handedIn (w.fail r).log = handedIn w.log := by
  change handedIn (w.log ++ (w.pending.toList.filterMap (·.fd)).map .closed) = _
  simp [handedIn]

/-- The handler's turn: the frame has been handed on, and the handler may have given the connection up. -/
theorem handle_spec {p res : List (Cell UInt8 φ)} (hst : w.Streams)
    (hf : Facing later p res channel w pos) (hbl : ∀ r, w.failed = some r → ¬ r.Violation)
    (f : Ipc.Frame φ) {re : Reaction φ} (hp : ∀ c ∈ re.sends, Progress c.answers) :
    (w.handle f re).Streams ∧ Facing later p res channel (w.handle f re) pos ∧
    (∀ r, (w.handle f re).failed = some r → ¬ r.Violation) ∧
    handedIn (w.handle f re).log = handedIn w.log ++ [f] ∧ (w.handle f re).rx = w.rx := by
  obtain ⟨hse, hs⟩ := (hst.noted (inert_handed f)).sendAll hp
  have hl : Inert (f.fd.toList.map (if re.claims then Mark.claimed else .closed)) := by
    split
    · exact inert_claimed
    · exact inert_closed _
  have hh : handedIn (f.fd.toList.map (if re.claims then Mark.claimed else .closed)) = [] := by
    split <;> simp [handedIn]
  refine ⟨hse.noted hl, ((hf.noted _).side hs).noted _, fun r hr => ?_, ?_, hs.rx⟩
  · rcases hs.blameless r hr with hb | hours
    · exact hbl r hb
    · exact hours
  · have hlo : (w.handle f re).log = ((w.note [.handed f]).sendAll re.sends).log ++
        f.fd.toList.map (if re.claims then Mark.claimed else .closed) := rfl
    rw [hlo, handedIn_append, hh, append_nil, hs.handed]
    change handedIn (w.log ++ [.handed f]) = _
    rw [handedIn_append]
    rfl

/-- How the dispatch of a batch ends: frames were handed on in order, and there is no whole frame left, or the
connection was given up, but not because of the peer. -/
structure Batch (fed : List (Ipc.Frame φ)) (piece rest : List (Cell UInt8 φ)) (channel : List (Segment UInt8 φ))
    (t : Dispatched φ) : Prop where
  streams : t.wire.Streams
  blameless : ∀ r, t.wire.failed = some r → ¬ r.Violation
  begun : handedIn t.wire.log <+: fed
  stopped : t.ok = false → t.wire.failed.isSome
  live : t.ok = true → t.wire.failed = none → ∃ rx later, Views t.wire t.pos rx ∧ Before later piece rest channel rx ∧
    rx.nextFrame = none ∧ fed = handedIn t.wire.log ++ later

theorem dispatchLoop_batch {fe : List (Ipc.Frame φ)} {pi res : List (Cell UInt8 φ)} (hs : w.Streams)
    (hfa : Facing later pi res channel w pos) (hb : ∀ r, w.failed = some r → ¬ r.Violation)
    (hf : fe = handedIn w.log ++ later) {re : List (Reaction φ)} (hp : ∀ rea ∈ re, ∀ c ∈ rea.sends, Progress c.answers)
    {ro : Nat} (hro : w.rx.length - pos < ro) : Batch fe pi res channel (w.dispatchLoop re pos ro) := by
  induction ro generalizing w pos later re with
  | zero => exact absurd hro (Nat.not_lt_zero _)
  | succ ro ih =>
    unfold dispatchLoop
    rcases hfa.front with ⟨hc, hli⟩ | ⟨f, l', p, si, rfl, hc, hpo, hfi, hfa'⟩ |
      ⟨hfai, p, fd, reason, hc⟩
    · rw [hc]
      refine ⟨hs, hb, hf ▸ prefix_append _ _, nofun, fun _ hso => ?_⟩
      obtain ⟨rx, hv, hbe, hn⟩ := hli hso
      exact ⟨rx, later, hv, hbe, hn, hf⟩
    · rw [hc]
      dsimp only
      have hre : ∀ c ∈ (re.headD .idle).sends, Progress c.answers := by
        cases re with
        | nil => exact fun _ h => nomatch h
        | cons rea _ => exact hp rea (.head _)
      obtain ⟨hn, hl, hours, hh, hrx⟩ := handle_spec (hs.withPending p) hfa' hb f hre
      have hf' : fe = handedIn ((w.withPending p).handle f (re.headD .idle)).log ++ l' := by
        rw [hh, hf, append_assoc]
        rfl
      split
      · refine ih hn hl hours hf' (fun r hr => hp r (List.mem_of_mem_tail hr)) ?_
        rw [hrx]
        change w.rx.length - (pos + si) < ro
        omega
      · refine ⟨hn.givenUp _, fail_blameless hours (.inr id), ?_, fun _ => isSome_fail, nofun⟩
        rw [handedIn_fail, hf']
        exact prefix_append _ _
    · rw [hc]
      refine ⟨((hs.withPending p).noted (inert_closed fd)).givenUp reason,
        fail_blameless hb (.inl hfai), ?_, fun _ => isSome_fail, nofun⟩
      rw [handedIn_fail]
      change handedIn (w.log ++ fd.map .closed) <+: fe
      rw [handedIn_append, (plain_closed fd).handed, append_nil, hf]
      exact prefix_append _ _

/-! ### One read -/

theorem harvest_of_room {f : List φ} (hr : w.pending.len + f.length ≤ maxUnclaimed) (ss se : Nat) :
    ∃ p, w.harvest ss se f = (false, (w.withPending p).note (f.map .received)) ∧
      p.toList = w.pending.toList ++ f.map fun fd => ⟨ss, se, some fd⟩ := by
  induction f generalizing w with
  | nil => exact ⟨w.pending, by simp [harvest, withPending, note], by simp⟩
  | cons fd f ih =>
    rw [List.length_cons] at hr
    have hl : w.pending.len < maxUnclaimed := by omega
    have hn : (w.pending.push ⟨ss, se, some fd⟩ hl).len + f.length ≤ maxUnclaimed := by
      change w.pending.len + 1 + f.length ≤ maxUnclaimed
      omega
    obtain ⟨p, hh, hp⟩ := ih (w := { w with
      pending := w.pending.push ⟨ss, se, some fd⟩ hl, log := w.log ++ [.received fd] }) hn
    refine ⟨p, ?_, ?_⟩
    · unfold harvest
      rw [dif_pos hl, hh]
      simp [withPending, note]
    · rw [hp, Ring.toList_push]
      simp

end Wire

/-- What the kernel does at the shim's `recvmsg`. -/
inductive ShimRead where
  /-- Deliver up to this much of what the channel allows. -/
  | upTo (n : Nat)
  | eof
  | err (e : Errno)
  deriving DecidableEq

/-- `recvmsg` on the channel, into the room there is. -/
def shimKernel : Machine (List (Segment UInt8 φ)) (Nat × ShimRead) (Recvmsg φ) := fun channel (room, read) =>
  match read with
  | .upTo n =>
    if h : (recv (min n room) channel).1 = [] then (channel, .err .again)
    else ((recv (min n room) channel).2,
      .delivery
        { bytes := (recv (min n room) channel).1.map (·.1)
          fds := attached (recv (min n room) channel).1
          truncated := false
          nonempty := by simpa using h })
  | .eof => (channel, .eof)
  | .err e => (channel, .err e)

theorem shimKernel_cases (channel : List (Segment UInt8 φ)) (ro : Nat) (r : ShimRead) :
    (∃ m d, (shimKernel channel (ro, r)).2 = .delivery d ∧ d.bytes = m.map (·.1) ∧ d.fds = attached m ∧
      d.truncated = false ∧ (attached m).length ≤ 1 ∧
      m ++ cells (shimKernel channel (ro, r)).1 = cells channel) ∨
    ((shimKernel channel (ro, r)).1 = channel ∧
      ((shimKernel channel (ro, r)).2 = .eof ∨ ∃ e, (shimKernel channel (ro, r)).2 = .err e)) := by
  cases r with
  | eof => exact .inr ⟨rfl, .inl rfl⟩
  | err e => exact .inr ⟨rfl, .inr ⟨e, rfl⟩⟩
  | upTo n =>
    unfold shimKernel
    dsimp only
    split
    · exact .inr ⟨rfl, .inr ⟨_, rfl⟩⟩
    · exact .inl ⟨_, _, rfl, rfl, rfl, rfl, recv_attached, recv_cells⟩

namespace Wire

variable {w w' : Wire φ} {pos : Nat}

/-- How a read from the channel ends: the next cells are in the buffer, or nothing has happened but perhaps the end of
the stream, or the connection was given up for an error of the kernel. -/
theorem wireFill_facing {pi res : List (Cell UInt8 φ)} (hs : w.Streams) (hv : Views w 0 rx)
    (hb : Before later pi res channel rx) (hn : rx.nextFrame = none) (re : ShimRead) :
    let t := w.wireFill shimKernel channel re
    t.2.1.Streams ∧ handedIn t.2.1.log = handedIn w.log ∧
    ((t.1 = true ∧ t.2.1.failed = w.failed ∧ ∃ r', Views t.2.1 0 r' ∧ Before later pi res t.2.2 r') ∨
      (t.1 = false ∧ ∃ r, ¬ r.Violation ∧ t.2.1 = w.fail r)) := by
  obtain ⟨hsh, hfe⟩ := hb.short hn
  have hle : w.rx.length = rx.recvBuf.length := by rw [hv.length, Nat.sub_zero]
  have hr : w.rx.length ≠ maxFrame := by
    rw [hle]
    exact Nat.ne_of_lt hsh
  have hend : { w with eof := true }.Streams := hs.idle rfl rfl rfl ⟨hs.owned.held, hs.owned.names⟩ rfl rfl rfl
    fun hl => absurd (w.alive_eof.symm.trans hl) Bool.false_ne_true
  have hve : Views { w with eof := true } 0 rx := ⟨hv.recvBuf, hv.consumed, hv.pending, hv.sound⟩
  unfold wireFill
  rw [if_neg hr]
  rcases shimKernel_cases channel (maxFrame - w.rx.length) re with
    ⟨m, d, ha, hby, hf, hw, hon, hc⟩ | ⟨hsa, he | ⟨e, her⟩⟩
  · have hp : w.pending.len = rx.pendingFds.length := by
      rw [← Ring.length_toList, hv.pending, List.length_map]
    have hfi : w.pending.len + d.fds.length ≤ maxUnclaimed := by
      rw [hp, hf]
      unfold maxUnclaimed
      omega
    obtain ⟨p, hh, hq⟩ := harvest_of_room hfi (w.consumed + w.rx.length)
      (w.consumed + w.rx.length + d.bytes.length)
    rw [ha]
    dsimp only
    rw [hh, hw]
    simp only [Bool.false_eq_true, if_false]
    obtain ⟨ta, hho, hstr⟩ := hb.holds
    have hst := (hs.withPending p).noted (inert_received d.fds)
    refine ⟨hst.idle rfl rfl rfl ⟨hst.owned.held, hst.owned.names⟩ rfl rfl rfl id, ?_, .inl ⟨trivial, rfl,
      rx.arrive d, ⟨?_, ?_, ?_, hv.sound⟩, hb.valid, hb.torn, ta ++ m, hho.arrive hby hf,
      ?_⟩⟩
    · change handedIn (w.log ++ d.fds.map .received) = _
      simp [handedIn]
    · rw [arrive, hv.recvBuf]
      rfl
    · exact hv.consumed
    · change p.toList = _
      rw [hq, hv.pending, arrive, List.map_append, List.map_map, hv.consumed, ← hle, Nat.add_zero]
      rfl
    · rw [append_assoc ta, hc, hstr]
  · rw [he, hsa]
    exact ⟨hend, rfl, .inl ⟨rfl, rfl, rx, hve, hb⟩⟩
  · rw [her, hsa]
    cases e with
    | again => exact ⟨hs, rfl, .inl ⟨rfl, rfl, rx, hv, hb⟩⟩
    | connReset => exact ⟨hend, rfl, .inl ⟨rfl, rfl, rx, hve, hb⟩⟩
    | pipe | other => exact ⟨hs.givenUp _, handedIn_fail, .inr ⟨rfl, _, id, rfl⟩⟩

end Wire

/-! ### Runs -/

/-- The core's send side, what is on its way to the shim, and the shim's connection. `fed` are the frames whose send the
core's side accepted; nothing reads it. -/
structure CoreShim (φ : Type u) where
  core : SendSide φ
  channel : List (Segment UInt8 φ)
  wire : Wire φ
  fed : List (Ipc.Frame φ)

def CoreShim.new : CoreShim φ := ⟨.new, [], .new, []⟩

inductive CoreShimOp (φ : Type u) where
  | coreSend (frame : Ipc.Frame φ) (dup : Option Ipc.ErrorKind) (script : List Wrote)
  | coreFlush (script : List Wrote)
  /-- `vitrin_wire_send`. -/
  | send (call : SendCall φ)
  /-- The shim's event source fires. -/
  | ready (wake : Wake ShimRead φ)
  /-- `vitrin_wire_finish`. -/
  | finish

def coreShimStep : Machine (CoreShim φ) (CoreShimOp φ) Unit := fun s op => match op with
  | .coreSend frame dup script =>
    let sent := s.core.sendOrQueue frame.bytes frame.fd dup script
    ({ s with core := sent.side, channel := s.channel ++ sent.wire, fed := s.fed ++ sent.frame frame }, ())
  | .coreFlush script =>
    let sent := s.core.flushSendQueue script
    ({ s with core := sent.side, channel := s.channel ++ sent.wire }, ())
  | .send call => ({ s with wire := (s.wire.send call).2 }, ())
  | .ready wake =>
    -- An event source that has been removed does not fire.
    if s.wire.source.isSome then
      let (wire, channel) := s.wire.wireReady shimKernel s.channel wake
      ({ s with wire, channel }, ())
    else (s, ())
  | .finish => ({ s with wire := s.wire.finish }, ())

/-- The kernel takes at least a byte whenever it takes something. -/
def CoreShimOp.Progresses : CoreShimOp φ → Prop
  | .coreSend _ _ script => SendSide.Progress script
  | .coreFlush _ => True
  | .send call => Wire.Progress call.answers
  | .ready wake => Wire.Progress wake.answers ∧
      (∀ reaction ∈ wake.reactions, ∀ call ∈ reaction.sends, Wire.Progress call.answers) ∧
      ∀ call ∈ wake.drained, Wire.Progress call.answers
  | .finish => True

/-- Write readiness is not handled on a connection that has been given up. -/
def Rests (s : CoreShim φ) : CoreShimOp φ → Prop
  | .ready wake => wake.writable = true → s.wire.source.isSome → s.wire.alive = true
  | _ => True

/-- The state of a run: the shim's stream is in order, the frames it handed on are a beginning of those the core sent,
and while its connection lives it has the rest before it. -/
structure Linked (s : CoreShim φ) : Prop where
  streams : s.wire.Streams
  blameless : ∀ r, s.wire.failed = some r → ¬ r.Violation
  begun : handedIn s.wire.log <+: s.fed
  feeds : ∃ stream, Feeds s.fed stream s.core ∧ (s.wire.alive = true → ∃ rx taken, Wire.Views s.wire 0 rx ∧
    rx.nextFrame = none ∧ rx.Holds taken ∧
    (handedIn s.wire.log).flatMap Ipc.Frame.cells ++ taken ++ cells s.channel = stream)

theorem linked_new : Linked (CoreShim.new : CoreShim φ) where
  streams := Wire.streams_new
  blameless _ h := nomatch h
  begun := List.nil_prefix
  feeds := ⟨[], feeds_new, fun _ => ⟨.new, [], ⟨rfl, rfl, rfl, rfl⟩, rfl, holds_new, rfl⟩⟩

namespace Linked

variable {s : CoreShim φ}

variable (h : Linked s)

include h

theorem grows {core : SendSide φ} {wire : List (Segment UInt8 φ)} {more : List (Ipc.Frame φ)}
    (hf : ∀ before, Feeds s.fed before s.core → Feeds (s.fed ++ more) (before ++ cells wire) core) :
    Linked { s with core, channel := s.channel ++ wire, fed := s.fed ++ more } := by
  obtain ⟨stream, hs, hl⟩ := h.feeds
  refine ⟨h.streams, h.blameless, h.begun.trans (prefix_append _ _), stream ++ cells wire, hf stream hs,
    fun ha => ?_⟩
  obtain ⟨rx, taken, hv, hn, hh, hal⟩ := hl ha
  refine ⟨rx, taken, hv, hn, hh, ?_⟩
  rw [cells_append, ← append_assoc, hal]

theorem side {wire : Wire φ} (hstr : wire.Streams) (hs : Wire.Side s.wire wire) : Linked { s with wire } := by
  refine ⟨hstr, fun r hr => ?_, ?_, ?_⟩
  · rcases hs.blameless r hr with hb | hours
    · exact h.blameless r hb
    · exact hours
  · change handedIn wire.log <+: s.fed
    rw [hs.handed]
    exact h.begun
  · obtain ⟨stream, hst, hl⟩ := h.feeds
    refine ⟨stream, hst, fun ha => ?_⟩
    have hb : s.wire.alive = true := by
      by_contra hd
      exact absurd (ha.symm.trans (hs.dead (Bool.eq_false_iff.mpr hd))) nofun
    obtain ⟨rx, taken, hv, hn, hh, hal⟩ := hl hb
    have hp : wire.pending.toList = s.wire.pending.toList := by
      rcases hs.pending with hsa | ⟨hf, -⟩
      · exact hsa
      · exact absurd (ha.symm.trans (Wire.alive_of_failed hf)) nofun
    refine ⟨rx, taken, ⟨?_, ?_, hp.trans hv.pending, hv.sound⟩, hn, hh, ?_⟩
    · rw [hv.recvBuf]
      exact congrArg (List.drop 0) hs.rx.symm
    · rw [hv.consumed]
      exact congrArg (· + 0) hs.consumed.symm
    · change (handedIn wire.log).flatMap Ipc.Frame.cells ++ taken ++ cells s.channel = stream
      rw [hs.handed]
      exact hal

theorem mask : Linked { s with wire := s.wire.updateMask } :=
  h.side (h.streams.idle rfl rfl rfl ⟨h.streams.owned.held, h.streams.owned.names⟩ rfl rfl rfl id)
    (Wire.updateMask_moves h.streams.stocked).side

/-- The end of a batch, with the sends of the layer above. -/
theorem drains {calls : List (SendCall φ)} (hp : ∀ call ∈ calls, Wire.Progress call.answers) :
    Linked { s with wire := ((s.wire.note [.drained]).sendAll calls).updateMask } := by
  obtain ⟨hs, hsi⟩ := (h.streams.noted inert_drained).sendAll hp
  exact (h.side hs ((Wire.Side.note s.wire plain_drained).trans hsi)).mask

theorem abandons {wire : Wire φ} (hst : wire.Streams) (hd : wire.alive = false)
    (hb : ∀ r, wire.failed = some r → ¬ r.Violation) (hh : handedIn wire.log <+: s.fed) :
    Linked { s with wire, channel } := by
  obtain ⟨stream, hs, -⟩ := h.feeds
  exact ⟨hst, hb, hh, stream, hs, fun ha => absurd (ha.symm.trans hd) nofun⟩

theorem before (ha : s.wire.alive = true) :
    ∃ rx later p, Wire.Views s.wire 0 rx ∧ rx.nextFrame = none ∧ s.fed = handedIn s.wire.log ++ later ∧
      Before later p s.core.cells s.channel rx ∧
      -- Whatever is handed on later, what is then before the shim still follows it.
      ∀ (wi : Wire φ) (r' : RecvSide φ) (l' : List (Ipc.Frame φ)) (channel : List (Segment UInt8 φ)),
        s.fed = handedIn wi.log ++ l' → Before l' p s.core.cells channel r' → ∃ st t,
          Feeds s.fed st s.core ∧ r'.Holds t ∧
          (handedIn wi.log).flatMap Ipc.Frame.cells ++ t ++ cells channel = st := by
  obtain ⟨st, hfe, hli⟩ := h.feeds
  obtain ⟨rx, t, hv, hn, hh, hal⟩ := hli ha
  obtain ⟨later, hl⟩ := h.begun
  obtain ⟨p, hp, ht, -⟩ := hfe.stream
  refine ⟨rx, later, p, hv, hn, hl.symm, ⟨fun f hf => ?_, ht, t, hh, ?_⟩, ?_⟩
  · exact hfe.valid f (hl ▸ List.mem_append_right _ hf)
  · rw [← hal, ← hl, List.flatMap_append] at hp
    simpa using hp
  · intro wi r' l' channel hfed hb
    obtain ⟨t', hh', hs'⟩ := hb.holds
    refine ⟨st, t', hfe, hh', ?_⟩
    have hw : (handedIn wi.log).flatMap Ipc.Frame.cells ++ t' ++ cells channel ++ s.core.cells =
        st ++ s.core.cells := by
      rw [hp, hfed]
      simp [← hs']
    exact List.append_cancel_right hw

theorem reads {wake : Wake ShimRead φ}
    (hre : ∀ reaction ∈ wake.reactions, ∀ call ∈ reaction.sends, Wire.Progress call.answers)
    (hd : ∀ call ∈ wake.drained, Wire.Progress call.answers) :
    Linked { s with
      wire := (s.wire.readyRead shimKernel s.channel wake).1
      channel := (s.wire.readyRead shimKernel s.channel wake).2 } := by
  unfold Wire.readyRead
  split
  · next hrea =>
    have ha : s.wire.alive = true := (Bool.and_eq_true _ _ ▸ hrea).1
    obtain ⟨rx, later, piece, hv, hn, hfe, hbe, hfo⟩ := h.before ha
    obtain ⟨hst, hh, hfi⟩ := Wire.wireFill_facing h.streams hv hbe hn wake.read
    generalize s.wire.wireFill shimKernel s.channel wake.read = filled at hst hh hfi
    obtain ⟨ok, w, channel⟩ := filled
    rcases hfi with ⟨rfl, hso, rx', hv', hb'⟩ | ⟨rfl, r, hr, rfl⟩
    · dsimp only
      have hbl : ∀ r, w.failed = some r → ¬ r.Violation := fun r hr => h.blameless r (hso ▸ hr)
      have hb := Wire.dispatchLoop_batch hst (.sound hv' hb') hbl (hh ▸ hfe) hre
        (Nat.lt_succ_of_le (Nat.sub_le w.rx.length 0))
      unfold Wire.wireDispatch
      dsimp only
      generalize w.dispatchLoop wake.reactions 0 (w.rx.length + 1) = t at hb
      cases hok : t.ok with
      | false => exact h.abandons hb.streams (Wire.alive_of_failed (hb.stopped hok)) hb.blameless hb.begun
      | true =>
        -- The frames that were handed on leave the buffer.
        have hs := hb.streams
        have hl : Linked { s with
            wire := { t.wire with rx := t.wire.rx.drop t.pos, consumed := t.wire.consumed + t.pos }, channel } := by
          obtain ⟨stream, hfee, -⟩ := h.feeds
          by_cases hf : t.wire.failed = none
          · obtain ⟨rx'', later', hv'', hb'', hn', hf'⟩ := hb.live hok hf
            obtain ⟨stream', taken, hfe', hho, hal⟩ := hfo t.wire rx'' later' channel hf' hb''
            exact ⟨hs.idle rfl rfl rfl ⟨hs.owned.held, hs.owned.names⟩ rfl rfl rfl id, hb.blameless,
              hb.begun, stream', hfe', fun _ => ⟨rx'', taken,
              ⟨hv''.recvBuf, hv''.consumed, hv''.pending, hv''.sound⟩, hn', hho, hal⟩⟩
          · exact ⟨hs.idle rfl rfl rfl ⟨hs.owned.held, hs.owned.names⟩ rfl rfl rfl id, hb.blameless,
              hb.begun, stream, hfee, fun hli => absurd (Wire.failed_of_alive hli) hf⟩
        exact hl.drains hd
    · refine h.abandons hst (Wire.alive_fail _ _) (Wire.fail_blameless h.blameless (.inr hr)) ?_
      rw [hh]
      exact h.begun
  · exact h

theorem writes {writable : Bool} (ha : writable = true → s.wire.alive = true) {answers : List Sendmsg}
    (hp : Wire.Progress answers) : Linked { s with wire := s.wire.readyWrite writable answers } := by
  unfold Wire.readyWrite
  split
  · next hw =>
    obtain ⟨hm, -⟩ := Wire.wireFlush_moves h.streams.stocked hp
    generalize s.wire.wireFlush answers = t at hm
    obtain ⟨ok, w, left⟩ := t
    dsimp only at hm ⊢
    have hf : Linked { s with wire := w } := h.side (h.streams.moves (ha hw) hm) hm.side
    split
    · exact hf.mask
    · exact hf
  · exact h

theorem finished : Linked { s with wire := s.wire.wireFinished } := by
  unfold Wire.wireFinished
  split
  · have hn := h.streams.noted inert_finished
    refine h.side (hn.idle rfl rfl rfl ⟨hn.owned.held, hn.owned.names⟩ rfl rfl rfl id) ?_
    have hs := Wire.Side.note s.wire plain_finished
    exact ⟨rfl, rfl, .inl rfl, fun _ => id, fun _ => .inl, hs.handed, id,
      fun how => ⟨(hs.owned how).held, (hs.owned how).names⟩⟩
  · exact h.side (h.streams.idle rfl rfl rfl ⟨h.streams.owned.held, h.streams.owned.names⟩ rfl rfl rfl id)
      ⟨rfl, rfl, .inl rfl, fun _ => id, fun _ => .inl, rfl, id, fun how => ⟨how.held, how.names⟩⟩

end Linked

/-! ### The end -/

namespace Wire

variable {w : Wire φ}

theorem log_finish : w.finish.log =
    w.log ++ w.heldDups.map .closedDup ++ (w.pending.toList.filterMap (·.fd)).map .closed := rfl

/-- Every duplicate is closed when `vitrin_wire_finish` returns. -/
theorem finish_closes (h : w.Owned) : closedDupsIn w.finish.log = dupedIn w.finish.log := by
  have hc : closedDupsIn (w.heldDups.map Mark.closedDup) = w.heldDups := by
    simp [closedDupsIn]
  have hd : dupedIn (w.heldDups.map Mark.closedDup) = [] := by simp [dupedIn]
  have hp := plain_closed (w.pending.toList.filterMap (·.fd))
  rw [log_finish, closedDupsIn_append, closedDupsIn_append, dupedIn_append, dupedIn_append, hp.closed, hp.duped,
    hc, hd, h.held, append_nil, append_nil]

theorem finish_streams (h : w.Streams) : w.finish.Streams ∧ handedIn w.finish.log = handedIn w.log := by
  have hc := inert_closed (w.pending.toList.filterMap (·.fd))
  have hw : written w.finish.log = written w.log := by
    rw [log_finish, written_append, hc.written]
    simp [written]
  have hs : sentIn w.finish.log = sentIn w.log := by
    rw [log_finish, sentIn_append, hc.sent]
    simp [sentIn]
  have hr : refusedIn w.finish.log = refusedIn w.log := by
    rw [log_finish, refusedIn_append, hc.refused]
    simp [refusedIn]
  have hd : dupedIn w.finish.log = dupedIn w.log := by
    rw [log_finish, dupedIn_append, hc.duped]
    simp [dupedIn]
  refine ⟨⟨fun _ hsl => absurd hsl List.not_mem_nil, ⟨?_, ?_⟩, fun hl => absurd hl Bool.false_ne_true, ?_⟩, ?_⟩
  · rw [finish_closes h.owned]
    exact (append_nil _).symm
  · rw [hd]
    exact h.owned.names
  · rw [hw, hs, hr]
    exact h.torn
  · rw [log_finish, handedIn_append, (plain_closed _).handed]
    simp [handedIn]

end Wire

variable {s : CoreShim φ} {op : CoreShimOp φ}

theorem coreShimStep_linked (h : Linked s) (hp : op.Progresses) (hres : Rests s op) : Linked (coreShimStep s op).1 := by
  cases op with
  | coreSend frame dup script => exact h.grows fun before hb => hb.send frame dup hp
  | coreFlush script =>
    have hg : Linked { s with
        core := (s.core.flushSendQueue script).side
        channel := s.channel ++ (s.core.flushSendQueue script).wire
        fed := s.fed ++ [] } := h.grows fun before hb => by
      rw [append_nil]
      exact hb.flush script
    rwa [append_nil] at hg
  | send call =>
    obtain ⟨hs, hsi⟩ := h.streams.send hp
    exact h.side hs hsi
  | ready wake =>
    obtain ⟨ha, hre, hd⟩ := hp
    simp only [coreShimStep]
    split
    · next hso =>
      have hwr := h.writes (fun hw => hres hw hso) ha
      have hr := hwr.reads hre hd
      unfold Wire.wireReady
      dsimp only at hr ⊢
      split
      · exact hr
      · exact hr.finished
    · exact h
  | finish =>
    obtain ⟨hs, hh⟩ := Wire.finish_streams h.streams
    exact h.abandons hs rfl h.blameless (hh ▸ h.begun)

/-- The conditions on a step: the kernel makes progress when it says so, and write readiness is not handled on a
connection that has been given up. -/
def Orderly (s : CoreShim φ) (op : CoreShimOp φ) : Prop := op.Progresses ∧ Rests s op

variable {ops : List (CoreShimOp φ)}

theorem linked_run (h : coreShimStep.Along Orderly .new ops) : Linked (coreShimStep.exec (.new : CoreShim φ) ops) :=
  coreShimStep.exec_along (P := Linked) (fun _ _ hor hl => coreShimStep_linked hl hor.1 hor.2)
    linked_new h

theorem coreShimStep_dead (hd : s.wire.alive = false) (hr : Rests s op) :
    (coreShimStep s op).1.wire.alive = false ∧ written (coreShimStep s op).1.wire.log = written s.wire.log := by
  cases op with
  | coreSend | coreFlush => exact ⟨hd, rfl⟩
  | send c =>
    obtain ⟨hwr, hst⟩ := Wire.sendAll_dead hd [c]
    exact ⟨hst, hwr⟩
  | finish =>
    refine ⟨rfl, ?_⟩
    change written s.wire.finish.log = _
    rw [Wire.log_finish]
    simp [written, List.flatMap_map]
  | ready wa =>
    simp only [coreShimStep]
    split
    · next hs =>
      have hn : wa.writable = false :=
        Bool.eq_false_iff.mpr fun hw => absurd (hd.symm.trans (hr hw hs)) Bool.false_ne_true
      have hq : s.wire.wireReady shimKernel s.channel wa = (s.wire.wireFinished, s.channel) := by
        unfold Wire.wireReady Wire.readyWrite Wire.readyRead
        rw [hn, if_neg Bool.false_ne_true, hd]
        simp [hd]
      rw [hq]
      unfold Wire.wireFinished
      split
      · exact ⟨hd, by simp [written]⟩
      · exact ⟨hd, rfl⟩
    · exact ⟨hd, rfl⟩

theorem dead_run (hd : s.wire.alive = false) (h : coreShimStep.Along Orderly s ops) :
    written (coreShimStep.exec s ops).wire.log = written s.wire.log := by
  induction ops generalizing s with
  | nil => rfl
  | cons op ops ih =>
    obtain ⟨hs, hw⟩ := coreShimStep_dead hd h.1.2
    exact (ih hs h.2).trans hw

theorem Linked.all_handed (h : Linked s) (ha : s.wire.alive = true) (hco : s.core.sendQueue = [])
    (hc : s.channel = []) : handedIn s.wire.log = s.fed := by
  obtain ⟨rx, later, p, hv, hn, hf, hb, -⟩ := h.before ha
  have hp : s.core.cells = [] := by
    unfold SendSide.cells
    rw [hco]
    rfl
  obtain ⟨t, hh, hs⟩ := hb.holds
  rw [hc, hp, cells_nil, append_nil, append_nil] at hs
  cases later with
  | nil => rw [hf, append_nil]
  | cons f later =>
    rw [hs, List.flatMap_cons, append_assoc] at hh
    obtain ⟨m, r', hso, -, -⟩ := nextFrame_whole (hb.valid f (.head _)) hh
    cases hn.symm.trans hso

/-- **The two transports work together.** In any run of sends and wakeups at the shim and of sends at the core, whatever
the kernel does: what the shim wrote, with what was attached at each byte, is a beginning of the frames whose send
succeeded, in order, perhaps followed by a piece of the first frame whose send failed; once the connection has been
given up nothing more is written; when `vitrin_wire_finish` returns, every duplicate has been closed, once; and the
frames handed to the shim's handler are those that the core sent, whole, in order and with their descriptors, all of
them when nothing is on its way, and no violation is reported. -/
theorem transports_interoperate {ops : List (CoreShimOp φ)} (h : coreShimStep.Along Orderly .new ops) :
    let s := coreShimStep.exec (.new : CoreShim φ) ops
    (∃ piece, written s.wire.log <+: (sentIn s.wire.log).flatMap Ipc.Frame.cells ++ piece ∧
      (piece = [] ∨ ∃ frame later, refusedIn s.wire.log = frame :: later ∧ piece = frame.cells)) ∧
    (s.wire.alive = false → ∀ more, coreShimStep.Along Orderly s more →
      written (coreShimStep.exec s more).wire.log = written s.wire.log) ∧
    ((dupedIn s.wire.finish.log).Nodup ∧ closedDupsIn s.wire.finish.log = dupedIn s.wire.finish.log) ∧
    handedIn s.wire.log <+: s.fed ∧
    (s.wire.alive = true → s.core.sendQueue = [] → s.channel = [] → handedIn s.wire.log = s.fed) ∧
    (∀ reason, s.wire.failed = some reason → ¬ reason.Violation) := by
  intro s
  have hl : Linked s := linked_run h
  have hf := (Wire.finish_streams hl.streams).1
  refine ⟨hl.streams.torn, fun hd m hm => dead_run hd hm,
    ⟨?_, Wire.finish_closes hl.streams.owned⟩, hl.begun, hl.all_handed, hl.blameless⟩
  have hn := hf.owned.names
  exact List.Nodup.of_map _ (hn ▸ List.nodup_range)

/-- Each side sends a frame with a descriptor, each of them in two pieces. -/
def exchanged : List (CoreShimOp Nat) :=
  [.coreSend ladenFrame none [.ok 3, .err .wouldBlock], .coreFlush [.ok 5],
    .send ⟨ladenFrame, [.took 3, .err .again], true⟩, .ready ⟨true, true, [.took 5], .upTo 8, [.idle], []⟩,
    .ready ⟨false, true, [], .upTo 8, [.idle], []⟩]

theorem transports_interoperate_exchanged : let s := coreShimStep.exec .new exchanged
    written s.wire.log = ladenFrame.cells ∧ handedIn s.wire.log = [ladenFrame] ∧ handedIn s.wire.log <+: s.fed := by
  have hor : coreShimStep.Along Orderly .new exchanged := by
    refine ⟨⟨?_, trivial⟩, ⟨trivial, trivial⟩, ⟨?_, trivial⟩, ⟨?_, ?_⟩, ⟨?_, nofun⟩, trivial⟩
    · simp [CoreShimOp.Progresses, SendSide.Progress]
    · simp [CoreShimOp.Progresses, Wire.Progress]
    · simp [CoreShimOp.Progresses, Wire.Progress, Reaction.idle]
    · exact fun _ _ => by decide +kernel
    · simp [CoreShimOp.Progresses, Wire.Progress, Reaction.idle]
  exact ⟨by decide +kernel, by decide +kernel, (transports_interoperate hor).2.2.2.1⟩

/-- The kernel takes three bytes of a parked frame, with its descriptor, and then fails: the second send fails. But the
event source still waits for write readiness, and when it comes the parked frame is written again from its first byte,
with its descriptor. -/
theorem failed_wire_writes_again : let first : CoreShimOp Nat := .send ⟨ladenFrame, [.err .again], true⟩
    let se : CoreShimOp Nat := .send ⟨⟨bareFrame, none⟩, [.took 3, .err (.other 105)], true⟩
    let wa : CoreShimOp Nat := .ready ⟨true, false, [.took 8], .eof, [], []⟩
    let f := coreShimStep.exec .new [first, se]
    let wo := coreShimStep.exec .new [first, se, wa]
    f.wire.alive = false ∧ f.wire.source = some true ∧
    sentIn wo.wire.log = [ladenFrame] ∧
    (written f.wire.log).map (·.1) = ladenFrame.bytes.take 3 ∧
    (written wo.wire.log).map (·.1) = ladenFrame.bytes.take 3 ++ ladenFrame.bytes ∧
    (written wo.wire.log).filterMap (·.2) = [5, 5] := by
  decide +kernel

/-! ### Messages -/

/-- A message of the schema, with arguments that can be sent. -/
structure Outgoing where
  message : Protocol.Message
  objectId : UInt32
  args : Args (Value String) message.args
  valid : args.All Value.Valid

namespace Outgoing

def frame (o : Outgoing) : Option (Ipc.Frame Nat) := (encode o.message o.objectId o.args).map (⟨·, o.args.descriptor⟩)

/-- The C decoder reads the message off the frame. -/
def ReadFrom (o : Outgoing) (f : Ipc.Frame Nat) : Prop :=
  ∃ fields, C.decode o.message f.bytes (C.intFd f.fd) = .ok (o.objectId, fields) ∧
    o.args.items utf8Bytes = C.items fields

theorem readFrom {o : Outgoing} {f : Ipc.Frame Nat} (h : some f = o.frame) : o.ReadFrom f := by
  obtain ⟨bytes, hb, rfl⟩ := Option.map_eq_some_iff.mp h.symm
  have hm : C.Mirrors utf8Text _ (decode o.message bytes o.args.descriptor) _ := C.decode_mirrors (C.sameFd_intFd _)
  rw [decode_encode o.valid hb] at hm
  obtain ⟨⟨_, fields⟩, hc, hob, hi⟩ := hm.returned
  cases hob
  exact ⟨fields, hc, hi⟩

end Outgoing

/-- **What the core says is what the shim hears.** The core sends messages as the Rust code encodes them, in any run and
whatever the kernel does. Then the C code decodes the frames that reach the shim's handler to the first of these
messages, in order, with their arguments and descriptors, and to all of them when nothing is on its way. -/
theorem messages_arrive {ops : List (CoreShimOp Nat)} (h : coreShimStep.Along Orderly .new ops) {out : List Outgoing}
    (hout : (coreShimStep.exec .new ops).fed.map some = out.map Outgoing.frame) :
    let s := coreShimStep.exec .new ops
    ∃ heard, heard <+: out ∧ List.Forall₂ Outgoing.ReadFrom heard (handedIn s.wire.log) ∧
      (s.wire.alive = true → s.core.sendQueue = [] → s.channel = [] → heard = out) := by
  intro s
  have hl : Linked s := linked_run h
  have hr : List.Forall₂ Outgoing.ReadFrom out s.fed := by
    rw [← List.forall₂_eq_eq_eq, List.forall₂_map_left_iff, List.forall₂_map_right_iff] at hout
    exact hout.flip.imp fun _ _ => Outgoing.readFrom
  obtain ⟨later, hla⟩ := hl.begun
  rw [← hla] at hr
  refine ⟨_, List.take_prefix _ _, List.forall₂_take_append _ _ _ hr, fun ha hq hc => ?_⟩
  rw [hl.all_handed ha hq hc, ← hla, ← hr.length_eq, List.take_length]

/-- A message that hands over a descriptor. -/
def handing : Outgoing := ⟨⟨0, [⟨.fd, false⟩], by decide, by decide, by decide⟩, 1, .cons (.fd 5) .nil, trivial, trivial⟩

def handed : List (CoreShimOp Nat) :=
  [.coreSend ladenFrame none [.ok 8], .ready ⟨false, true, [], .upTo 8, [.idle], []⟩]

theorem messages_arrive_handed :
    ∃ heard, heard <+: [handing] ∧ List.Forall₂ Outgoing.ReadFrom heard [ladenFrame] := by
  have hor : coreShimStep.Along Orderly .new handed := by
    simp [handed, Machine.Along, Orderly, Rests, CoreShimOp.Progresses, SendSide.Progress, Wire.Progress, Reaction.idle]
  obtain ⟨heard, hp, hr, -⟩ := messages_arrive hor (show _ = [handing].map _ by decide +kernel)
  exact ⟨heard, hp, hr⟩

end Vitrin.Shim
