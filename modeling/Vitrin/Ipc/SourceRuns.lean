import Vitrin.Ipc.EventLoop

/-!
# A connection source never goes silent

A connection can fail in the middle of a dispatch in three places: when the outbox is
drained, when parked bytes are flushed, and when the callback replies. Only a dispatch of
the socket reports a failure, so something has to bring one about.

The log of a run is the list of its `LoopMark`s. `eventsIn`, `takenIn` and `handedIn`
read the events, and the frames that went into and out of the outbox, off a log.
`TurnsOwed` says that every turn shown was asked for since the last one.

`Tracks` ties the source to the log and `Rung` says that a frame in the outbox has a ping
pending. Every part of a dispatch keeps both; such a part is a `Goes`, which says too what
it shows the callback, and parts are chained by `Goes.trans`. Steps follow
(`sourceStep_steps`), and then runs (`source_run`).

`source_never_silent` is the result. For a poisoned send side it asks that a turn is owed
when the outbox is drained, or that the kernel refuses no write for good once it has taken
all that was parked (`Vented`); `poison_unreported` is a connection where it does.
-/

namespace Vitrin.Ipc

open Lib Protocol SendSide ConnectionSource
open List (append_nil append_assoc)

universe u v

variable {φ : Type u}

/-! ### What happened -/

def eventsIn (log : List (LoopMark φ)) : List (ConnectionEvent φ) := log.filterMap fun
  | .event e => some e
  | _ => none

def takenIn (log : List (LoopMark φ)) : List (List UInt8) := log.filterMap fun
  | .offered frame true => some frame
  | _ => none

def handedIn (log : List (LoopMark φ)) : List (List UInt8) := log.filterMap fun
  | .handed frame => some frame
  | _ => none

/-- A turn is owed after this, if `owed` says whether one was owed before. -/
def owedAfter (owed : Bool) : List (LoopMark φ) → Bool
  | [] => owed
  | .asked :: log => owedAfter true log
  | .event .woken :: log => owedAfter false log
  | _ :: log => owedAfter owed log

def TurnsOwed (owed : Bool) : List (LoopMark φ) → Prop
  | [] => True
  | .asked :: log => TurnsOwed true log
  | .event .woken :: log => owed = true ∧ TurnsOwed false log
  | _ :: log => TurnsOwed owed log

theorem owedAfter_append {o : Bool} {log mo : List (LoopMark φ)} :
    owedAfter o (log ++ mo) = owedAfter (owedAfter o log) mo := by
  induction log generalizing o with
  | nil => rfl
  | cons m log ih =>
    cases m with
    | event e => cases e <;> exact ih
    | _ => exact ih

theorem turnsOwed_append {o : Bool} {log mo : List (LoopMark φ)} :
    TurnsOwed o (log ++ mo) ↔ TurnsOwed o log ∧ TurnsOwed (owedAfter o log) mo := by
  induction log generalizing o with
  | nil => exact (true_and _ ▸ Iff.rfl)
  | cons m log ih =>
    cases m with
    | event e =>
      cases e with
      | woken => exact (and_congr_right fun _ => ih).trans and_assoc.symm
      | _ => exact ih
    | _ => exact ih

@[simp] theorem eventsIn_append {log mo : List (LoopMark φ)} : eventsIn (log ++ mo) = eventsIn log ++ eventsIn mo :=
  List.filterMap_append

@[simp] theorem takenIn_append {log mo : List (LoopMark φ)} : takenIn (log ++ mo) = takenIn log ++ takenIn mo :=
  List.filterMap_append

@[simp] theorem handedIn_append {log mo : List (LoopMark φ)} : handedIn (log ++ mo) = handedIn log ++ handedIn mo :=
  List.filterMap_append

/-- A complete frame that declares no descriptor. -/
def Whole (φ : Type u) (frame : List UInt8) : Prop := (⟨frame, none⟩ : Frame φ).Valid

/-! ### The invariant -/

/-- The state of a source agrees with what happened so far. -/
structure Tracks (log : List (LoopMark φ)) (s : ConnectionSource φ) : Prop where
  counted : s.conn.tx.Counted
  turns : TurnsOwed false log
  owed : s.wake = owedAfter false log
  outbox : (∀ frame ∈ takenIn log, Whole φ frame) → ¬ s.conn.tx.Dead → takenIn log = handedIn log ++ s.queue

/-- A frame in the outbox has a ping that will hand it over. -/
structure Rung (s : ConnectionSource φ) : Prop where
  ping : s.queue ≠ [] → s.ping = true ∧ s.outbox = true
  held : s.dropped = false → s.outbox = true

/-- A part of a dispatch: what it does to the source, what happens in it and what the callback is shown. -/
structure Goes (s : ConnectionSource φ) (marks : List (LoopMark φ)) (shown : List (ConnectionEvent φ))
    (s' : ConnectionSource φ) : Prop where
  tracks : ∀ log, Tracks log s → Tracks (log ++ marks) s'
  dead : ∀ log, Tracks log s → s.conn.tx.Dead → s'.conn.tx.Dead
  rung : Rung s → Rung s'
  removed : s'.removed = s.removed
  shown : eventsIn marks = shown

namespace Goes

variable {s s' s'' : ConnectionSource φ} {ma mo : List (LoopMark φ)} {sh l : List (ConnectionEvent φ)}

theorem refl (s : ConnectionSource φ) : Goes s [] [] s :=
  ⟨fun log h => (append_nil log).symm ▸ h, fun _ _ => id, id, rfl, rfl⟩

theorem trans (h : Goes s ma sh s') (h' : Goes s' mo l s'') :
    Goes s (ma ++ mo) (sh ++ l) s'' where
  tracks log hl := by
    rw [← append_assoc]
    exact h'.tracks _ (h.tracks log hl)
  dead log hl hd := h'.dead _ (h.tracks log hl) (h.dead log hl hd)
  rung hr := h'.rung (h.rung hr)
  removed := h'.removed.trans h.removed
  shown := by rw [eventsIn_append, h.shown, h'.shown]

end Goes

variable {sc : List Wrote} {fr : List UInt8}

namespace SendSide

variable {tx : SendSide φ}

theorem sendOrQueue_counted (h : tx.Counted) (f : Frame φ) (d : Option ErrorKind) (sc : List Wrote) :
    (tx.sendOrQueue f.bytes f.fd d sc).side.Counted := by
  cases sendOrQueue_outcome h f d sc with
  | accepted _ _ hc _ | misuse _ _ hc | failed _ hc _ | torn _ _ hc _ _ _ _
  | forgotten _ _ hc => exact hc.counted

theorem sendOrQueue_stays_dead (h : tx.Dead) (fr : List UInt8) (fd : Option φ) (d : Option ErrorKind)
    (sc : List Wrote) : (tx.sendOrQueue fr fd d sc).side.Dead := by
  rw [(sendOrQueue_dead h fr fd d sc).1]
  exact h

theorem sendOrQueue_whole (h : tx.Counted) (hw : Whole φ fr) {e : TransportError}
    (hr : (tx.sendOrQueue fr none none sc).result = .error e) : (tx.sendOrQueue fr none none sc).side.Dead := by
  cases sendOrQueue_outcome h ⟨fr, none⟩ none sc with
  | accepted hok _ _ _ => cases hok.symm.trans hr
  | misuse _ hi _ => exact absurd hw hi
  | failed _ _ hd | torn _ _ _ _ _ _ hd => exact hd
  | forgotten _ hdu _ => cases hdu

theorem flushSendQueue_stays_dead (h : tx.Counted) (hd : tx.Dead) (sc : List Wrote) :
    (tx.flushSendQueue sc).side.Dead := by
  obtain ⟨-, hover, ⟨-, hp⟩ | ⟨k, -, hp⟩⟩ := flushSendQueue_spec h sc
  · unfold Dead
    rw [hover, hp]
    exact hd
  · exact .inr (by rw [hp]; rfl)

/-- Something is parked in a queue that has overflowed. -/
def Backed (tx : SendSide φ) : Prop := tx.sendOverflowed = true → 0 < tx.queuedSendBytes

variable {b : List UInt8}

/-- One frame never overflows an empty queue. -/
theorem Backed.park (hb : tx.Backed) (h : tx.Counted) (hs : b.length ≤ maxMessageSize) (fd : Option φ) :
    (tx.park b fd).2.Backed := by
  unfold SendSide.park
  split
  · next hfu =>
    intro _
    have hf : (attached tx.cells).length ≤ tx.cells.length := List.length_filterMap_le _ _
    have hfd : fd.isSome.toNat ≤ 1 := Bool.toNat_le _
    rw [← h.fds, ← h.bytes] at hf
    unfold maxMessageSize at hs
    unfold maxSendQueueBytes maxSendQueueFds at hfu
    change 0 < tx.queuedSendBytes
    omega
  · exact fun hover => Nat.add_pos_left (hb hover) _

theorem Backed.parkDup (hb : tx.Backed) (h : tx.Counted) (hs : b.length ≤ maxMessageSize) (fd : Option φ)
    (d : Option ErrorKind) (sc : List Wrote) : (tx.parkDup b fd d sc).side.Backed := by
  unfold SendSide.parkDup
  split
  · exact hb
  · exact hb.park h hs fd

theorem Backed.sendFlushed (hb : tx.Backed) (h : tx.Counted) {f : Frame φ} (hv : f.Valid)
    (d : Option ErrorKind) (sc : List Wrote) : (tx.sendFlushed f.bytes f.fd d sc).side.Backed := by
  unfold SendSide.sendFlushed
  split
  · rcases tx.trySendNow_spec f.fd hv.ne_nil sc with
      ⟨u, hr, hs, hl, -⟩ | ⟨k, u, hr, hs, -, -⟩
    · dsimp only
      rw [hr, hs]
      dsimp only
      split
      · exact hb
      · refine hb.parkDup h ?_ _ _ _
        have := hv.le_max
        rw [List.length_drop]
        omega
    · dsimp only
      rw [hr, hs]
      exact hb
  · exact hb.parkDup h hv.le_max _ _ _

theorem Backed.sendOrQueue (hb : tx.Backed) (h : tx.Counted) (f : Frame φ) (d : Option ErrorKind)
    (sc : List Wrote) : (tx.sendOrQueue f.bytes f.fd d sc).side.Backed := by
  unfold SendSide.sendOrQueue
  cases hv : validateOutgoing f.bytes f.fd with
  | error m => exact hb
  | ok =>
    dsimp only
    split
    · exact hb
    · next hover =>
      split
      · exact hb
      · split
        · exact hb.sendFlushed h hv d sc
        · obtain ⟨hc, hs, he⟩ := flushSendQueue_spec h sc
          have hf : (tx.flushSendQueue sc).side.Backed := fun ho' => absurd (hs ▸ ho') hover
          rcases he with ⟨hok, -⟩ | ⟨k, her, -⟩
          · rw [hok]
            exact hf.sendFlushed hc.counted hv d _
          · rw [her]
            exact hf

/-- The kernel refuses no write for good once it has taken so many bytes. -/
def Vents (parked : Nat) : List Wrote → Prop
  | [] => True
  | .err .wouldBlock :: script => Vents parked script
  | .err _ :: _ => 0 < parked
  | .ok n :: script => if n = 0 then 0 < parked else Vents (parked - n) script

theorem Vents.mono {p q : Nat} (h : Vents p sc) (hle : p ≤ q) : Vents q sc := by
  induction sc generalizing p q with
  | nil => trivial
  | cons a sc ih =>
    cases a with
    | err k =>
      cases k with
      | wouldBlock => exact ih h hle
      | _ => exact Nat.lt_of_lt_of_le h hle
    | ok n =>
      unfold Vents at h ⊢
      split
      · next hz =>
        rw [if_pos hz] at h
        exact Nat.lt_of_lt_of_le h hle
      · next hz =>
        rw [if_neg hz] at h
        exact ih h (Nat.sub_le_sub_right hle n)

/-- If the call poisoned the send side, something is parked; else the answers that are left still vent. -/
def Airs {α : Type v} (s : Sent φ α) : Prop :=
  (s.side.sendPoisoned.isSome → 0 < s.side.queuedSendBytes) ∧
  (s.side.sendPoisoned = none → Vents s.side.queuedSendBytes s.script)

theorem airs_of_none {α : Type v} {s : Sent φ α} (hp : s.side.sendPoisoned = none)
    (hv : Vents s.side.queuedSendBytes s.script) : Airs s :=
  ⟨fun h => absurd hp (Option.isSome_iff_ne_none.mp h), fun _ => hv⟩

theorem flushSendQueue_airs (h : tx.Counted) (hp : tx.sendPoisoned = none) (hv : Vents tx.queuedSendBytes sc) :
    Airs (tx.flushSendQueue sc) := by
  induction sc generalizing tx with
  | nil => exact airs_of_none hp hv
  | cons a sc ih =>
    unfold flushSendQueue
    cases hq : tx.sendQueue with
    | nil => exact airs_of_none hp hv
    | cons fr r =>
      have hfr := h.parked fr (hq ▸ (.head _))
      have hpa : (if fr.fd.isSome then fr.bytes else fr.bytes.drop fr.offset) = fr.bytes.drop fr.offset := by
        split
        · next hf => rw [hfr.whole hf, List.drop_zero]
        · rfl
      dsimp only
      rw [hpa]
      cases a with
      | err k =>
        cases k with
        | wouldBlock => exact airs_of_none hp hv
        | _ => exact ⟨fun _ => hv, fun h => by cases h⟩
      | ok n =>
        dsimp only
        unfold Vents at hv
        split
        · next hz =>
          have hu := hfr.unsent
          rw [List.length_drop] at hz
          rw [if_pos (by omega)] at hv
          exact ⟨fun _ => hv, fun h => by cases h⟩
        · next hz =>
          rw [if_neg (by omega)] at hv
          obtain ⟨-, hc⟩ := h.advance hq (Nat.pos_of_ne_zero hz) (Nat.min_le_right _ _)
          exact ih hc hp (hv.mono (Nat.sub_le_sub_left (Nat.min_le_left _ _) _))

/-- With nothing parked the kernel takes something of what it is given, or would block. -/
theorem Vents.first {a : Wrote} (hv : Vents 0 (a :: sc)) :
    (a = .err .wouldBlock ∨ ∃ n, a = .ok n ∧ n ≠ 0) ∧ Vents 0 sc := by
  cases a with
  | err k =>
    cases k with
    | wouldBlock => exact ⟨.inl rfl, hv⟩
    | _ => exact absurd hv (Nat.lt_irrefl 0)
  | ok n =>
    unfold Vents at hv
    rw [Nat.zero_sub] at hv
    split at hv
    · exact absurd hv (Nat.lt_irrefl 0)
    · next hn => exact ⟨.inr ⟨n, rfl, hn⟩, hv⟩

theorem sendRest_vents {se : Nat} (hv : Vents 0 sc) :
    (tx.sendRest fr se sc).side = tx ∧ Vents 0 (tx.sendRest fr se sc).script := by
  induction sc generalizing se with
  | nil => exact ⟨rfl, trivial⟩
  | cons a sc ih =>
    unfold sendRest
    split
    · obtain ⟨rfl | ⟨n, rfl, hn⟩, hsc⟩ := hv.first
      · exact ⟨rfl, hsc⟩
      · dsimp only
        rw [if_neg (by omega)]
        exact ih hsc
    · exact ⟨rfl, hv⟩

theorem trySendNow_vents {fd : Option φ} (hv : Vents 0 sc) :
    (tx.trySendNow fr fd sc).side = tx ∧ Vents 0 (tx.trySendNow fr fd sc).script := by
  cases sc with
  | nil => exact ⟨rfl, trivial⟩
  | cons a sc =>
    obtain ⟨rfl | ⟨n, rfl, -⟩, hsc⟩ := hv.first
    · exact ⟨rfl, hsc⟩
    · exact sendRest_vents hsc

theorem parkDup_airs {fd : Option φ} {d : Option ErrorKind} (hp : tx.sendPoisoned = none)
    (hv : Vents tx.queuedSendBytes sc) : Airs (tx.parkDup b fd d sc) := by
  unfold SendSide.parkDup SendSide.park
  split
  · exact airs_of_none hp hv
  · split
    · exact airs_of_none hp hv
    · exact airs_of_none hp (hv.mono (Nat.le_add_right _ _))

theorem sendFlushed_airs {fd : Option φ} {d : Option ErrorKind} (h : tx.Counted) (hp : tx.sendPoisoned = none)
    (hv : Vents tx.queuedSendBytes sc) : Airs (tx.sendFlushed fr fd d sc) := by
  unfold SendSide.sendFlushed
  cases hq : tx.sendQueue with
  | cons => exact parkDup_airs hp hv
  | nil =>
    have hz : tx.queuedSendBytes = 0 := by rw [h.bytes, SendSide.cells, hq]; rfl
    rw [hz] at hv
    obtain ⟨hs, hscript⟩ : (tx.trySendNow fr fd sc).side = tx ∧ Vents 0 _ := trySendNow_vents hv
    have hpn : (tx.trySendNow fr fd sc).side.sendPoisoned = none := by rw [hs, hp]
    have hvn : Vents (tx.trySendNow fr fd sc).side.queuedSendBytes (tx.trySendNow fr fd sc).script := by
      rw [hs, hz]
      exact hscript
    dsimp only
    split
    · exact airs_of_none hpn hvn
    · split
      · exact airs_of_none hpn hvn
      · exact parkDup_airs hpn hvn

theorem sendOrQueue_airs {fd : Option φ} {d : Option ErrorKind} (h : tx.Counted) (hp : tx.sendPoisoned = none)
    (hv : Vents tx.queuedSendBytes sc) : Airs (tx.sendOrQueue fr fd d sc) := by
  unfold SendSide.sendOrQueue
  split
  · exact airs_of_none hp hv
  · split
    · exact airs_of_none hp hv
    · rw [hp]
      cases hq : tx.sendQueue with
      | nil => exact sendFlushed_airs h hp hv
      | cons =>
        have ha := flushSendQueue_airs h hp hv
        obtain ⟨hc, -, he⟩ := flushSendQueue_spec h sc
        dsimp only
        rcases he with ⟨hok, hpf⟩ | ⟨k, her, -⟩
        · rw [hok]
          exact sendFlushed_airs hc.counted (hpf.trans hp) (ha.2 (hpf.trans hp))
        · rw [her]
          exact ha

end SendSide

variable {log : List (LoopMark φ)}

namespace ConnectionSource

variable {s : ConnectionSource φ}

theorem askTurn_goes (s : ConnectionSource φ) : Goes s s.askTurn.2 [] s.askTurn.1 := by
  unfold askTurn
  split
  · exact .refl s
  · refine ⟨fun log h => ⟨h.counted, ?_, ?_, ?_⟩, fun _ _ => id,
      fun h => ⟨fun hq => ⟨rfl, (h.ping hq).2⟩, h.held⟩, rfl, rfl⟩
    · exact turnsOwed_append.mpr ⟨h.turns, trivial⟩
    · rw [owedAfter_append]
      rfl
    · simpa [takenIn, handedIn] using h.outbox

theorem send_goes (s : ConnectionSource φ) (fr : List UInt8) : Goes s (s.send fr).2 [] (s.send fr).1 := by
  -- An offer is neither a turn nor a request for one.
  have ht {log : List (LoopMark φ)} (h : Tracks log s) (t : Bool) :
      TurnsOwed false (log ++ [.offered fr t]) ∧ s.wake = owedAfter false (log ++ [.offered fr t]) := by
    rw [turnsOwed_append, owedAfter_append]
    exact ⟨⟨h.turns, trivial⟩, h.owed⟩
  unfold send
  split
  · exact .refl s
  · next hh =>
    split
    · refine ⟨fun log h => ⟨h.counted, (ht h false).1, (ht h false).2, ?_⟩, fun _ _ => id, id, rfl, rfl⟩
      simpa [takenIn, handedIn] using h.outbox
    · refine ⟨fun log h => ⟨h.counted, (ht h true).1, (ht h true).2, fun hw ha => ?_⟩, fun _ _ => id,
        fun h => ⟨fun _ => ⟨rfl, h.held (Bool.eq_false_iff.mpr hh)⟩, h.held⟩, rfl, rfl⟩
      have hb := h.outbox (fun f hf => hw f (by rw [takenIn_append]; exact List.mem_append_left _ hf)) ha
      rw [takenIn_append, handedIn_append, hb]
      simp [takenIn, handedIn]

theorem act_goes (s : ConnectionSource φ) (a : Act φ) : Goes s (s.act a).2 [] (s.act a).1 := by
  cases a with
  | reply fr d sc =>
    have hd (h : s.conn.tx.Dead) := sendOrQueue_stays_dead h fr.bytes fr.fd d sc
    refine ⟨fun log h => ?_, fun _ _ => hd, fun h => ⟨h.ping, h.held⟩, rfl, rfl⟩
    rw [act, append_nil]
    exact ⟨sendOrQueue_counted h.counted fr d sc, h.turns, h.owed,
      fun hw ha => h.outbox hw (mt hd ha)⟩
  | wake => exact s.askTurn_goes
  | send fr => exact s.send_goes fr

theorem react_goes (s : ConnectionSource φ) (ac : List (Act φ)) : Goes s (s.react ac).2 [] (s.react ac).1 := by
  induction ac generalizing s with
  | nil => exact .refl s
  | cons a ac ih => exact (s.act_goes a).trans (ih _)

variable {e : ConnectionEvent φ}

theorem emit_goes (s : ConnectionSource φ) (he : e ≠ .woken) (r : List (List (Act φ))) :
    Goes s (s.emit e r).2 [e] (s.emit e r).1 := by
  have hev : Goes s [.event e] [e] s := by
    refine ⟨fun log h => ⟨h.counted, ?_, ?_, ?_⟩, fun _ _ => id, id, rfl, rfl⟩
    · refine turnsOwed_append.mpr ⟨h.turns, ?_⟩
      cases e with
      | woken => exact absurd rfl he
      | _ => trivial
    · rw [owedAfter_append, h.owed]
      cases e with
      | woken => exact absurd rfl he
      | _ => rfl
    · simpa [takenIn, handedIn] using h.outbox
  exact hev.trans (s.react_goes _)

theorem emit_woken_goes (hw : s.wake = true) (r : List (List (Act φ))) :
    Goes s ({ s with wake := false }.emit .woken r).2 [.woken]
      ({ s with wake := false }.emit .woken r).1 := by
  have he : Goes s [.event .woken] [.woken] { s with wake := false } := by
    refine ⟨fun log h => ⟨h.counted, ?_, ?_, ?_⟩, fun _ _ => id, fun h => ⟨h.ping, h.held⟩, rfl, rfl⟩
    · exact turnsOwed_append.mpr ⟨h.turns, h.owed ▸ hw, trivial⟩
    · rw [owedAfter_append]
      rfl
    · simpa [takenIn, handedIn] using h.outbox
  exact he.trans (react_goes _ _)

/-! ### The outbox's half -/

variable {f : List (List UInt8)}

/-- A frame of the outbox is handed over; what is left of the others is all of them if it was whole and the send side
lives. -/
theorem handed_tracks (h : Tracks log s) {left : List (List UInt8)} (hq : s.queue = fr :: f)
    (hl : Whole φ fr → ¬ (s.conn.tx.sendOrQueue fr none none sc).side.Dead → left = f) :
    Tracks (log ++ [.handed fr])
      { s.withTx (s.conn.tx.sendOrQueue fr none none sc).side with queue := left } := by
  refine ⟨sendOrQueue_counted h.counted ⟨fr, none⟩ none sc, ?_, ?_, fun hw ha => ?_⟩
  · exact turnsOwed_append.mpr ⟨h.turns, trivial⟩
  · rw [owedAfter_append]
    exact h.owed
  · have ht : takenIn (log ++ [.handed fr]) = takenIn log := by simp [takenIn]
    rw [ht] at hw ⊢
    have hb := h.outbox hw fun hd => ha (sendOrQueue_stays_dead hd fr none none sc)
    have hf : Whole φ fr := hw fr (by simp [hb, hq])
    rw [hb, hq, hl hf ha, handedIn_append, append_assoc]
    rfl

theorem drainFrames_frame (hq : s.queue = f) (sc : List Wrote) :
    (s.drainFrames sc f).1 = { s with conn := (s.drainFrames sc f).1.conn, queue := [] } := by
  induction f generalizing s sc with
  | nil => rw [drainFrames, ← hq]
  | cons fr f ih =>
    unfold drainFrames
    dsimp only
    split
    · rfl
    · rw [ih rfl]
      rfl

variable {s : ConnectionSource φ}

theorem drainFrames_shown {sc : List Wrote} {f : List (List UInt8)} : eventsIn (s.drainFrames sc f).2 = [] := by
  induction f generalizing s sc with
  | nil => rfl
  | cons fr f ih =>
    unfold drainFrames
    dsimp only
    split
    · rfl
    · exact ih

theorem drainFrames_tracks (h : Tracks log s) (hq : s.queue = f) (sc : List Wrote) :
    Tracks (log ++ (s.drainFrames sc f).2) (s.drainFrames sc f).1 ∧
    (s.conn.tx.Dead → (s.drainFrames sc f).1.conn.tx.Dead) := by
  induction f generalizing s sc log with
  | nil =>
    rw [drainFrames, append_nil]
    exact ⟨h, id⟩
  | cons fr f ih =>
    have hd (hd : s.conn.tx.Dead) := sendOrQueue_stays_dead hd fr none none sc
    unfold drainFrames
    dsimp only
    split
    · next e he =>
      refine ⟨handed_tracks h hq fun hw ha => ?_, hd⟩
      exact absurd (sendOrQueue_whole h.counted hw he) ha
    · have hh : Tracks (log ++ [.handed fr])
          { s.withTx (s.conn.tx.sendOrQueue fr none none sc).side with queue := f } :=
        handed_tracks h hq fun _ _ => rfl
      obtain ⟨ht, hs⟩ := ih hh rfl (s.conn.tx.sendOrQueue fr none none sc).script
      refine ⟨?_, fun h => hs (hd h)⟩
      rw [List.append_cons]
      exact ht

theorem drainOutbox_goes (s : ConnectionSource φ) (tu : Turn φ) :
    Goes s (s.drainOutbox tu).2 [] (s.drainOutbox tu).1 := by
  have hc (t : ConnectionSource φ) (hq : Rung t → t.queue = [])
      (hdr : s.dropped = true → t.dropped = true) :
      Goes t [] [] (if s.dropped then { t with outbox := false } else t) := by
    split
    · next hgo =>
      refine ⟨fun log h => ?_, fun _ _ => id, fun h => ⟨fun hn => absurd (hq h) hn, fun hh => ?_⟩, rfl, rfl⟩
      · rw [append_nil]
        exact ⟨h.counted, h.turns, h.owed, h.outbox⟩
      · exact absurd ((hdr hgo).symm.trans hh) nofun
    · exact .refl t
  unfold drainOutbox
  split
  · next hb =>
    cases hp : s.ping with
    | false => exact hc s (fun h => by_contra fun hn => absurd ((h.ping hn).1.symm.trans hp) nofun) id
    | true =>
      have hf := drainFrames_frame (s := { s with ping := false }) rfl tu.drain
      have hs {log : List (LoopMark φ)} (h : Tracks log s) : Tracks log { s with ping := false } :=
        ⟨h.counted, h.turns, h.owed, h.outbox⟩
      generalize hd : { s with ping := false }.drainFrames tu.drain s.queue = drained at hf ⊢
      have hg : Goes s drained.2 [] drained.1 := by
        refine ⟨fun log h => ?_, fun log h => ?_, fun h => ?_, ?_, ?_⟩
        · exact hd ▸ (drainFrames_tracks (hs h) rfl tu.drain).1
        · exact hd ▸ (drainFrames_tracks (hs h) rfl tu.drain).2
        · rw [hf]
          exact ⟨fun hn => absurd rfl hn, h.held⟩
        · rw [hf]
        · exact hd ▸ drainFrames_shown
      have he := hc drained.1 (fun _ => by rw [hf]) (fun h => by rw [hf]; exact h)
      exact append_nil drained.2 ▸ hg.trans he
  · exact .refl s

theorem drainFrames_backed (hc : s.conn.tx.Counted) (hb : s.conn.tx.Backed) (sc : List Wrote)
    (f : List (List UInt8)) : (s.drainFrames sc f).1.conn.tx.Backed := by
  induction f generalizing s sc with
  | nil => exact hb
  | cons fr f ih =>
    have hn := hb.sendOrQueue hc ⟨fr, none⟩ none sc
    unfold drainFrames
    dsimp only
    split
    · exact hn
    · exact ih (sendOrQueue_counted hc ⟨fr, none⟩ none sc) hn _

theorem drainOutbox_backed (hc : s.conn.tx.Counted) (hb : s.conn.tx.Backed) (t : Turn φ) :
    (s.drainOutbox t).1.conn.tx.Backed := by
  have hd := drainFrames_backed (s := { s with ping := false }) hc hb t.drain s.queue
  unfold drainOutbox
  split
  · dsimp only
    split <;> split
    · exact hd
    · exact hb
    · exact hd
    · exact hb
  · exact hb

theorem drainFrames_vents (hc : s.conn.tx.Counted) (hp : s.conn.tx.sendPoisoned = none)
    (hv : Vents s.conn.tx.queuedSendBytes sc) (hpo : (s.drainFrames sc f).1.conn.tx.sendPoisoned.isSome) :
    0 < (s.drainFrames sc f).1.conn.tx.queuedSendBytes := by
  induction f generalizing s sc with
  | nil =>
    rw [drainFrames, hp] at hpo
    cases hpo
  | cons fr f ih =>
    have ha : Airs (s.conn.tx.sendOrQueue fr none none sc) := sendOrQueue_airs hc hp hv
    unfold drainFrames at hpo ⊢
    dsimp only at hpo ⊢
    split at hpo
    · exact ha.1 hpo
    · next hok =>
      have hn : (s.conn.tx.sendOrQueue fr none none sc).side.sendPoisoned = none := by
        cases sendOrQueue_outcome hc ⟨fr, none⟩ none sc with
        | accepted _ _ _ hal => exact Option.not_isSome_iff_eq_none.mp (not_or.mp hal).2
        | misuse hr | failed hr | torn hr | forgotten hr => cases hok.symm.trans hr
      exact ih (sendOrQueue_counted hc ⟨fr, none⟩ none sc) hn (ha.2 hn) hpo

theorem drainFrames_dead (hd : s.conn.tx.Dead) : (s.drainFrames sc f).1.conn.tx = s.conn.tx := by
  cases f with
  | nil => rfl
  | cons fr f =>
    obtain ⟨hs, -, e, he⟩ := sendOrQueue_dead hd fr none none sc
    unfold drainFrames
    dsimp only
    rw [he]
    exact hs

/-- A drain that poisons the send side leaves something that asks for a dispatch of the socket. -/
theorem drainOutbox_vents (hc : s.conn.tx.Counted)
    (hp : s.conn.tx.sendPoisoned.isSome → 0 < s.conn.tx.queuedSendBytes ∨ s.wake = true) {t : Turn φ}
    (hv : s.wake = true ∨ Vents s.conn.tx.queuedSendBytes t.drain)
    (hpo : (s.drainOutbox t).1.conn.tx.sendPoisoned.isSome) :
    0 < (s.drainOutbox t).1.conn.tx.queuedSendBytes ∨ (s.drainOutbox t).1.wake = true := by
  have hd : let next := { s with ping := false }.drainFrames t.drain s.queue
      next.1.conn.tx.sendPoisoned.isSome → 0 < next.1.conn.tx.queuedSendBytes ∨ next.1.wake = true := by
    intro next hpo
    have hw : next.1.wake = s.wake := by
      dsimp only [next]
      rw [drainFrames_frame rfl]
    rw [hw]
    cases hn : s.conn.tx.sendPoisoned with
    | some k =>
      have hs : s.conn.tx.sendPoisoned.isSome := by rw [hn]; rfl
      have htx : next.1.conn.tx = s.conn.tx := drainFrames_dead (.inr hs)
      rw [htx]
      exact hp hs
    | none => exact hv.elim .inr fun hv => .inl (drainFrames_vents hc hn hv hpo)
  unfold drainOutbox at hpo ⊢
  split at hpo
  · next hb =>
    rw [if_pos hb]
    dsimp only at hpo ⊢
    split at hpo
    · next hg =>
      rw [if_pos hg]
      split at hpo
      · next hpi => rw [if_pos hpi]; exact hd hpo
      · next hpi => rw [if_neg hpi]; exact hp hpo
    · next hg =>
      rw [if_neg hg]
      split at hpo
      · next hpi => rw [if_pos hpi]; exact hd hpo
      · next hpi => rw [if_neg hpi]; exact hp hpo
  · next hb => rw [if_neg hb]; exact hp hpo

theorem drainOutbox_empties (hr : Rung s) (t : Turn φ) : (s.drainOutbox t).1.queue = [] := by
  unfold drainOutbox
  split
  · have he : (if s.ping = true then { s with ping := false }.drainFrames t.drain s.queue else (s, [])).1.queue =
        [] := by
      split
      · rw [drainFrames_frame rfl]
      · next hp => exact by_contra fun hn => hp (hr.ping hn).1
    dsimp only
    split
    · exact he
    · exact he
  · next hb => exact by_contra fun hn => hb (hr.ping hn).2

/-! ### The connection's half -/

/-- The last event of a dispatch that removes the source, and none of one that does not. -/
def Last (last : List (ConnectionEvent φ)) (removed : Bool) : Prop :=
  (removed = false ∧ last = []) ∨ (removed = true ∧ ∃ e : ConnectionEvent φ, e.Terminal ∧ last = [e])

theorem finish_goes (he : e.Terminal) (r : List (List (Act φ))) :
    Goes s (s.finish e r).marks [e] (s.finish e r).source :=
  s.emit_goes (fun h => by rw [h] at he; exact he) r

/-- Every frame is shown once; the loop ends with a terminal event or because there is no more to read. -/
theorem receiveAll_goes {re : List (Received φ)} {r : List (List (Act φ))} {ro : Nat} {out : Drained φ}
    (h : s.receiveAll re r ro = some out) : ∃ (m : List (Message φ)) (l : List (ConnectionEvent φ)),
    Last l out.remove ∧ Goes s out.marks (m.map .message ++ l) out.source := by
  induction ro generalizing s re r out with
  | zero => cases h
  | succ ro ih =>
    unfold receiveAll at h
    generalize s.conn.rx.recvMessage scripted () re = received at h
    obtain ⟨res, rx, _, left⟩ := received
    dsimp only at h
    -- Nothing but the receiving side changes.
    have hr : Goes s [] [] { s with conn := { s.conn with rx } } :=
      ⟨fun log h => (append_nil log).symm ▸ ⟨h.counted, h.turns, h.owed, h.outbox⟩, fun _ _ => id,
        fun h => ⟨h.ping, h.held⟩, rfl, rfl⟩
    split at h
    · next msg =>
      have hs := hr.trans
        (emit_goes { s with conn := { s.conn with rx } } (e := .message msg) nofun r)
      obtain ⟨next, hn, rfl⟩ := Option.map_eq_some_iff.mp h
      obtain ⟨m, l, hl, hre⟩ := ih hn
      exact ⟨msg :: m, l, hl, hs.trans hre⟩
    · cases h
      exact ⟨[], [.disconnected], .inr ⟨rfl, .disconnected, trivial, rfl⟩,
        hr.trans (finish_goes (e := .disconnected) trivial r)⟩
    · cases h
      exact ⟨[], [], .inl ⟨rfl, rfl⟩, hr⟩
    · cases h
      exact ⟨[], [.fault _], .inr ⟨rfl, .fault _, trivial, rfl⟩, hr.trans (finish_goes (e := .fault _) trivial r)⟩

/-- After the frames there is the turn that is owed, and then the end if the send side is dead. -/
theorem settle_goes (s : ConnectionSource φ) (r : List (List (Act φ))) :
    ∃ t l, (t = [] ∨ t = [.woken]) ∧ Last l (s.settle r).2.2 ∧
    Goes s (s.settle r).2.1 (t ++ l) (s.settle r).1 ∧
    ((s.settle r).2.2 = false → ¬ (s.settle r).1.conn.tx.Dead) := by
  have htu : ∃ t : List (ConnectionEvent φ), (t = [] ∨ t = [.woken]) ∧
      Goes s (if s.wake then { s with wake := false }.emit .woken r else (s, [])).2 t
        (if s.wake then { s with wake := false }.emit .woken r else (s, [])).1 := by
    split
    · next hw => exact ⟨[.woken], .inr rfl, emit_woken_goes hw r⟩
    · exact ⟨[], .inl rfl, .refl s⟩
  obtain ⟨t, ht, hg⟩ := htu
  unfold settle
  dsimp only
  generalize (if s.wake then { s with wake := false }.emit .woken r else (s, [])) = turned at hg ⊢
  refine ⟨t, ?_⟩
  have hfa (e r) := hg.trans (turned.1.emit_goes (e := .fault e) nofun r)
  split
  · exact ⟨[.fault _], ht, .inr ⟨rfl, .fault _, trivial, rfl⟩, hfa _ _, nofun⟩
  · next hover =>
    split
    · exact ⟨[.fault _], ht, .inr ⟨rfl, .fault _, trivial, rfl⟩, hfa _ _, nofun⟩
    · next hc =>
      refine ⟨[], ht, .inl ⟨rfl, rfl⟩, (append_nil t).symm ▸ hg, fun _ hd => ?_⟩
      rcases hd with hd | hd
      · exact hover hd
      · rw [hc] at hd
        cases hd

/-- What a dispatch of the socket shows: frames, at most one turn, and then a terminal event if the source is to be
removed. A source that stays has a send side that lives. -/
theorem processConnection_goes (s : ConnectionSource φ) (t : Turn φ) :
    ∃ (m : List (Message φ)) (tu l : List (ConnectionEvent φ)), (tu = [] ∨ tu = [.woken]) ∧
    Last l (s.processConnection t).2.2 ∧
    Goes s (s.processConnection t).2.1 (m.map .message ++ tu ++ l) (s.processConnection t).1 ∧
    ((s.processConnection t).2.2 = false → ¬ (s.processConnection t).1.conn.tx.Dead) := by
  have hf : ∃ f : Sent φ Unit, f = (if s.conn.tx.queuedSendBytes > 0 then
      s.conn.tx.flushSendQueue t.flush else ⟨.ok (), s.conn.tx, [], t.flush⟩) ∧
      Goes s [] [] (s.withTx f.side) := by
    refine ⟨_, rfl, ?_⟩
    split
    · refine ⟨fun log h => ?_, fun log h hd => ?_, fun h => ⟨h.ping, h.held⟩, rfl, rfl⟩
      · rw [append_nil]
        refine ⟨(flushSendQueue_spec h.counted t.flush).1.counted, h.turns, h.owed, fun hw ha => ?_⟩
        exact h.outbox hw fun hd => ha (flushSendQueue_stays_dead h.counted hd t.flush)
      · exact flushSendQueue_stays_dead h.counted hd t.flush
    · exact .refl s
  obtain ⟨f, hfl, hg⟩ := hf
  unfold processConnection
  dsimp only
  rw [← hfl]
  split
  · exact ⟨[], [], [.fault _], .inl rfl, .inr ⟨rfl, .fault _, trivial, rfl⟩,
      hg.trans (finish_goes (e := .fault _) trivial _), nofun⟩
  · obtain ⟨received, hre⟩ := (s.withTx f.side).exists_receiveAll t.reads t.reactions
    have hre := hre _ (Nat.le_refl _)
    obtain ⟨m, l, hl, hr⟩ := receiveAll_goes hre
    rw [hre]
    dsimp only
    rcases hl with ⟨hst, rfl⟩ | ⟨hre, e, he, rfl⟩
    · rw [hst]
      obtain ⟨tu, l, ht, hl, hs, ha⟩ := received.source.settle_goes received.reactions
      refine ⟨m, tu, l, ht, hl, ?_, ha⟩
      rw [append_nil] at hr
      rw [append_assoc]
      exact (hg.trans hr).trans hs
    · rw [hre]
      refine ⟨m, [], [e], .inl rfl, .inr ⟨rfl, e, he, rfl⟩, ?_, nofun⟩
      rw [append_nil]
      exact hg.trans hr

end ConnectionSource

/-! ### Runs -/

/-- A step: the log it adds, the shape of what it shows, and whether the source leaves the loop. -/
structure Steps (s : ConnectionSource φ) (marks : List (LoopMark φ)) (s' : ConnectionSource φ) : Prop where
  tracks : ∀ log, Tracks log s → Tracks (log ++ marks) s'
  rung : Rung s → Rung s'
  shown : ∃ (msgs : List (Message φ)) (turns last : List (ConnectionEvent φ)),
    eventsIn marks = msgs.map .message ++ turns ++ last ∧ (turns = [] ∨ turns = [.woken]) ∧
    ((last = [] ∧ s'.removed = s.removed) ∨ (s'.removed = true ∧ ∃ e : ConnectionEvent φ, e.Terminal ∧ last = [e]))
  silent : s.removed = true → eventsIn marks = []

variable {s s' : ConnectionSource φ} {ma : List (LoopMark φ)}

theorem Goes.steps (h : Goes s ma [] s') :
    Steps s ma s' where
  tracks := h.tracks
  rung := h.rung
  shown := ⟨[], [], [], h.shown, .inl rfl, .inl ⟨rfl, h.removed⟩⟩
  silent _ := h.shown

theorem Goes.interest {sho : List (ConnectionEvent φ)} (h : Goes s ma sho s') : Goes s ma sho s'.updateInterest :=
  ⟨fun log hl => ⟨(h.tracks log hl).counted, (h.tracks log hl).turns, (h.tracks log hl).owed,
    (h.tracks log hl).outbox⟩, h.dead, fun hr => ⟨(h.rung hr).ping, (h.rung hr).held⟩, h.removed, h.shown⟩

theorem sourceStep_steps (s : ConnectionSource φ) (op : LoopOp φ) :
    Steps s (sourceStep s op).2 (sourceStep s op).1 := by
  cases op with
  | send fr => exact (s.send_goes fr).steps
  | wake => exact s.askTurn_goes.steps
  | drop =>
    refine ⟨fun log h => ?_, fun h => ⟨h.ping, nofun⟩, ⟨[], [], [], rfl, .inl rfl, .inl ⟨rfl, rfl⟩⟩, fun _ => rfl⟩
    exact (append_nil log).symm ▸ ⟨h.counted, h.turns, h.owed, h.outbox⟩
  | dispatch tok tu =>
    simp only [sourceStep]
    split
    · exact (Goes.refl s).steps
    · next hl =>
      cases tok with
      | foreign => exact (Goes.refl s).interest.steps
      | ping => exact (s.drainOutbox_goes tu).interest.steps
      | connection =>
        obtain ⟨m, t, l, ht, hla, hg, -⟩ := s.processConnection_goes tu
        simp only [processEvents]
        rcases hla with ⟨hs, rfl⟩ | ⟨hr, e, he, rfl⟩
        · rw [hs]
          exact ⟨hg.interest.tracks, hg.interest.rung, ⟨m, t, [], hg.shown, ht,
            .inl ⟨rfl, hg.interest.removed⟩⟩, fun h => absurd h hl⟩
        · rw [hr]
          refine ⟨fun log h => ?_, fun h => ⟨(hg.rung h).ping, (hg.rung h).held⟩,
            ⟨m, t, [e], hg.shown, ht, .inr ⟨rfl, e, he, rfl⟩⟩, fun h => absurd h hl⟩
          have ha := hg.tracks log h
          exact ⟨ha.counted, ha.turns, ha.owed, ha.outbox⟩

def Ended (shown : List (ConnectionEvent φ)) (removed : Bool) : Prop :=
  (removed = false ∧ ∀ e ∈ shown, ¬ e.Terminal) ∨
  (removed = true ∧ ∃ before e, shown = before ++ [e] ∧ e.Terminal ∧ ∀ e' ∈ before, ¬ e'.Terminal)

theorem Steps.ended (h : Steps s ma s') (hende : Ended (eventsIn log) s.removed) :
    Ended (eventsIn (log ++ ma)) s'.removed := by
  obtain ⟨m, t, l, hsh, ht, hl⟩ := h.shown
  rw [eventsIn_append]
  rcases hende with ⟨hli, hb⟩ | ⟨hg, hen⟩
  · have hn : ∀ e ∈ eventsIn log ++ (m.map .message ++ t), ¬ e.Terminal := by
      intro e he
      rcases List.mem_append.mp he with he | he
      · exact hb e he
      · rcases List.mem_append.mp he with he | he
        · obtain ⟨ms, -, rfl⟩ := List.mem_map.mp he
          exact id
        · rcases ht with rfl | rfl
          · cases he
          · cases List.mem_singleton.mp he
            exact id
    rw [hsh, ← append_assoc]
    rcases hl with ⟨rfl, hs⟩ | ⟨hr, e, he, rfl⟩
    · rw [append_nil]
      exact .inl ⟨hs.trans hli, hn⟩
    · exact .inr ⟨hr, _, e, rfl, he, hn⟩
  · -- Nothing is shown any more.
    have hsi := h.silent hg
    have hst : s'.removed = true := by
      rcases hl with ⟨-, hs⟩ | ⟨hr, -⟩
      · exact hs.trans hg
      · exact hr
    rw [hsi, append_nil]
    exact .inr ⟨hst, hen⟩

/-- When the outbox is drained, a turn is owed or the kernel refuses no write for good once it has taken all that was
parked. -/
def Vented (s : ConnectionSource φ) : LoopOp φ → Prop
  | .dispatch .ping turn => s.wake = true ∨ Vents s.conn.tx.queuedSendBytes turn.drain
  | _ => True

theorem sourceStep_live {op : LoopOp φ} (hs : (sourceStep s op).1.removed = false) : s.removed = false := by
  obtain ⟨-, -, -, -, -, ⟨-, hsa⟩ | ⟨hr, -⟩⟩ := (sourceStep_steps s op).shown
  · exact hsa.symm.trans hs
  · cases hr.symm.trans hs

theorem dispatch_dead (hl : s.removed = false) (h : Tracks log s) (hd : s.conn.tx.Dead) (t : Turn φ) :
    (sourceStep s (.dispatch .connection t)).1.removed = true := by
  obtain ⟨_, _, _, -, -, hg, ha⟩ := s.processConnection_goes t
  simp only [sourceStep, hl, processEvents]
  cases hr : (s.processConnection t).2.2 with
  | true => rfl
  | false => exact absurd (hg.dead log h hd) (ha hr)

theorem dispatch_interest {t : Token} {tu : Turn φ} (hs : (sourceStep s (.dispatch t tu)).1.removed = false) :
    (sourceStep s (.dispatch t tu)).1.writable =
      (decide ((sourceStep s (.dispatch t tu)).1.conn.tx.queuedSendBytes > 0) ||
        (sourceStep s (.dispatch t tu)).1.wake) := by
  have hl := sourceStep_live hs
  simp only [sourceStep, hl] at hs ⊢
  cases t with
  | foreign | ping => rfl
  | connection =>
    simp only [processEvents] at hs ⊢
    cases hr : (s.processConnection tu).2.2 with
    | true =>
      rw [hr] at hs
      cases hs
    | false => rfl

theorem sourceStep_tx {op : LoopOp φ} (hl : s.removed = false) (hs : (sourceStep s op).1.removed = false) :
    ((sourceStep s op).1.conn.tx = s.conn.tx ∧ (s.wake = true → (sourceStep s op).1.wake = true)) ∨
    (∃ t, op = .dispatch .ping t ∧ (sourceStep s op).1.conn.tx = (s.drainOutbox t).1.conn.tx) ∨
    ¬ (sourceStep s op).1.conn.tx.Dead := by
  cases op with
  | send fr =>
    left
    simp only [sourceStep, send]
    split
    · exact ⟨rfl, id⟩
    · split <;> exact ⟨rfl, id⟩
  | wake =>
    left
    simp only [sourceStep, askTurn]
    split
    · exact ⟨rfl, id⟩
    · exact ⟨rfl, fun _ => rfl⟩
  | drop => exact .inl ⟨rfl, id⟩
  | dispatch tok t =>
    simp only [sourceStep, hl] at hs ⊢
    cases tok with
    | foreign => exact .inl ⟨rfl, id⟩
    | ping => exact .inr (.inl ⟨t, rfl, rfl⟩)
    | connection =>
      right
      right
      obtain ⟨-, -, -, -, -, -, ha⟩ := s.processConnection_goes t
      simp only [processEvents] at hs ⊢
      cases hr : (s.processConnection t).2.2 with
      | true =>
        rw [hr] at hs
        cases hs
      | false => exact ha hr

structure SourceStanding (start : ConnectionSource φ) (ops : List (LoopOp φ)) (s : ConnectionSource φ) : Prop where
  tracks : Tracks (sourceStep.outs start ops).flatten s
  rung : Rung s
  ended : Ended (eventsIn (sourceStep.outs start ops).flatten) s.removed
  overflow : s.removed = false → s.conn.tx.Backed
  poison : sourceStep.Along Vented start ops → s.removed = false → s.conn.tx.sendPoisoned.isSome →
    0 < s.conn.tx.queuedSendBytes ∨ s.wake = true

namespace SourceStanding

variable {st : ConnectionSource φ} {ops : List (LoopOp φ)}

theorem step (h : SourceStanding st ops s) (op : LoopOp φ) (hs : sourceStep.exec st ops = s) :
    SourceStanding st (ops ++ [op]) (sourceStep s op).1 := by
  have hlo : (sourceStep.outs st (ops ++ [op])).flatten =
      (sourceStep.outs st ops).flatten ++ (sourceStep s op).2 := by
    rw [sourceStep.outs_append, List.flatten_append, hs]
    exact congrArg _ (append_nil _)
  have hste := sourceStep_steps s op
  refine ⟨hlo ▸ hste.tracks _ h.tracks, hste.rung h.rung, hlo ▸ hste.ended h.ended, ?_, ?_⟩
  · intro hst
    have hl := sourceStep_live hst
    rcases sourceStep_tx hl hst with ⟨hsa, -⟩ | ⟨t, -, hd⟩ | ha
    · exact hsa ▸ h.overflow hl
    · rw [hd]
      exact drainOutbox_backed h.tracks.counted (h.overflow hl) t
    · exact fun hover => absurd (.inl hover) ha
  · intro hv hst hp
    have hl := sourceStep_live hst
    obtain ⟨hb, hn, -⟩ := (sourceStep.along_append _ _ _ _).mp hv
    rw [hs] at hn
    rcases sourceStep_tx hl hst with ⟨hsa, hw⟩ | ⟨t, rfl, hd⟩ | ha
    · rw [hsa] at hp ⊢
      exact (h.poison hb hl hp).imp_right hw
    · rw [hd] at hp
      have hv := drainOutbox_vents h.tracks.counted (h.poison hb hl) hn hp
      simp only [sourceStep, hl]
      exact hv
    · exact absurd (.inr hp) ha

end SourceStanding

theorem source_run {c : Connection φ} (hco : c.tx.Counted) (ha : ¬ c.tx.Dead)
    {sta : ConnectionSource φ} (hs : sta = .new c ∨ sta = .withOutbox c) (ops : List (LoopOp φ)) :
    SourceStanding sta ops (sourceStep.exec sta ops) := by
  refine sourceStep.exec_past (P := SourceStanding sta) ?_ (fun p op h => h.step op rfl) ops
  have hover : sta.conn = c ∧ sta.queue = [] ∧ sta.wake = false ∧ sta.removed = false := by
    rcases hs with rfl | rfl <;> exact ⟨rfl, rfl, rfl, rfl⟩
  obtain ⟨hc, hq, hw, hr⟩ := hover
  refine ⟨⟨hc ▸ hco, trivial, hw, fun _ _ => hq.symm⟩, ⟨fun hn => absurd hq hn, ?_⟩,
    .inl ⟨hr, nofun⟩, fun _ hover => ?_, fun _ _ hp => ?_⟩
  · rcases hs with rfl | rfl
    · exact nofun
    · exact fun _ => rfl
  · exact absurd (.inl (hc ▸ hover)) ha
  · exact absurd (.inr (hc ▸ hp)) ha

/-- **What a source shows and what it waits for.** After any run from registration: the callback has seen at most one
terminal event and nothing after it; every turn was owed when it was shown; if the frames given to the outbox were whole
and the send side lives, those taken were handed over in order, up to those still queued, which a pending ping will hand
over. At the next dispatch the callback sees frames, at most one turn and the terminal event if the source is removed; a
ping empties the outbox, and a dispatch of the socket ends a connection whose send side is dead. If the source stays,
it has write interest when bytes are parked, a turn is owed or the queue has overflowed, and, if every drain was
`Vented`, when the send side is poisoned. -/
theorem source_never_silent {conn : Connection φ} (hcounted : conn.tx.Counted) (halive : ¬ conn.tx.Dead)
    {start : ConnectionSource φ} (hstart : start = .new conn ∨ start = .withOutbox conn) (ops : List (LoopOp φ)) :
    let s := sourceStep.exec start ops
    let log := (sourceStep.outs start ops).flatten
    Ended (eventsIn log) s.removed ∧ TurnsOwed false log ∧
    ((∀ frame ∈ takenIn log, Whole φ frame) → ¬ s.conn.tx.Dead → takenIn log = handedIn log ++ s.queue) ∧
    (s.queue ≠ [] → s.ping = true ∧ s.outbox = true) ∧
    ∀ token turn, s.removed = false →
      let next := sourceStep s (.dispatch token turn)
      (∃ (msgs : List (Message φ)) (turns last : List (ConnectionEvent φ)),
        eventsIn next.2 = msgs.map .message ++ turns ++ last ∧ (turns = [] ∨ turns = [.woken]) ∧
        ConnectionSource.Last last next.1.removed) ∧
      (token = .ping → next.1.queue = []) ∧
      (token = .connection → s.conn.tx.Dead → next.1.removed = true) ∧
      (next.1.removed = false →
        (0 < next.1.conn.tx.queuedSendBytes ∨ next.1.wake = true ∨ next.1.conn.tx.sendOverflowed = true →
          next.1.writable = true) ∧
        (sourceStep.Along Vented start (ops ++ [.dispatch token turn]) → next.1.conn.tx.sendPoisoned.isSome →
          next.1.writable = true)) := by
  have h := source_run hcounted halive hstart ops
  refine ⟨h.ended, h.tracks.turns, h.tracks.outbox, h.rung.ping, fun token turn hlive => ⟨?_, ?_, ?_, fun hs => ?_⟩⟩
  · obtain ⟨msgs, turns, last, hshown, hturns, hlast⟩ :=
      (sourceStep_steps (sourceStep.exec start ops) (.dispatch token turn)).shown
    refine ⟨msgs, turns, last, hshown, hturns, ?_⟩
    rcases hlast with ⟨hno, hsame⟩ | hlast
    · exact .inl ⟨hsame.trans hlive, hno⟩
    · exact .inr hlast
  · rintro rfl
    simp only [sourceStep, hlive]
    exact drainOutbox_empties h.rung turn
  · rintro rfl hdead
    exact dispatch_dead hlive h.tracks hdead turn
  · have hn := h.step (.dispatch token turn) rfl
    have hask : ∀ next : ConnectionSource φ,
        next = (sourceStep (sourceStep.exec start ops) (.dispatch token turn)).1 →
        0 < next.conn.tx.queuedSendBytes ∨ next.wake = true → next.writable = true := by
      rintro _ rfl hask
      rw [dispatch_interest hs, Bool.or_eq_true, decide_eq_true_eq]
      exact hask
    refine ⟨?_, fun hv hpoi => hask _ rfl (hn.poison hv hs hpoi)⟩
    rintro (hparked | hwake | hover)
    · exact hask _ rfl (.inl hparked)
    · exact hask _ rfl (.inr hwake)
    · exact hask _ rfl (.inl (hn.overflow hs hover))

/-- A frame goes through the outbox, a turn is asked for, and the next two dispatches deliver both. -/
def spoken : List (LoopOp Nat) :=
  [.send bareFrame, .wake, .dispatch .ping ⟨[.ok 8], [], [], []⟩, .dispatch .connection ⟨[], [], [], []⟩]

theorem source_never_silent_spoken :
    eventsIn (sourceStep.outs (.withOutbox .new) spoken).flatten = [.woken] ∧
    (sourceStep.exec (.withOutbox .new) spoken).queue = [] ∧
    takenIn (sourceStep.outs (.withOutbox .new) spoken).flatten =
      handedIn (sourceStep.outs (.withOutbox .new) spoken).flatten ++
        (sourceStep.exec (.withOutbox .new) spoken).queue := by
  refine ⟨by decide +kernel, by decide +kernel, ?_⟩
  have ha : ¬ (Connection.new : Connection Nat).tx.Dead := by
    rintro (h | h) <;> cases h
  refine (source_never_silent counted_new ha (.inr rfl) spoken).2.2.1 ?_ ?_
  · have ht : takenIn (sourceStep.outs (.withOutbox .new) spoken).flatten = [bareFrame] := by decide +kernel
    intro frame hf
    rw [List.mem_singleton.mp hf]
    exact (by decide +kernel : validateOutgoing bareFrame (none : Option Nat) = .ok ())
  · have htx : (sourceStep.exec (.withOutbox .new) spoken).conn.tx = .new := by decide +kernel
    exact ha

/-- A peer has shut down its reading side and says nothing. The frame that the core sends it through the outbox meets a
fatal error while nothing is parked: the send side is poisoned, the source stays, and it waits for nothing but the
peer's words. -/
theorem poison_unreported :
    let s := sourceStep.exec (.withOutbox (Connection.new : Connection Nat))
      [.send bareFrame, .dispatch .ping ⟨[.err .brokenPipe], [], [], []⟩]
    s.removed = false ∧ s.conn.tx.sendPoisoned = some .brokenPipe ∧ s.queue = [] ∧ s.writable = false := by
  decide +kernel

end Vitrin.Ipc
