import Vitrin.Lock.Gate

/-!
# Blanks and wakes over a run

What the activity record promises the journal, the panel and the human, whatever comes in
whatever order: touches, ticks, frames, flips, a seat that goes and comes back.

`BlankPanel` is the record and the frame in flight to the display: the kernel takes one at a time,
and a flip completes that one. With the frame is kept whether it was queued under the cover
that is up now. `blankStep` is one event; a flip powers the panel down if the record owes it.

`blank_sound` is the promise.
-/

namespace Vitrin

open Lib Machine SessionActivity

/-- The record, and the frame in flight: whether it was queued under the cover that is up. -/
structure BlankPanel where
  activity : SessionActivity
  inFlight : Option Bool

inductive BlankOp where
  | physical (input : SeatInput) (now : Instant)
  | tick (now : Instant) (inhibited : Bool)
  | frameQueued
  | flipCompleted
  /-- The flip of the frame in flight will not come. -/
  | flipLost
  | setSeatAbsent (absent : Bool) (now : Instant)
  | forceLit
  | takeTransition (now : Instant)
  deriving DecidableEq

/-- What is swallowed, whether the panel is powered down, and what the journal is told. -/
structure BlankOut where
  swallowed : Bool
  poweredDown : Bool
  transition : Option ScreenTransition

/-- The record after an event; a flip powers the panel down or ends a wake. -/
def BlankOp.run (p : BlankPanel) : BlankOp → SessionActivity
  | .physical _ now => (p.activity.notePhysical now).1
  | .tick now inhibited => (p.activity.tick now inhibited).1
  | .frameQueued => if p.inFlight = none then p.activity.noteFrameQueued else p.activity
  | .flipCompleted =>
    if p.inFlight = none then p.activity
    else if p.activity.dpmsOwed then p.activity.wentDark else p.activity.noteFlipCompleted.1
  | .flipLost => p.activity
  | .setSeatAbsent absent now => p.activity.setSeatAbsent absent now
  | .forceLit => p.activity.forceLit
  | .takeTransition now => (p.activity.takeTransition now).1

/-- The frame in flight after an event, while the cover stays. -/
def BlankOp.flight (p : BlankPanel) : BlankOp → Option Bool
  | .frameQueued => p.inFlight.or (some true)
  | .flipCompleted | .flipLost => none
  | _ => p.inFlight

def blankStep : Machine BlankPanel BlankOp BlankOut := fun p op =>
  (⟨op.run p, (op.flight p).map (· && (op.run p).phase = .covering)⟩,
    { swallowed := match op with
        | .physical input now => (p.activity.notePhysical now).2.consumes && !isPairingRelease input
        | _ => false
      poweredDown := op = .flipCompleted ∧ p.inFlight.isSome ∧ p.activity.dpmsOwed
      transition := match op with
        | .takeTransition now => (p.activity.takeTransition now).2
        | _ => none })

/-- A panel that is lit, with nothing in flight. -/
def BlankPanel.new (after : Option Duration) (now : Instant) : BlankPanel := ⟨.new after now, none⟩

/-! ### The journal -/

def ScreenTransition.isBlanked : ScreenTransition → Bool
  | .blanked => true
  | .woke _ _ => false

/-- Blanks and wakes in turn, a blank first if `blanked`. -/
def InTurn (blanked : Bool) : List ScreenTransition → Prop
  | [] => True
  | t :: ts => t.isBlanked = blanked ∧ InTurn (!blanked) ts

/-- What the journal was told. -/
def told (outs : List BlankOut) : List ScreenTransition := outs.filterMap (·.transition)

open BlankOp (run flight)

/-- Only a drain changes what the journal believes, and then it is told the other thing. -/
theorem blankStep_told (p : BlankPanel) (op : BlankOp) :
    (blankStep p op).2.transition = none ∧ (blankStep p op).1.activity.journalledDark = p.activity.journalledDark ∨
      ∃ t, (blankStep p op).2.transition = some t ∧ t.isBlanked = p.activity.journalledDark.isNone ∧
        (blankStep p op).1.activity.journalledDark.isNone = !p.activity.journalledDark.isNone := by
  simp only [blankStep]
  cases op with
  | takeTransition now =>
    simp only [run, takeTransition]
    split <;> simp_all [ScreenTransition.isBlanked]
  | _ =>
    grind [run, notePhysical, tick, noteFrameQueued, wentDark, noteFlipCompleted, forceLit, setSeatAbsent]

theorem told_inTurn (p : BlankPanel) (ops : List BlankOp) :
    InTurn p.activity.journalledDark.isNone (told (blankStep.outs p ops)) := by
  induction ops generalizing p with
  | nil => trivial
  | cons op ops ih =>
    have hr := ih (blankStep p op).1
    obtain ⟨hn, hs⟩ | ⟨t, ht, hb, hot⟩ := blankStep_told p op
    · simpa [told, hn, ← hs] using hr
    · rw [hot] at hr
      simpa [told, ht, InTurn, hb] using hr

/-! ### The cover and the panel's power -/

/-- A cover that was queued is on its way and nothing else is, or it has done its work. -/
def CoverKept (p : BlankPanel) : Prop :=
  p.activity.coverQueued = true →
    p.activity.phase = .covering ∧ p.inFlight ≠ some false ∨ p.activity.phase = .dark

variable {p : BlankPanel}

/-- A cover that is queued after an event was queued by it, with nothing in flight, or before it. -/
theorem run_coverQueued {op : BlankOp} (h : (op.run p).coverQueued = true) :
    op = .frameQueued ∧ p.inFlight = none ∧ (op.run p).phase = .covering ∨
      p.activity.coverQueued = true ∧ (op.run p).phase = p.activity.phase ∨ (op.run p).phase = .dark := by
  cases op <;>
    grind [run, notePhysical, tick, noteFrameQueued, wentDark, dpmsOwed, noteFlipCompleted, forceLit,
      setSeatAbsent, takeTransition]

theorem blankStep_coverKept (h : CoverKept p) (op : BlankOp) : CoverKept (blankStep p op).1 := by
  intro hq
  show (op.run p).phase = .covering ∧ (op.flight p).map (· && decide ((op.run p).phase = .covering)) ≠ some false ∨
    (op.run p).phase = .dark
  obtain ⟨rfl, hfr, hph⟩ | ⟨hw, hph⟩ | hd := run_coverQueued hq
  · exact .inl ⟨hph, by simp [flight, hfr, hph]⟩
  · obtain ⟨hc, hf⟩ | hd := h hw
    · refine .inl ⟨hph.trans hc, ?_⟩
      rw [hph, hc]
      cases hp : p.inFlight with
      | none => cases op <;> simp [flight, hp]
      | some u =>
        have hu : u = true := by simpa [hp] using hf
        cases op <;> simp [flight, hp, hu]
    · exact .inr (hph.trans hd)
  · exact .inr hd

/-! ### The wake -/

theorem blankStep_waking {op : BlankOp} (h : (blankStep p op).1.activity.phase = .waking) :
    (∃ i now, op = .physical i now ∧ p.activity.isCovering ∧ (blankStep p op).1.activity.wakingSince = some now) ∨
      p.activity.phase = .waking ∧ (blankStep p op).1.activity.wakingSince = p.activity.wakingSince := by
  simp only [blankStep] at h ⊢
  cases op <;>
    grind [run, notePhysical, tick, isCovering, noteFrameQueued, wentDark, noteFlipCompleted,
      forceLit, setSeatAbsent, takeTransition]

/-- The touch at `since` woke the panel, which is waking ever since. -/
def WokenAt (p₀ : BlankPanel) (past : List BlankOp) (since : Instant) : Prop :=
  ∃ before input mid, past = before ++ .physical input since :: mid ∧ (blankStep.exec p₀ before).activity.isCovering ∧
    ∀ q, q <+: mid → (blankStep.exec p₀ (before ++ .physical input since :: q)).activity.phase = .waking

theorem wokenAt_run {p₀ : BlankPanel} (h₀ : p₀.activity.phase = .lit) (pa : List BlankOp) :
    (blankStep.exec p₀ pa).activity.phase = .waking →
      ∃ s, (blankStep.exec p₀ pa).activity.wakingSince = some s ∧ WokenAt p₀ pa s := by
  refine blankStep.exec_past (P := fun pa p => p.activity.phase = .waking →
    ∃ s, p.activity.wakingSince = some s ∧ WokenAt p₀ pa s) ?_ (fun pa op ih hw => ?_) pa
  · intro h
    rw [h₀] at h
    cases h
  · have hn : (blankStep.exec p₀ (pa ++ [op])).activity.phase = .waking := by
      rwa [blankStep.exec_concat]
    obtain ⟨i, now, rfl, hc, hs⟩ | ⟨hwa, hsa⟩ := blankStep_waking hw
    · refine ⟨now, hs, pa, i, [], rfl, hc, fun q hq => ?_⟩
      rw [List.prefix_nil.mp hq]
      exact hn
    · obtain ⟨s, hs, b, i, m, rfl, hc, hm⟩ := ih hwa
      refine ⟨s, hsa.trans hs, b, i, m ++ [op], by simp, hc, fun q hq => ?_⟩
      rcases List.prefix_concat_iff.mp hq with rfl | hq
      · simpa using hn
      · exact hm q hq

/-- **Blanking is sound.** Over any run: the journal is told of blanks and wakes in turn; a flip that powers the panel
down completes a frame that was queued under the cover that is up; and a touch that is swallowed is no release, and came
on a blanked panel or, while it was waking, within the deadline of the touch that woke it. -/
theorem blank_sound (after : Option Duration) (start : Instant) (ops : List BlankOp) (op : BlankOp) :
    let p := blankStep.exec (.new after start) ops
    InTurn true (told (blankStep.outs (.new after start) ops)) ∧
      ((blankStep p op).2.poweredDown →
        op = .flipCompleted ∧ p.activity.phase = .covering ∧ p.inFlight = some true) ∧
      ((blankStep p op).2.swallowed → ∃ input now, op = .physical input now ∧ isPairingRelease input = false ∧
        (p.activity.isCovering ∨ p.activity.phase = .waking ∧
          ∃ since, WokenAt (.new after start) ops since ∧ now - since < wakeDeadline)) := by
  intro p
  refine ⟨told_inTurn (.new after start) ops, fun h => ?_, fun h => ?_⟩
  · have hk : CoverKept p :=
      blankStep.exec_inv (P := CoverKept) (fun p op h => blankStep_coverKept h op)
        (fun h => absurd h Bool.false_ne_true) ops
    obtain ⟨rfl, hf, how⟩ : op = .flipCompleted ∧ p.inFlight.isSome ∧ p.activity.dpmsOwed := by
      simpa [blankStep] using h
    obtain ⟨hp, hq⟩ : p.activity.phase = .covering ∧ p.activity.coverQueued := by
      simpa [dpmsOwed] using how
    refine ⟨rfl, hp, ?_⟩
    obtain ⟨under, hu⟩ := Option.isSome_iff_exists.mp hf
    obtain ⟨-, hn⟩ | hd := hk hq
    · cases under with
      | true => exact hu
      | false => exact absurd hu hn
    · rw [hp] at hd
      cases hd
  · cases op with
    | physical input now =>
      obtain ⟨hc, hr⟩ : (p.activity.notePhysical now).2.consumes ∧ isPairingRelease input = false := by
        simpa [blankStep] using h
      refine ⟨input, now, rfl, hr, ?_⟩
      have hl := mt (p.activity.notePhysical_consumes now).mpr (by simp [hc])
      simp only [not_or, wakeExpired, decide_eq_true_eq, not_and] at hl
      cases hp : p.activity.phase with
      | lit => exact absurd hp hl.1
      | covering | dark => exact .inl (by simp [isCovering, hp])
      | waking =>
        obtain ⟨since, hs, hw⟩ := wokenAt_run rfl ops hp
        have hs : p.activity.wakingSince = some since := hs
        refine .inr ⟨rfl, since, hw, ?_⟩
        simpa [overdue, hs] using hl.2 hp
    | _ => cases h

/-- A session idle for long enough covers the panel and powers it down at the cover's flip. -/
theorem blank_sound_idle :
    (blankStep.exec (.new (some (secs 300)) 0) [.tick (secs 400) false, .frameQueued]).inFlight = some true :=
  ((blank_sound (some (secs 300)) 0 [.tick (secs 400) false, .frameQueued] .flipCompleted).2.1 (by decide)).2.2

end Vitrin
