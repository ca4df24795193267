import Vitrin.Core.Basic

/-!
# The session's activity and the panel's phase

One record says when the human was last at the keyboard and how far an idle blank of
the panel has got: lit, covered by an opaque frame, dark, or waking until a flip lands.
The lock reads its clock; the human's first press on a blanked panel wakes it and is
swallowed.

An event is swallowed exactly on a blanked panel and on one that is waking in time
(`SessionActivity.notePhysical_consumes`), and lights none (`SessionActivity.notePhysical_phase`).
-/

namespace Vitrin

/-- How long a wake may swallow presses while no flip lands. -/
def wakeDeadline : Duration := secs 2

/-- How far a blank has got. -/
inductive SessionActivity.Phase where
  | lit
  /-- The opaque cover is up; the panel still has power. -/
  | covering
  | dark
  /-- A press came; no flip has landed since. -/
  | waking
  deriving DecidableEq

/-- How a blank ended. -/
inductive WakeOutcome where
  | flipLanded
  | noFlip
  | seatLost
  deriving DecidableEq

inductive ScreenTransition where
  | blanked
  | woke (dark : Duration) (outcome : WakeOutcome)
  deriving DecidableEq

/-- What a physical event means to the blank. -/
inductive Wake where
  | awake
  | consumed
  /-- The panel should be back by now. -/
  | overdue
  deriving DecidableEq

def Wake.consumes : Wake → Bool
  | consumed => true
  | _ => false

structure SessionActivity where
  last : Instant
  phase : SessionActivity.Phase
  /-- The idle time after which the panel blanks. -/
  after : Option Duration
  seatAbsent : Bool
  coverQueued : Bool
  wakingSince : Option Instant
  overdueLogged : Bool
  journalledDark : Option Instant
  exit : WakeOutcome

namespace SessionActivity

def new (after : Option Duration) (now : Instant) : SessionActivity where
  last := now
  phase := .lit
  after := after
  seatAbsent := false
  coverQueued := false
  wakingSince := none
  overdueLogged := false
  journalledDark := none
  exit := .noFlip

def isCovering (a : SessionActivity) : Bool := a.phase = .covering ∨ a.phase = .dark

def isDark (a : SessionActivity) : Bool := a.phase = .dark

def forceLit (a : SessionActivity) : SessionActivity :=
  { a with phase := .lit, coverQueued := false, wakingSince := none, overdueLogged := false, exit := .noFlip }

/-- The seat took the devices away, or gave them back. A return counts as activity. -/
def setSeatAbsent (a : SessionActivity) (absent : Bool) (now : Instant) : SessionActivity :=
  if absent then { a.forceLit with exit := .seatLost, seatAbsent := true }
  else { a with last := if a.seatAbsent then now else a.last, seatAbsent := false }

/-- The wake under way began long enough ago. -/
def overdue (a : SessionActivity) (now : Instant) : Bool :=
  a.wakingSince.any fun since => wakeDeadline ≤ now - since

def notePhysical (a : SessionActivity) (now : Instant) : SessionActivity × Wake :=
  let a := { a with last := now }
  match a.phase with
  | .lit => (a, .awake)
  | .covering | .dark =>
    ({ a with phase := .waking, coverQueued := false, wakingSince := some now, overdueLogged := false }, .consumed)
  | .waking => if a.overdue now then ({ a with overdueLogged := true }, .overdue) else (a, .consumed)

/-- Begin a blank when the session has been idle for long enough. -/
def tick (a : SessionActivity) (now : Instant) (inhibited : Bool) : SessionActivity × Bool :=
  if a.phase ≠ .lit ∨ a.seatAbsent ∨ inhibited then (a, false)
  else match a.after with
    | none => (a, false)
    | some after =>
      if now - a.last < after then (a, false)
      else ({ a with phase := .covering, coverQueued := false }, true)

def noteFrameQueued (a : SessionActivity) : SessionActivity :=
  if a.phase = .covering then { a with coverQueued := true } else a

/-- The panel may be powered down: the cover is on it. -/
def dpmsOwed (a : SessionActivity) : Bool := a.phase = .covering ∧ a.coverQueued

def wentDark (a : SessionActivity) : SessionActivity := if a.phase = .covering then { a with phase := .dark } else a

def noteFlipCompleted (a : SessionActivity) : SessionActivity × Bool :=
  if a.phase ≠ .waking then (a, false) else ({ a.forceLit with exit := .flipLanded }, true)

def wakeExpired (a : SessionActivity) (now : Instant) : Bool := a.phase = .waking ∧ a.overdue now

def takeTransition (a : SessionActivity) (now : Instant) : SessionActivity × Option ScreenTransition :=
  match a.journalledDark, a.phase with
  | none, .covering | none, .dark => ({ a with journalledDark := some now }, some .blanked)
  | some since, .lit => ({ a with journalledDark := none }, some (.woke (now - since) a.exit))
  | _, _ => (a, none)

/-! ### What an event does to the record -/

variable (a : SessionActivity)

/-- An event is let through on a lit panel, and while a wake has outrun its deadline. -/
theorem notePhysical_consumes (now : Instant) :
    (a.notePhysical now).2.consumes = false ↔ a.phase = .lit ∨ a.wakeExpired now = true := by
  simp only [notePhysical, wakeExpired, overdue]
  cases a.phase with
  | lit | covering | dark => simp [Wake.consumes]
  | waking =>
    by_cases h : (a.wakingSince.any fun s => wakeDeadline ≤ now - s) = true
    all_goals
      simp only [h]
      simp [Wake.consumes]

theorem notePhysical_phase (now : Instant) : (a.notePhysical now).1.phase = .lit ↔ a.phase = .lit := by
  simp only [notePhysical]
  cases h : a.phase with
  | lit | covering | dark => simp
  | waking => split_ifs <;> simp

theorem notePhysical_seatAbsent (now : Instant) : (a.notePhysical now).1.seatAbsent = a.seatAbsent := by
  simp only [notePhysical]
  cases a.phase with
  | waking => dsimp only; split_ifs <;> rfl
  | _ => rfl

/-! ### What the rounds and the panel do to it -/

theorem tick_cases (now : Instant) (i : Bool) :
    (a.tick now i).1 = a ∨ (a.tick now i).1 = { a with phase := .covering, coverQueued := false } := by
  unfold tick
  split_ifs
  · exact .inl rfl
  · split
    · exact .inl rfl
    · split_ifs
      · exact .inl rfl
      · exact .inr rfl

theorem takeTransition_phase (now : Instant) : (a.takeTransition now).1.phase = a.phase := by
  unfold takeTransition
  split <;> rfl

theorem takeTransition_seatAbsent (now : Instant) : (a.takeTransition now).1.seatAbsent = a.seatAbsent := by
  unfold takeTransition
  split <;> rfl

theorem wentDark_seatAbsent : a.wentDark.seatAbsent = a.seatAbsent := by
  unfold wentDark
  split_ifs <;> rfl

theorem noteFlipCompleted_of_false {a : SessionActivity} (h : a.noteFlipCompleted.2 = false) :
    a.noteFlipCompleted.1 = a := by
  unfold noteFlipCompleted at h ⊢
  split_ifs at h ⊢
  rfl

theorem noteFlipCompleted_seatAbsent : a.noteFlipCompleted.1.seatAbsent = a.seatAbsent := by
  unfold noteFlipCompleted
  split_ifs <;> rfl

theorem setSeatAbsent_seatAbsent (ab : Bool) (now : Instant) : (a.setSeatAbsent ab now).seatAbsent = ab := by
  cases ab <;> rfl

end SessionActivity

/-- What the blank round and the panel do to the record. -/
inductive ActivityOp where
  | tick (now : Instant) (inhibited : Bool)
  | frameQueued
  | wentDark
  | flipCompleted
  | forceLit
  | takeTransition (now : Instant)
  deriving DecidableEq

def ActivityOp.run (a : SessionActivity) : ActivityOp → SessionActivity
  | tick now inhibited => (a.tick now inhibited).1
  | frameQueued => a.noteFrameQueued
  | wentDark => a.wentDark
  | flipCompleted => a.noteFlipCompleted.1
  | forceLit => a.forceLit
  | takeTransition now => (a.takeTransition now).1

end Vitrin
