import Vitrin.Consent.Answers
import Vitrin.Lock.Idle

/-!
# A session on the bare panel

The session that owns a display controller can show its cards to nobody: the lock may be
up, the seat may be another session's, the panel may be blanked or on its way back. A
decision is to be taken only from a card the human could see and has been able to see
for as long as the guard of a fresh card, so the card's guard is started again whenever
the panel shows the session again.

`BareMetal` puts the lock, with the activity record it shares, before the consent grab,
and adds what decides on frames and power: the cover, the output, the resume watch.
Each step is one callback of the event loop or one of the rounds that follow a dispatch,
at the instant it reads off its clock. The hardware is in the label: when a flip lands,
whether the controller takes a frame, whether the keyboard comes back. A suspended
keyboard delivers nothing.

`decision_from_seen_press` says so of runs in which no press and no screen round comes upon
a wake past its deadline, and no press between an accepted passphrase and the lock round
after it. `unseen_presses_commit` shows what happens otherwise.
-/

namespace Vitrin

open Lib Machine SessionActivity

/-! ### The session -/

/-- The clock pair of the latest round, by which a suspend is noticed. -/
abbrev ResumeWatch := Option (Nat × Instant)

/-- Wall and monotonic time that part by this much have been parted by a suspend. -/
def suspendGap : Duration := secs 10

/-- Fold one round's clock pair in: the length of the suspend that just ended. -/
def ResumeWatch.sample (last : ResumeWatch) (wall : Nat) (mono : Instant) : Option Duration := do
  let (previousWall, previousMono) ← last
  let skew := (wall - previousWall) - (mono - previousMono)
  if previousWall ≤ wall ∧ mono - previousMono ≤ wall - previousWall ∧ suspendGap ≤ skew then some skew else none

/-- What the display controller is doing. -/
structure Output where
  active : Bool
  wanted : Bool
  flipPending : Bool

structure BareMetal where
  lock : LockScreen
  consent : ConsentSystem
  blank : Bool
  output : Output
  resume : ResumeWatch
  listening : Bool

/-- Calls on the grab that neither judge an event, raise a petition's card nor restart a guard. -/
def ConsentOp.routine : ConsentOp → Bool
  | .event _ _ | .raise _ _ | .restartGuard _ => false
  | _ => true

def ConsentSystem.drainDecisions (c : ConsentSystem) : ConsentSystem :=
  { c with
    grab := { c.grab with decisions := [] }
    petitions := c.grab.decisions.foldl (fun r d => (r.resolveHuman d.petition d.choice).1) c.petitions }

/-- The consent round: settle what was decided, and raise the next card if it would be seen. -/
def ConsentSystem.serviceRound (paint : Painter) (c : ConsentSystem) (now : Instant) (reachable : Bool) :
    ConsentSystem :=
  let c := c.retireStale.1.drainDecisions.retireStale.1
  if reachable && c.grab.raised.isNone then
    match c.petitions.frontPending with
    | some front => (c.raise paint front now).1
    | none => c
  else c

namespace BareMetal

/-- A session as it starts: lit, unlocked, on its own seat. -/
def new (lock : LockScreen) (consent : ConsentSystem) : BareMetal where
  lock := lock
  consent := consent
  blank := false
  output := ⟨true, false, false⟩
  resume := none
  listening := true

def onActivity (s : BareMetal) (f : SessionActivity → SessionActivity) : BareMetal :=
  { s with lock := { s.lock with activity := f s.lock.activity } }

/-- `screen_became_visible`: the human can see the card again. -/
def screenBecameVisible (s : BareMetal) (now : Instant) : BareMetal :=
  { s with consent := (s.consent.restartGuard now).1 }

def shouldQueueFlip (s : BareMetal) : Bool :=
  s.output.wanted && !s.output.flipPending && s.output.active && !s.lock.activity.isDark

/-- Queue the frame that is owed, if the controller takes it. -/
def servicePresent (s : BareMetal) (taken : Bool) : BareMetal :=
  if s.shouldQueueFlip && taken then
    { s.onActivity (·.noteFrameQueued) with output := { s.output with wanted := false, flipPending := true } }
  else s

def requestPresent (s : BareMetal) (taken : Bool) : BareMetal :=
  { s with output := { s.output with wanted := true } }.servicePresent taken

/-- A card raised now would be seen. -/
def reachable (s : BareMetal) : Bool := s.output.active && !s.blank

/-- An event at the hook point. The VT hook, outside the lock, may have taken it; what the lock lets
through comes to the grab. -/
def route (paint : Painter) (s : BareMetal) (input : SeatInput) (vt : Bool) (now : Instant) : BareMetal :=
  if vt || (input.origin == .physical && !s.listening) then s
  else
    let judged := s.lock.judge input now
    match judged.2 with
    | .consume => { s with lock := judged.1 }
    | .deliver => { s with lock := judged.1, consent := (consentStep paint s.consent (.event input now)).1 }

/-- The lock round: the idle lock, and the guard of a card that an unlock uncovered. -/
def serviceLock (s : BareMetal) (heldByPicker : Bool) (now : Instant) : BareMetal :=
  let taken := (s.lock.tick now heldByPicker).takeJournal
  let s := { s with lock := taken.1 }
  if .unlocked ∈ taken.2 then s.screenBecameVisible now else s

def noteResume (s : BareMetal) (wall : Nat) (taken : Bool) (now : Instant) : BareMetal :=
  let s' := { s with resume := some (wall, now) }
  if (s.resume.sample wall now).isSome then (s'.screenBecameVisible now).requestPresent taken else s'

/-- The blank round on the record: the countdown, and a wake that outran its deadline. -/
def blankRound (a : SessionActivity) (inhibited : Bool) (now : Instant) : SessionActivity :=
  let a := (a.tick now inhibited).1
  if a.wakeExpired now then a.forceLit else a

def serviceScreen (s : BareMetal) (wall : Nat) (inhibited taken taken' : Bool) (now : Instant) : BareMetal :=
  let s := s.noteResume wall taken now
  let a := blankRound s.lock.activity inhibited now
  let owed := (s.blank != a.isCovering) || a.phase = .waking
  let s := { s.onActivity fun _ => (a.takeTransition now).1 with blank := a.isCovering }
  if owed then s.requestPresent taken' else s

/-- A flip landed: power the panel down under the cover, or end a wake. -/
def serviceScreenPower (s : BareMetal) (now : Instant) : BareMetal :=
  if s.lock.activity.dpmsOwed then s.onActivity (·.wentDark)
  else
    let flipped := s.lock.activity.noteFlipCompleted
    let s := s.onActivity fun _ => flipped.1
    if flipped.2 then s.screenBecameVisible now else s

def onVblank (s : BareMetal) (taken : Bool) (now : Instant) : BareMetal :=
  ({ s with output := { s.output with flipPending := false } }.serviceScreenPower now).servicePresent taken

/-- The seat took the devices away. -/
def pauseSession (s : BareMetal) (now : Instant) : BareMetal :=
  { s with
    output := { s.output with active := false }
    listening := false
    lock := (s.lock.setSeatAbsent true now).forgetPhysicalState }

/-- The seat gave the devices back. The clocks read `noted` for the activity record, then `now`. -/
def activateSession (s : BareMetal) (resumed taken : Bool) (noted now : Instant) : BareMetal :=
  let s := { s with
    listening := resumed
    lock := s.lock.setSeatAbsent false noted
    output := { s.output with active := true, flipPending := false } }
  (s.requestPresent taken).screenBecameVisible now

end BareMetal

/-! ### Runs -/

inductive MetalOp where
  | input (input : SeatInput) (vt : Bool)
  | serviceConsent
  /-- The picker's round, the panel, the registry. -/
  | consent (op : { op : ConsentOp // op.routine = true })
  | serviceLock (heldByPicker : Bool)
  | serviceScreen (wall : Nat) (inhibited taken taken' : Bool)
  | requestPresent (taken : Bool)
  | vblank (taken : Bool)
  | pause
  | activate (resumed taken : Bool) (noted : Instant)

def metalStep (paint : Painter) : Machine BareMetal (Instant × MetalOp) Unit := fun s label =>
  (match label.2 with
    | .input input vt => s.route paint input vt label.1
    | .serviceConsent => { s with consent := s.consent.serviceRound paint label.1 s.reachable }
    | .consent op => { s with consent := (consentStep paint s.consent op).1 }
    | .serviceLock held => s.serviceLock held label.1
    | .serviceScreen wall inhibited taken taken' => s.serviceScreen wall inhibited taken taken' label.1
    | .requestPresent taken => s.requestPresent taken
    | .vblank taken => s.onVblank taken label.1
    | .pause => s.pauseSession label.1
    | .activate resumed taken noted => s.activateSession resumed taken noted label.1, ())

/-- The panel shows the session: it is not locked, its seat is not away, and the panel is neither
covered nor dark nor waking. -/
def Showing (s : BareMetal) : Prop :=
  s.lock.locked = none ∧ s.lock.activity.seatAbsent = false ∧ s.lock.activity.phase = .lit

instance (s : BareMetal) : Decidable (Showing s) := inferInstanceAs (Decidable (_ ∧ _ ∧ _))

/-- No press and no screen round comes upon a wake past its deadline, and no press comes between an
unlock and the lock round. -/
def Timely (s : BareMetal) (label : Instant × MetalOp) : Prop := match label.2 with
  | .input ⟨.physical, .button _ .pressed⟩ _ =>
    s.lock.activity.wakeExpired label.1 = false ∧ .unlocked ∉ s.lock.journal
  | .serviceScreen _ _ _ _ => s.lock.activity.wakeExpired label.1 = false
  | _ => True

instance (s : BareMetal) (label : Instant × MetalOp) : Decidable (Timely s label) := by
  unfold Timely
  split <;> infer_instance

/-! ### What the lock does to the record -/

variable {now : Instant}

namespace LockScreen

theorem tick_activity (s : LockScreen) (now : Instant) (held : Bool) : (s.tick now held).activity = s.activity :=
  congrArg (·.1) (s.tick_clock now held)

theorem judge_activity (s : LockScreen) (i : SeatInput) (now : Instant) :
    (s.judge i now).1.activity = s.activity ∨ (s.judge i now).1.activity = (s.activity.notePhysical now).1 := by
  have hc := s.judge_clock i now
  split_ifs at hc
  · exact .inr (congrArg (·.1) hc)
  · exact .inl (congrArg (·.1) hc)

/-- A press that the lock lets through was made at a lock that is down, on a panel that is lit or whose
wake has outrun its deadline. -/
theorem judge_press_delivers {s : LockScreen} {b : Nat}
    (h : (s.judge ⟨.physical, .button b .pressed⟩ now).2 = .deliver) :
    s.locked = none ∧ (s.activity.phase = .lit ∨ s.activity.wakeExpired now = true) := by
  have hd : s.locked = none := by
    by_contra hu
    have hl : s.isLocked := by simpa [isLocked, Option.isSome_iff_ne_none] using hu
    have hc : (s.judge ⟨.physical, .button b .pressed⟩ now).2 = .consume := judge_consumes hl now rfl rfl
    rw [hc] at h
    cases h
  refine ⟨hd, (s.activity.notePhysical_consumes now).mp ?_⟩
  by_contra hw
  have hw' : (s.noted ⟨.physical, .button b .pressed⟩ now).2.consumes = true := by
    simpa [noted] using hw
  simp [judge, hw', isPairingRelease] at h

end LockScreen

/-! ### Calls on the grab other than events -/

/-- The raised petition's card of `c'` is the one of `c`, with the same guard or one started at `now`, and
nothing is armed on it but what was. -/
def Handled (now : Instant) (c c' : ConsentSystem) : Prop :=
  ∀ pr' id, c'.grab.prompt = some pr' → pr'.subject = .petition id →
    (pr'.raisedAt = now ∨ ∃ pr, c.grab.prompt = some pr ∧ pr.subject = .petition id ∧ pr.raisedAt = pr'.raisedAt) ∧
    (c'.grab.armed = none ∨
      c'.grab.armed = c.grab.armed ∧ ∃ pr, c.grab.prompt = some pr ∧ pr.subject = .petition id)

namespace Handled

variable {c c' c'' : ConsentSystem}

theorem of_same (hp : c'.grab.prompt = c.grab.prompt) (ha : c'.grab.armed = c.grab.armed) : Handled now c c' := by
  intro pr id hpr hi
  rw [hp] at hpr
  exact ⟨.inr ⟨pr, hpr, hi, rfl⟩, .inr ⟨ha, pr, hpr, hi⟩⟩

theorem refl (now : Instant) (c : ConsentSystem) : Handled now c c := of_same rfl rfl

theorem trans (h : Handled now c c') (h' : Handled now c' c'') : Handled now c c'' := by
  intro pr id hp hi
  obtain ⟨hr, ha⟩ := h' pr id hp hi
  constructor
  · obtain hno | ⟨p', hp', hi', hs⟩ := hr
    · exact .inl hno
    · rw [← hs]
      exact (h p' id hp' hi').1
  · obtain hn | ⟨hs, p', hp', hi'⟩ := ha
    · exact .inl hn
    · rw [hs]
      exact (h p' id hp' hi').2

variable (paint : Painter)

/-- What a call that raises or restarts at `now`, if at all, does to the card: the human's press may arm it. -/
theorem or_pressed (op : ConsentOp) (hr : ∀ id t, op = .raise id t → t = now)
    (hre : ∀ t, op = .restartGuard t → t = now) :
    Handled now c (consentStep paint c op).1 ∨
      ∃ p b t ch, op = .event ⟨.physical, .button b .pressed⟩ t ∧ c.grab.prompt = some p ∧
        p.raisedAt + guardInterval ≤ t ∧ (consentStep paint c op).1.grab.frame = c.grab.frame ∧
        (consentStep paint c op).1.grab.armed = some (b, ch) := by
  cases consentStep_cardStep paint c op with
  | gone hg =>
    refine .inl fun pr id hp hi => ?_
    exact absurd (hg.symm.trans (ConsentGrab.raisedPetition_eq hp hi)) (by simp)
  | raised i' t p car ca fr pe pro a =>
    refine .inl fun pr id hp hi => ?_
    cases pro.symm.trans hp
    exact ⟨.inl (hr i' t ca), .inl a⟩
  | restarted t p p' ca be af f a cl =>
    refine .inl fun pr id hp hi => ?_
    cases af.symm.trans hp
    exact ⟨.inl ((congrArg (·.2.2.1) f).trans (hre t ca)), .inl a⟩
  | pressed p b t ch ca up hit g f a cl => exact .inr ⟨p, b, t, ch, ca, up, g, f, a⟩
  | kept ca f a cl _ =>
    refine .inl fun pr id hp hi => ?_
    obtain ⟨p₀, hp₀, hf⟩ := ConsentGrab.prompt_of_frame f hp
    have hi₀ : p₀.subject = .petition id := (congrArg Prod.fst hf).symm.trans hi
    refine ⟨.inr ⟨p₀, hp₀, hi₀, (congrArg (·.2.2.1) hf).symm⟩, ?_⟩
    exact a.imp_right fun h => ⟨h, p₀, hp₀, hi₀⟩

theorem of_call (op : ConsentOp) (he : op.eventTime = none) (hr : ∀ id t, op = .raise id t → t = now)
    (hre : ∀ t, op = .restartGuard t → t = now) : Handled now c (consentStep paint c op).1 := by
  obtain h | ⟨p, b, t, ch, rfl, -⟩ := or_pressed paint op hr hre
  · exact h
  · cases he

theorem serviceRound (c : ConsentSystem) (now : Instant) (r : Bool) : Handled now c (c.serviceRound paint now r) := by
  have hr (c : ConsentSystem) : Handled now c c.retireStale.1 :=
    of_call paint .retireStale rfl (fun _ _ => nofun) (fun _ => nofun)
  have hd : Handled now c c.retireStale.1.drainDecisions.retireStale.1 :=
    ((hr c).trans (of_same rfl rfl)).trans (hr _)
  unfold ConsentSystem.serviceRound
  dsimp only
  split_ifs
  · split
    · refine hd.trans (of_call paint (.raise _ now) rfl ?_ fun _ => nofun)
      rintro id t h
      cases h
      rfl
    · exact hd
  · exact hd

end Handled

theorem restartGuard_fresh (c : ConsentSystem) (now : Instant) {pr : ArmedPrompt}
    (h : (c.restartGuard now).1.grab.prompt = some pr) :
    pr.raisedAt = now ∧ (c.restartGuard now).1.grab.armed = none := by
  unfold ConsentSystem.restartGuard at h ⊢
  split at h
  · rename_i hn
    simp [hn] at h
  · have hq := ConsentGrab.onPanel_quiet
    obtain ⟨p', hp', hf⟩ := ConsentGrab.prompt_of_frame (hq _ _).frame h
    cases hp'
    exact ⟨congrArg (·.2.2.1) hf, (hq _ _).armed⟩

theorem Handled.restartGuard (c : ConsentSystem) (now : Instant) : Handled now c (c.restartGuard now).1 := by
  intro pr id hp hi
  obtain ⟨hr, ha⟩ := restartGuard_fresh c now hp
  exact ⟨.inl hr, .inl ha⟩

/-! ### When the panel shows the session again -/

/-- Nothing that shows the session, or hides it, differs. -/
structure Unseen (s s' : BareMetal) : Prop where
  locked : s'.lock.locked = s.lock.locked
  journal : s'.lock.journal = s.lock.journal
  phase : s'.lock.activity.phase = s.lock.activity.phase
  wakingSince : s'.lock.activity.wakingSince = s.lock.activity.wakingSince
  seatAbsent : s'.lock.activity.seatAbsent = s.lock.activity.seatAbsent
  consent : s'.consent = s.consent
  listening : s'.listening = s.listening

variable {s : BareMetal}

theorem Unseen.showing {s' : BareMetal} (h : Unseen s s') : Showing s' ↔ Showing s := by
  rw [Showing, Showing, h.locked, h.seatAbsent, h.phase]

theorem Unseen.wakeExpired {s' : BareMetal} (h : Unseen s s') (now : Instant) :
    s'.lock.activity.wakeExpired now = s.lock.activity.wakeExpired now := by
  rw [SessionActivity.wakeExpired, SessionActivity.wakeExpired, decide_eq_decide, SessionActivity.overdue,
    SessionActivity.overdue, h.phase, h.wakingSince]

/-- A step at `now` that attends to the card: it is left with its guard, or its guard starts again at `now`;
it does so when the panel shows the session again, unless the journal still owes it to an unlock, and when
that debt is paid. -/
structure Attends (now : Instant) (s s' : BareMetal) : Prop where
  handled : Handled now s.consent s'.consent
  again : ¬ Showing s → Showing s' → .unlocked ∉ s'.lock.journal →
    ∀ pr, s'.consent.grab.prompt = some pr → pr.raisedAt = now
  drained : .unlocked ∈ s.lock.journal → .unlocked ∉ s'.lock.journal →
    ∀ pr, s'.consent.grab.prompt = some pr → pr.raisedAt = now
  listening : (s.listening → s.lock.activity.seatAbsent = false) →
    s'.listening → s'.lock.activity.seatAbsent = false

namespace Attends

variable {s s' s'' : BareMetal}

theorem then_hides (h : Attends now s s') (hc : s''.consent = s'.consent) (hs' : Showing s'' → Showing s')
    (hj : s''.lock.journal = s'.lock.journal) (hl : s''.listening = s'.listening)
    (ha : s''.lock.activity.seatAbsent = s'.lock.activity.seatAbsent) : Attends now s s'' where
  handled := hc ▸ h.handled
  again hs hs'' hj' := hc ▸ h.again hs (hs' hs'') (hj ▸ hj')
  drained hs hs'' := hc ▸ h.drained hs (hj ▸ hs'')
  listening hs hs'' := ha ▸ h.listening hs (hl ▸ hs'')

theorem then_unseen (h : Attends now s s') (h' : Unseen s' s'') : Attends now s s'' :=
  h.then_hides h'.consent h'.showing.mp h'.journal h'.listening h'.seatAbsent

theorem after_unseen (h : Unseen s s') (h' : Attends now s' s'') : Attends now s s'' where
  handled := h.consent ▸ h'.handled
  again hs := h'.again (fun hs' => hs (h.showing.mp hs'))
  drained hs := h'.drained (h.journal ▸ hs)
  listening hs := h'.listening (fun hs' => h.seatAbsent ▸ hs (h.listening ▸ hs'))

theorem of_handled (hc : Handled now s.consent s'.consent) (hs : Showing s' → Showing s)
    (hj : .unlocked ∈ s.lock.journal → .unlocked ∈ s'.lock.journal)
    (hl : s'.listening → s.listening ∧ s'.lock.activity.seatAbsent = s.lock.activity.seatAbsent) :
    Attends now s s' where
  handled := hc
  again h h' _ := absurd (hs h') h
  drained h h' := absurd (hj h) h'
  listening h h' := (hl h').2.trans (h (hl h').1)

theorem of_restart (hc : s'.consent = (s.consent.restartGuard now).1)
    (hl : (s.listening → s.lock.activity.seatAbsent = false) → s'.listening → s'.lock.activity.seatAbsent = false) :
    Attends now s s' where
  handled := hc ▸ Handled.restartGuard s.consent now
  again _ _ _ _ hp := (restartGuard_fresh s.consent now (hc ▸ hp)).1
  drained _ _ _ hp := (restartGuard_fresh s.consent now (hc ▸ hp)).1
  listening := hl

end Attends

theorem LockScreen.Moves.locked_none {s s' : LockScreen} {d w : List LockJournal}
    (h : s.Moves none d s' w) (hn : s'.locked = none) : s.locked = none := by
  have hm := h.move
  generalize s'.locked = l at hm hn
  cases hm with
  | still _ => exact hn
  | raised _ _ _ => cases hn
  | edited _ _ ht _ _ | refused _ ht _ _ | accepted _ ht _ _ => cases ht

theorem LockScreen.Moves.unlocks {s s' : LockScreen} {t : Option Nat} {d w : List LockJournal}
    (h : s.Moves t d s' w) (hn : s'.locked = none) (hu : s.locked ≠ none) : .unlocked ∈ w := by
  have hm := h.move
  generalize s'.locked = l at hm hn
  cases hm with
  | still _ => exact absurd hn hu
  | raised | edited | refused => cases hn
  | accepted _ _ _ _ => simp

namespace BareMetal

theorem servicePresent_unseen (s : BareMetal) (t : Bool) : Unseen s (s.servicePresent t) := by
  unfold servicePresent
  split_ifs
  · refine ⟨rfl, rfl, ?_, ?_, ?_, rfl, rfl⟩ <;>
      simp only [onActivity, noteFrameQueued] <;> split_ifs <;> rfl
  · exact ⟨rfl, rfl, rfl, rfl, rfl, rfl, rfl⟩

theorem requestPresent_unseen (s : BareMetal) (t : Bool) : Unseen s (s.requestPresent t) := by
  have h := servicePresent_unseen { s with output := { s.output with wanted := true } } t
  exact ⟨h.locked, h.journal, h.phase, h.wakingSince, h.seatAbsent, h.consent, h.listening⟩

theorem serviceLock_attends (held : Bool) (now : Instant) : Attends now s (s.serviceLock held now) := by
  obtain ⟨w, hm⟩ := s.lock.tick_moves now held
  have ha := s.lock.tick_activity now held
  unfold serviceLock
  dsimp only
  split_ifs with hu
  · refine .of_restart rfl fun hs h => ?_
    exact (congrArg (·.seatAbsent) ha).trans (hs h)
  · -- nothing of the journal was an unlock, so nothing is owed
    have hold : .unlocked ∉ s.lock.journal := by
      intro hme
      refine hu ?_
      rw [show (s.lock.tick now held).takeJournal.2 = s.lock.journal ++ w from hm.journal]
      exact List.mem_append_left _ hme
    refine .of_handled (.refl now _) ?_ (fun h => absurd h hold) fun h => ⟨h, congrArg (·.seatAbsent) ha⟩
    rintro ⟨hl, hab, hp⟩
    exact ⟨hm.locked_none hl, ha ▸ hab, ha ▸ hp⟩

theorem noteResume_attends (s : BareMetal) (w : Nat) (t : Bool) (now : Instant) :
    Attends now s (s.noteResume w t now) := by
  unfold noteResume
  split_ifs
  · refine Attends.then_unseen ?_ (requestPresent_unseen _ t)
    exact .of_restart rfl fun hs => hs
  · exact .of_handled (.refl now _) id id fun h => ⟨h, rfl⟩

theorem blankRound_lit {a : SessionActivity} (i : Bool) (h : a.wakeExpired now = false) :
    ((blankRound a i now).phase = .lit → a.phase = .lit) ∧
      (blankRound a i now).seatAbsent = a.seatAbsent := by
  unfold blankRound
  dsimp only
  obtain ht | ht := a.tick_cases now i <;> rw [ht]
  · rw [h]
    exact ⟨id, rfl⟩
  · exact ⟨nofun, rfl⟩

theorem noteResume_wakeExpired (s : BareMetal) (w : Nat) (t : Bool) (now : Instant) :
    (s.noteResume w t now).lock.activity.wakeExpired now = s.lock.activity.wakeExpired now := by
  unfold noteResume
  split_ifs
  · exact (requestPresent_unseen _ t).wakeExpired now
  · rfl

theorem serviceScreen_attends (w : Nat) (i t t' : Bool) (h : s.lock.activity.wakeExpired now = false) :
    Attends now s (s.serviceScreen w i t t' now) := by
  unfold serviceScreen
  dsimp only
  set s₁ := s.noteResume w t now with hs₁
  obtain ⟨hl, ha⟩ := blankRound_lit i ((s.noteResume_wakeExpired w t now).trans h)
  have hr : Attends now s { s₁.onActivity fun _ =>
      ((blankRound s₁.lock.activity i now).takeTransition now).1 with
      blank := (blankRound s₁.lock.activity i now).isCovering } := by
    have ha' := (takeTransition_seatAbsent _ now).trans ha
    refine (s.noteResume_attends w t now).then_hides rfl ?_ rfl rfl ha'
    rintro ⟨hlo, hpr, hp⟩
    exact ⟨hlo, ha'.symm.trans hpr, hl ((takeTransition_phase _ now).symm.trans hp)⟩
  split_ifs
  · exact hr.then_unseen (requestPresent_unseen _ t')
  · exact hr

theorem serviceScreenPower_attends (now : Instant) : Attends now s (s.serviceScreenPower now) := by
  unfold serviceScreenPower
  split_ifs with how
  · have hp : s.lock.activity.wentDark.phase = .dark := by
      simp_all [dpmsOwed, wentDark]
    refine .of_handled (.refl now _) ?_ id fun h => ⟨h, s.lock.activity.wentDark_seatAbsent⟩
    rintro ⟨-, -, hl⟩
    cases hp.symm.trans hl
  · dsimp only
    split_ifs with hf
    · exact .of_restart rfl fun hs h => s.lock.activity.noteFlipCompleted_seatAbsent.trans (hs h)
    · have hsa := noteFlipCompleted_of_false (by simpa using hf)
      refine .of_handled (.refl now _) ?_ id fun h => ⟨h, congrArg (·.seatAbsent) hsa⟩
      rintro ⟨hlo, ha, hl⟩
      exact ⟨hlo, hsa ▸ ha, hsa ▸ hl⟩

theorem onVblank_attends (t : Bool) (now : Instant) : Attends now s (s.onVblank t now) := by
  refine Attends.then_unseen (.after_unseen ?_ (serviceScreenPower_attends now)) (servicePresent_unseen _ t)
  exact ⟨rfl, rfl, rfl, rfl, rfl, rfl, rfl⟩

theorem setSeatAbsent_seatAbsent (s : LockScreen) (a : Bool) (now : Instant) :
    (s.setSeatAbsent a now).activity.seatAbsent = a := by
  exact SessionActivity.setSeatAbsent_seatAbsent _ a now

theorem pauseSession_attends (now : Instant) : Attends now s (s.pauseSession now) := by
  obtain ⟨w, hm⟩ := s.lock.setSeatAbsent_moves true now
  refine .of_handled (.refl now _) ?_ ?_ fun h => by cases h
  · rintro ⟨-, ha, -⟩
    cases (setSeatAbsent_seatAbsent s.lock true now).symm.trans ha
  · intro h
    have hj : (s.lock.setSeatAbsent true now).journal = s.lock.journal ++ w := hm.journal
    exact hj ▸ List.mem_append_left w h

theorem activateSession_attends (r t : Bool) (n now : Instant) : Attends now s (s.activateSession r t n now) := by
  have hs := requestPresent_unseen { s with
    listening := r
    lock := s.lock.setSeatAbsent false n
    output := { s.output with active := true, flipPending := false } } t
  refine .of_restart (congrArg (fun c => (c.restartGuard now).1) hs.consent) fun _ _ => ?_
  exact hs.seatAbsent.trans (setSeatAbsent_seatAbsent s.lock false n)

/-- A judged event attends to the card, if it does not arm it: only an accepted passphrase can show the
session again, and that is journalled. -/
theorem judged_attends {s' : BareMetal} {i : SeatInput} (hl : s'.lock = (s.lock.judge i now).1)
    (hli : s'.listening = s.listening) (hh : Handled now s.consent s'.consent) : Attends now s s' := by
  obtain ⟨w, hm⟩ := s.lock.judge_moves i now
  rw [← hl] at hm
  have hj : s'.lock.journal = s.lock.journal ++ w := hm.journal
  have ha : s'.lock.activity.seatAbsent = s.lock.activity.seatAbsent := by
    obtain h | h := s.lock.judge_activity i now <;> rw [hl, h]
    exact notePhysical_seatAbsent _ now
  have hp : s'.lock.activity.phase = .lit → s.lock.activity.phase = .lit := by
    obtain h | h := s.lock.judge_activity i now <;> rw [hl, h]
    · exact id
    · exact (notePhysical_phase _ now).mp
  refine ⟨hh, ?_, ?_, ?_⟩
  · rintro hno ⟨hlo, hpr, hlit⟩ how
    have hu : s.lock.locked ≠ none := fun hn => hno ⟨hn, ha ▸ hpr, hp hlit⟩
    exact absurd (hj ▸ List.mem_append_right _ (hm.unlocks hlo hu)) how
  · intro hold hne
    exact absurd (hj ▸ List.mem_append_left _ hold) hne
  · intro h h'
    exact ha.trans (h (hli ▸ h'))

/-- An event attends to the card, or it is a press that the lock let through and that armed it. -/
theorem route_attends (paint : Painter) (s : BareMetal) (i : SeatInput) (vt : Bool) (now : Instant) :
    Attends now s (s.route paint i vt now) ∨ ∃ p b ch, i = ⟨.physical, .button b .pressed⟩ ∧ s.listening = true ∧
        (s.lock.judge i now).2 = .deliver ∧ s.consent.grab.prompt = some p ∧
        p.raisedAt + guardInterval ≤ now ∧ (s.route paint i vt now).consent.grab.frame = s.consent.grab.frame ∧
        (s.route paint i vt now).consent.grab.armed = some (b, ch) ∧
        Attends now s { s.route paint i vt now with consent := s.consent } := by
  unfold route
  split_ifs with hou
  · exact .inl (.of_handled (.refl now _) id id fun h => ⟨h, rfl⟩)
  · dsimp only
    cases hga : (s.lock.judge i now).2 with
    | consume => exact .inl (judged_attends rfl rfl (.refl now _))
    | deliver =>
      obtain hh | ⟨p, b, t, ch, hop, hp, hg, hf, ha⟩ :=
        Handled.or_pressed paint (.event i now) (fun _ _ => nofun) (fun _ => nofun)
      · exact .inl (judged_attends rfl rfl hh)
      · obtain ⟨rfl, rfl⟩ : i = ⟨.physical, .button b .pressed⟩ ∧ now = t := by simpa using hop
        have hl : s.listening = true := by simp_all
        exact .inr ⟨p, b, ch, rfl, hl, rfl, hp, hg, hf, ha, judged_attends rfl rfl (.refl now _)⟩

end BareMetal

/-! ### Runs of the session -/

section Run

variable (paint : Painter) (s₀ : BareMetal)

/-- Along the run the panel began to show the session at `t`. -/
def ShownAgain (past : List (Instant × MetalOp)) (t : Instant) : Prop :=
  ∃ before op after, past = before ++ (t, op) :: after ∧ ¬ Showing ((metalStep paint).exec s₀ before) ∧
    Showing ((metalStep paint).exec s₀ (before ++ [(t, op)]))

/-- The button was armed by a press that the human made while the panel showed the session, the guard
interval after it last began to, and has been armed since. -/
def SeenPress (past : List (Instant × MetalOp)) (button : Nat) (choice : Choice) : Prop :=
  ∃ early pressedAt vt held, past = early ++ (pressedAt, .input ⟨.physical, .button button .pressed⟩ vt) :: held ∧
    Showing ((metalStep paint).exec s₀ early) ∧
    (∀ t, ShownAgain paint s₀ early t → t + guardInterval ≤ pressedAt) ∧
    (metalStep paint).Along (fun t _ => t.consent.grab.armed = some (button, choice))
      ((metalStep paint).exec s₀ (early ++ [(pressedAt, .input ⟨.physical, .button button .pressed⟩ vt)])) held

/-- What a run keeps: a raised card's guard is no older than the panel shows the session, unless the journal
owes a restart to an unlock, and what is armed was armed by a press the human could see the card at. -/
structure Watched (past : List (Instant × MetalOp)) (s : BareMetal) : Prop where
  listening : s.listening → s.lock.activity.seatAbsent = false
  guarded : ∀ pr id, s.consent.grab.prompt = some pr → pr.subject = .petition id → .unlocked ∉ s.lock.journal →
    ∀ t, ShownAgain paint s₀ past t → t ≤ pr.raisedAt
  pressed : ∀ pr id, s.consent.grab.prompt = some pr → pr.subject = .petition id →
    ∀ button choice, s.consent.grab.armed = some (button, choice) → SeenPress paint s₀ past button choice

variable {paint s₀} {pa : List (Instant × MetalOp)} {la : Instant × MetalOp}

theorem shownAgain_concat {t : Instant} (h : ShownAgain paint s₀ (pa ++ [la]) t) :
    ShownAgain paint s₀ pa t ∨ t = la.1 ∧ ¬ Showing ((metalStep paint).exec s₀ pa) ∧
      Showing (metalStep paint ((metalStep paint).exec s₀ pa) la).1 := by
  obtain ⟨b, op, a, he, hn, hy⟩ := h
  induction a using List.reverseRecOn with
  | nil =>
    obtain ⟨rfl, hl⟩ := List.append_inj' he rfl
    cases hl
    exact .inr ⟨rfl, hn, exec_concat _ _ _ _ ▸ hy⟩
  | append_singleton a l _ =>
    rw [← List.cons_append, ← List.append_assoc] at he
    obtain ⟨rfl, -⟩ := List.append_inj' he rfl
    exact .inl ⟨b, op, a, rfl, hn, hy⟩

theorem SeenPress.concat {b : Nat} {ch : Choice} (h : SeenPress paint s₀ pa b ch)
    (har : ((metalStep paint).exec s₀ pa).consent.grab.armed = some (b, ch)) :
    SeenPress paint s₀ (pa ++ [la]) b ch := by
  obtain ⟨e, p, vt, held, rfl, hs, hg, ha⟩ := h
  refine ⟨e, p, vt, held ++ [la], by simp, hs, hg, ?_⟩
  refine ((metalStep paint).along_append _ _ held [la]).mpr ⟨ha, ?_, trivial⟩
  rw [← exec_append]
  simpa using har

section

variable (h : Watched paint s₀ pa ((metalStep paint).exec s₀ pa))

include h

variable (hold : ∀ t, ShownAgain paint s₀ pa t → t ≤ la.1)

include hold

theorem Watched.attends
    (hs : Attends la.1 ((metalStep paint).exec s₀ pa)
      (metalStep paint ((metalStep paint).exec s₀ pa) la).1) :
    Watched paint s₀ (pa ++ [la]) (metalStep paint ((metalStep paint).exec s₀ pa) la).1 where
  listening := hs.listening h.listening
  guarded pr id hp hi hj t ht := by
    obtain ht | ⟨rfl, hn, hy⟩ := shownAgain_concat ht
    · by_cases how : .unlocked ∈ ((metalStep paint).exec s₀ pa).lock.journal
      · exact (hs.drained how hj pr hp).symm ▸ hold t ht
      · obtain hnow | ⟨p₀, hp₀, hi₀, hsa⟩ := (hs.handled pr id hp hi).1
        · exact hnow.symm ▸ hold t ht
        · exact hsa ▸ h.guarded p₀ id hp₀ hi₀ how t ht
    · exact (hs.again hn hy hj pr hp).ge
  pressed pr id hp hi button choice ha := by
    obtain hnon | ⟨hsa, p₀, hp₀, hi₀⟩ := (hs.handled pr id hp hi).2
    · rw [hnon] at ha
      cases ha
    · rw [hsa] at ha
      exact (h.pressed p₀ id hp₀ hi₀ button choice ha).concat ha

omit hold in
/-- An event keeps the watch: a press that arms the card was made at a card the human could see. -/
theorem Watched.route {i : SeatInput} {vt : Bool}
    (hold : ∀ t, ShownAgain paint s₀ pa t → t ≤ now) (hti : Timely ((metalStep paint).exec s₀ pa) (now, .input i vt)) :
    Watched paint s₀ (pa ++ [(now, .input i vt)])
      (metalStep paint ((metalStep paint).exec s₀ pa) (now, .input i vt)).1 := by
  obtain hs | ⟨p, bu, ch, rfl, hl, hg, hp, hgu, hfr, ha, hs⟩ :=
    ((metalStep paint).exec s₀ pa).route_attends paint i vt now
  · exact h.attends hold hs
  obtain ⟨he, hj⟩ := hti
  obtain ⟨hd, hli⟩ := LockScreen.judge_press_delivers hg
  have hsh : Showing ((metalStep paint).exec s₀ pa) := ⟨hd, h.listening hl, hli.resolve_right (by simp [he])⟩
  have hr (pr id) (hpr : ((metalStep paint).exec s₀ pa).consent.grab.prompt = some pr)
      (hi : pr.subject = .petition id) := h.guarded pr id hpr hi hj
  refine ⟨hs.listening h.listening, ?_, ?_⟩
  · intro pr id hpr hi _ t ht
    obtain ⟨p₀, hp₀, hf⟩ := ConsentGrab.prompt_of_frame hfr hpr
    have hi₀ : p₀.subject = .petition id := (congrArg Prod.fst hf).symm.trans hi
    obtain ht | ⟨-, hn, -⟩ := shownAgain_concat ht
    · exact (hr p₀ id hp₀ hi₀ t ht).trans_eq (congrArg (·.2.2.1) hf).symm
    · exact absurd hsh hn
  · intro pr id hpr hi b c hb
    obtain ⟨p₀, hp₀, hf⟩ := ConsentGrab.prompt_of_frame hfr hpr
    have hi₀ : p₀.subject = .petition id := (congrArg Prod.fst hf).symm.trans hi
    obtain rfl : p₀ = p := Option.some.inj (hp₀.symm.trans hp)
    obtain ⟨rfl, rfl⟩ : bu = b ∧ ch = c := by simpa using ha.symm.trans hb
    refine ⟨pa, now, vt, [], rfl, hsh, fun t ht => ?_, trivial⟩
    exact (Nat.add_le_add_right (hr p₀ id hp₀ hi₀ t ht) _).trans hgu

/-- **Every step keeps the watch.** -/
theorem watched_step
    (ht : Timely ((metalStep paint).exec s₀ pa) la) :
    Watched paint s₀ (pa ++ [la]) (metalStep paint ((metalStep paint).exec s₀ pa) la).1 := by
  obtain ⟨now, op⟩ := la
  cases op with
  | input inp vt => exact h.route hold ht
  | serviceConsent => exact h.attends hold (.of_handled (.serviceRound paint _ now _) id id fun h => ⟨h, rfl⟩)
  | consent op =>
    obtain ⟨op, hop⟩ := op
    refine h.attends hold (.of_handled (.of_call paint op ?_ ?_ ?_) id id fun h => ⟨h, rfl⟩)
    · cases op <;> first | rfl | cases hop
    · rintro id t rfl
      cases hop
    · rintro t rfl
      cases hop
  | serviceLock held => exact h.attends hold (BareMetal.serviceLock_attends held now)
  | serviceScreen w i ta t' => exact h.attends hold (BareMetal.serviceScreen_attends w i ta t' ht)
  | requestPresent ta =>
    refine h.attends hold (Attends.then_unseen ?_ (BareMetal.requestPresent_unseen _ ta))
    exact .of_handled (.refl now _) id id fun h => ⟨h, rfl⟩
  | vblank ta => exact h.attends hold (BareMetal.onVblank_attends ta now)
  | pause => exact h.attends hold (BareMetal.pauseSession_attends now)
  | activate r ta n => exact h.attends hold (BareMetal.activateSession_attends r ta n now)

end

/-- On a clock that does not go back, every timely run keeps the watch. -/
theorem watched_exec (h₀ : s₀.consent.grab.prompt = none) (hli : s₀.listening → s₀.lock.activity.seatAbsent = false)
    (ops : List (Instant × MetalOp)) (hc : (ops.map (·.1)).Pairwise (· ≤ ·))
    (ht : (metalStep paint).Along Timely s₀ ops) : Watched paint s₀ ops ((metalStep paint).exec s₀ ops) := by
  induction ops using List.reverseRecOn with
  | nil => exact ⟨hli, fun pr _ hp => by simp [h₀] at hp, fun pr _ hp => by simp [h₀] at hp⟩
  | append_singleton pa la ih =>
    rw [List.map_append, List.pairwise_append] at hc
    obtain ⟨hpa, -, hl⟩ := hc
    obtain ⟨htim, hti, -⟩ := ((metalStep paint).along_append _ s₀ pa [la]).mp ht
    rw [exec_concat]
    refine watched_step (ih hpa htim) ?_ hti
    rintro t ⟨b, op, a, rfl, -⟩
    exact hl t (by simp) la.1 (by simp)

end Run

/-! ### Where a decision comes from -/

theorem restartGuard_decisions {c : ConsentSystem} : (c.restartGuard now).1.grab.decisions = c.grab.decisions := by
  unfold ConsentSystem.restartGuard
  split
  · rfl
  · exact (ConsentGrab.onPanel_quiet _ _).decisions

theorem serviceRound_decisions (paint : Painter) (c : ConsentSystem) (now : Instant) (r : Bool) :
    (c.serviceRound paint now r).grab.decisions.length ≤ c.grab.decisions.length := by
  have hr (c : ConsentSystem) := decisions_length_le paint c .retireStale rfl
  have hd : c.retireStale.1.drainDecisions.retireStale.1.grab.decisions.length ≤ c.grab.decisions.length :=
    (hr _).trans (Nat.zero_le _)
  unfold ConsentSystem.serviceRound
  dsimp only
  split_ifs
  · split
    · exact (decisions_length_le paint _ (.raise _ now) rfl).trans hd
    · exact hd
  · exact hd

def Commits (paint : Painter) (s : BareMetal) (label : Instant × MetalOp) (d : Decision) : Prop :=
  (metalStep paint s label).1.consent.grab.decisions = s.consent.grab.decisions ++ [d]

namespace BareMetal

/-- The card is left alone, or its guard starts again. -/
def Leaves (now : Instant) (s s' : BareMetal) : Prop :=
  s'.consent = s.consent ∨ s'.consent = (s.consent.restartGuard now).1

section

variable (s : BareMetal)

theorem serviceLock_leaves (held : Bool) (now : Instant) : Leaves now s (s.serviceLock held now) := by
  unfold serviceLock
  dsimp only
  split_ifs
  · exact .inr rfl
  · exact .inl rfl

theorem noteResume_leaves (w : Nat) (t : Bool) (now : Instant) : Leaves now s (s.noteResume w t now) := by
  unfold noteResume
  split_ifs
  · exact .inr (requestPresent_unseen _ t).consent
  · exact .inl rfl

theorem serviceScreen_leaves (w : Nat) (i t t' : Bool) (now : Instant) :
    Leaves now s (s.serviceScreen w i t t' now) := by
  have hr := s.noteResume_leaves w t now
  unfold serviceScreen
  dsimp only
  split_ifs
  · unfold Leaves
    rw [(requestPresent_unseen _ t').consent]
    exact hr
  · exact hr

theorem onVblank_leaves (t : Bool) (now : Instant) : Leaves now s (s.onVblank t now) := by
  unfold Leaves onVblank
  rw [(servicePresent_unseen _ t).consent]
  unfold serviceScreenPower
  dsimp only
  split_ifs
  · exact .inl rfl
  · exact .inr rfl
  · exact .inl rfl

theorem activateSession_leaves (r t : Bool) (n now : Instant) : Leaves now s (s.activateSession r t n now) :=
  .inr (congrArg (fun c => (c.restartGuard now).1) (requestPresent_unseen _ t).consent)

end

theorem Leaves.decisions {s' : BareMetal} (h : Leaves now s s') :
    s'.consent.grab.decisions.length ≤ s.consent.grab.decisions.length := by
  obtain h | h := h <;> rw [h]
  rw [restartGuard_decisions]

end BareMetal

variable {l : Instant × MetalOp}

theorem metalStep_decisions (paint : Painter) (s : BareMetal) (h : ∀ i vt, l.2 ≠ .input i vt) :
    (metalStep paint s l).1.consent.grab.decisions.length ≤ s.consent.grab.decisions.length := by
  obtain ⟨now, op⟩ := l
  cases op with
  | input i vt => exact absurd rfl (h i vt)
  | serviceConsent => exact serviceRound_decisions paint _ now _
  | consent op =>
    obtain ⟨op, hop⟩ := op
    exact decisions_length_le paint s.consent op (by cases op <;> first | rfl | cases hop)
  | serviceLock held => exact (s.serviceLock_leaves held now).decisions
  | serviceScreen w inh t t' => exact (s.serviceScreen_leaves w inh t t' now).decisions
  | requestPresent t => exact (congrArg (·.grab.decisions.length) (s.requestPresent_unseen t).consent).le
  | vblank t => exact (s.onVblank_leaves t now).decisions
  | pause => exact le_rfl
  | activate r t n => exact (s.activateSession_leaves r t n now).decisions

theorem commits_queues {paint : Painter} {d : Decision} (h : Commits paint s l d) :
    ∃ i vt, l.2 = .input i vt ∧ Queues paint s.consent (.event i l.1) d := by
  obtain ⟨now, op⟩ := l
  have hg : s.consent.grab.decisions.length < (metalStep paint s (now, op)).1.consent.grab.decisions.length := by
    rw [h]
    simp
  by_cases hi : ∃ i vt, op = .input i vt
  · obtain ⟨i, vt, rfl⟩ := hi
    refine ⟨i, vt, rfl, ?_⟩
    unfold Commits at h
    simp only [metalStep, BareMetal.route] at h hg
    split_ifs at h hg
    · exact absurd hg (lt_irrefl _)
    · cases hga : (s.lock.judge i now).2 with
      | consume =>
        rw [hga] at hg
        exact absurd hg (lt_irrefl _)
      | deliver =>
        rw [hga] at h
        exact h
  · refine absurd (metalStep_decisions paint s fun i vt hop => hi ⟨i, vt, hop⟩) (not_le.mpr hg)

/-- **No decision from a screen the human cannot see**, where every wake is in time. On a clock that does
not go back, if no press and no screen round comes upon a wake past its deadline and no press comes between
an unlock and the lock round, then every decision is committed by the release of a button that a press of the
human has kept armed since; and that press was made while the panel showed the session, at least the guard
interval after each time it began to. -/
theorem decision_from_seen_press (paint : Painter) (policy : ConsentPolicy) (config : PetitionConfig) (chord : ModChord)
    (idleAfter blankAfter : Option Duration) (verifier : Option PassphraseFile) (onSeatChange : SeatChangePolicy)
    (start : Instant) (ops : List (Instant × MetalOp)) :
    let lock := (LockScreen.new chord idleAfter verifier (.new blankAfter start)).withSeatChangePolicy onSeatChange
    let s₀ := BareMetal.new lock (.new policy config)
    let s := (metalStep paint).exec s₀ ops
    (ops.map (·.1)).Pairwise (· ≤ ·) → (metalStep paint).Along Timely s₀ ops →
    ∀ l d, Commits paint s l d →
      ∃ b vt, l.2 = .input ⟨.physical, .button b .released⟩ vt ∧
        s.consent.grab.armed = some (b, d.choice) ∧ SeenPress paint s₀ ops b d.choice := by
  intro lock s₀ s hc ht l d hco
  have hw : Watched paint s₀ ops s := watched_exec rfl (fun _ => rfl) ops hc ht
  obtain ⟨i, vt, hl, hq⟩ := commits_queues hco
  obtain ⟨pr, b, now, hop, hp, hi, ha, -⟩ := queues_cases hq
  obtain ⟨rfl, -⟩ : i = ⟨.physical, .button b .released⟩ ∧ l.1 = now := by simpa using hop
  exact ⟨b, vt, hl, ha, hw.pressed pr d.petition hp hi b d.choice ha⟩

/-! ### Presses the human made blind -/

instance (paint : Painter) (s : BareMetal) (label : Instant × MetalOp) (d : Decision) :
    Decidable (Commits paint s label d) := inferInstanceAs (Decidable (_ = _))

namespace MetalSample

open Sample

/-- A session whose panel blanks after five seconds. -/
def session : BareMetal :=
  .new ((LockScreen.new LockSample.chord none (some LockSample.file) (.new (some (secs 5)) 0)).withSeatChangePolicy
    .never) (.new .interactive .default)

def key (keysym : Nat) : MetalOp := .input ⟨.physical, .key .keysym keysym .pressed⟩ false

def press : MetalOp := .input ⟨.physical, .button 272 .pressed⟩ false

def release : MetalOp := .input ⟨.physical, .button 272 .released⟩ false

/-- A petition's card comes up under the pointer. -/
def raised : List (Instant × MetalOp) :=
  [(0, .consent ⟨admits, rfl⟩), (0, .consent ⟨.setView (300, 100), rfl⟩), (0, .serviceConsent),
    (0, .input ⟨.physical, .motion (.finite 10) (.finite 10)⟩ false)]

/-- Then the panel goes dark, and the human presses a key. -/
def woken : List (Instant × MetalOp) :=
  raised ++ [(secs 5, .serviceScreen (secs 5) false true true), (secs 5, .vblank true), (secs 6, key 0x61)]

/-- The panel does not come back, though frames are asked for. -/
def unlit : List (Instant × MetalOp) := woken ++ [(secs 7, .serviceScreen (secs 7) false false false)]

def abandoned : List (Instant × MetalOp) := unlit ++ [(secs 8, .serviceScreen (secs 8) false false false)]

def lit : List (Instant × MetalOp) :=
  woken ++ [(secs 6, .serviceScreen (secs 6) false true true), (secs 6 + millis 100, .vblank false)]

/-- The human locks the session and types the passphrase. -/
def unlocking : List (Instant × MetalOp) :=
  raised ++ [(secs 1, key 0xffe3), (secs 1, key 0xffe9), (secs 1, key 0xffff), (secs 2, .serviceLock false),
    (secs 3, key 0x68), (secs 3, key 0xe9)]

def submitted : List (Instant × MetalOp) := unlocking ++ [(secs 4, key keysymReturn)]

end MetalSample

open MetalSample Sample in
/-- On a panel that came back in time, a press half a second later and its release decide. -/
theorem decision_from_seen_press_lit :
    Commits painter ((metalStep painter).exec session (lit ++ [(secs 7, MetalSample.press)])) (secs 8, release) ⟨1,
      .allow .once⟩ ∧
      ∃ button vt, release = .input ⟨.physical, .button button .released⟩ vt ∧
        ((metalStep painter).exec session (lit ++ [(secs 7, MetalSample.press)])).consent.grab.armed = some (button,
          .allow .once) ∧
        SeenPress painter session (lit ++ [(secs 7, MetalSample.press)]) button (.allow .once) := by
  have hc : Commits painter ((metalStep painter).exec session (lit ++ [(secs 7, MetalSample.press)])) (secs 8, release)
      ⟨1, .allow .once⟩ := by decide
  exact ⟨hc, decision_from_seen_press painter .interactive .default LockSample.chord none (some (secs 5))
    (some LockSample.file) .never 0 (lit ++ [(secs 7, MetalSample.press)]) (by decide) (by decide) (secs 8,
      release) _ hc⟩

open MetalSample Sample in
/-- Blind presses that decide, the card having come up before the panel went dark or the lock came up: one
made while the panel is still waking, two seconds after the key that woke it; one made a millisecond after
a round gave the wake up, on a panel on which no flip has landed; and one made a millisecond after the
passphrase was accepted, before the lock round. -/
theorem unseen_presses_commit : (((metalStep painter).exec session unlit).lock.activity.phase = .waking ∧
        ((metalStep painter).exec session unlit).consent.grab.armed = none ∧
        Commits painter ((metalStep painter).exec session (unlit ++ [(secs 8, MetalSample.press)])) (secs 8, release)
          ⟨1, .allow .once⟩) ∧
      (¬ Showing ((metalStep painter).exec session unlit) ∧ Showing ((metalStep painter).exec session abandoned) ∧
        ((metalStep painter).exec session abandoned).consent.grab.armed = none ∧
        Commits painter ((metalStep painter).exec session (abandoned ++ [(secs 8 + millis 1, MetalSample.press)]))
          (secs 8 + millis 2, release) ⟨1, .allow .once⟩) ∧
      (¬ Showing ((metalStep painter).exec session unlocking) ∧ Showing ((metalStep painter).exec session submitted) ∧
        ((metalStep painter).exec session submitted).consent.grab.armed = none ∧
        Commits painter ((metalStep painter).exec session (submitted ++ [(secs 4 + millis 1, MetalSample.press)]))
          (secs 4 + millis 2, release) ⟨1, .allow .once⟩) := by
  decide

end Vitrin
