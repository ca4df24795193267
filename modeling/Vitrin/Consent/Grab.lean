import Vitrin.Consent.Surface

/-!
# The consent grab

While a card is up the human's input belongs to it. The grab takes every physical
event, turns a press and a release on one button into a decision, a press and a
release on one panel slot into a navigation, and a key into a step of the file
picker; input a principal made passes through it untouched.

`ConsentGrab` is the grab's own state and `ConsentSystem` adds the two stores its
methods are handed: the petition registry, whose flag says that a prompt is shown,
and the surface the card is drawn on. The queues are lists, front first.

`Judged` lists what a judged event can do to the grab, with what has to hold for each:
arm a button or disarm it, queue a decision, a step or a navigation. `judge_judged` says
that it does nothing else, and `judge_emulated` is everything an emulated event can do.
-/

namespace Vitrin

open Lib

/-! ### The picker's keys -/

/-- A move in the picker's list. -/
inductive Motion where
  | up
  | down
  | out
  | into
  | pageUp
  | pageDown
  | first
  | last
  deriving DecidableEq

inductive PickerStep where
  | move (motion : Motion)
  | focusNext
  | focusPrev
  | filter (c : Char)
  | filterBackspace
  | confirm
  deriving DecidableEq

/-- Keysyms from here on are a scalar value plus this. -/
def xkUnicodeBase : Nat := 0x01000000

/-- The character a keysym types, if the picker may draw it. -/
def printable (paint : Painter) (keysym : Nat) : Option Char :=
  let scalar : Option Nat :=
    if (0x20 ≤ keysym ∧ keysym ≤ 0x7e) ∨ (0xa0 ≤ keysym ∧ keysym ≤ 0xff) then some keysym
    else if xkUnicodeBase ≤ keysym then some (keysym - xkUnicodeBase)
    else none
  match scalar with
  | some n => if n.isValidChar ∧ paint.drawsAsItself (Char.ofNat n) then some (Char.ofNat n) else none
  | none => none

/-- What a keysym asks of the picker (`decode`). Escape, the dead-man chord's key, asks nothing. -/
def decodePickerKey (paint : Painter) (keysym : Nat) : Option PickerStep :=
  match keysym with
  | 0xff1b => none
  | 0xff52 => some (.move .up)
  | 0xff54 => some (.move .down)
  | 0xff51 => some (.move .out)
  | 0xff53 => some (.move .into)
  | 0xff55 => some (.move .pageUp)
  | 0xff56 => some (.move .pageDown)
  | 0xff50 => some (.move .first)
  | 0xff57 => some (.move .last)
  | 0xff0d | 0xff8d => some .confirm
  | 0xff09 => some .focusNext
  | 0xfe20 => some .focusPrev
  | 0xff08 => some .filterBackspace
  | _ => (printable paint keysym).map .filter

/-! ### The grab's state -/

/-- How long a fresh card answers to no press. -/
def guardInterval : Duration := millis 500

def maxNavigations : Nat := 64

def maxPickerSteps : Nat := 32

def scrollDetent : Int := 120

inductive Subject where
  | petition (id : PetitionId)
  | designation (id : DesignationId)
  deriving DecidableEq

structure Decision where
  petition : PetitionId
  choice : Choice
  deriving DecidableEq

structure Panel where
  slots : List SlotBox
  hover : Option Nat
  /-- The button, slot and epoch of the press that armed a slot. -/
  pressed : Option (Nat × Nat × BitVec 64)
  epoch : BitVec 64
  /-- Wheel movement short of a detent. -/
  accum : Int

def Panel.new (slots : List SlotBox) : Panel := ⟨slots, none, none, 0, 0⟩

/-- Whether a card can still be answered. -/
inductive Answerable where
  | openCard (buttons : List ChoiceBox) (panel : Option Panel)
  | answered

structure ArmedPrompt where
  subject : Subject
  card : Nat × Nat
  raisedAt : Instant
  deadline : Instant
  answerable : Answerable

/-- What input at a panel asks of whoever fills it. -/
inductive NavigationStep where
  | hover (slot : Option Nat)
  | activate (slot : Nat)
  | scroll (steps : Int)
  deriving DecidableEq

structure Navigation where
  subject : Subject
  step : NavigationStep

structure ConsentGrab where
  prompt : Option ArmedPrompt
  view : Nat × Nat
  pointer : Option (Coord × Coord)
  armed : Option (Nat × Choice)
  decisions : List Decision
  steps : List (DesignationId × PickerStep)
  navigations : List Navigation

variable {p : ArmedPrompt}

namespace ArmedPrompt

def panel? (p : ArmedPrompt) : Option Panel := match p.answerable with
  | .openCard _ panel => panel
  | .answered => none

def buttons? (p : ArmedPrompt) : Option (List ChoiceBox) := match p.answerable with
  | .openCard buttons _ => some buttons
  | .answered => none

def onPanel (p : ArmedPrompt) (f : Panel → Panel) : ArmedPrompt := match p.answerable with
  | .openCard buttons panel => { p with answerable := .openCard buttons (panel.map f) }
  | .answered => p

/-- What a card keeps while it is up: its subject, its size, and its two instants. -/
def frame (p : ArmedPrompt) : Subject × (Nat × Nat) × Instant × Instant :=
  (p.subject, p.card, p.raisedAt, p.deadline)

variable {f : Panel → Panel}

@[simp] theorem onPanel_frame : (p.onPanel f).frame = p.frame := by
  unfold onPanel
  split <;> rfl

@[simp] theorem onPanel_buttons : (p.onPanel f).buttons? = p.buttons? := by
  cases h : p.answerable <;> simp [onPanel, buttons?, h]

end ArmedPrompt

/-- The human pressed a button or let go of one. -/
def SeatInput.humanButton : SeatInput → Bool
  | ⟨.physical, .button _ _⟩ => true
  | _ => false

namespace ConsentGrab

def new : ConsentGrab := ⟨none, (0, 0), none, none, [], [], []⟩

/-- The size of the view, set beside every routed event. -/
def setView (g : ConsentGrab) (view : Nat × Nat) : ConsentGrab := { g with view }

def raised (g : ConsentGrab) : Option Subject := g.prompt.map (·.subject)

def raisedPetition (g : ConsentGrab) : Option PetitionId := match g.raised with
  | some (.petition id) => some id
  | _ => none

def raisedDesignation (g : ConsentGrab) : Option DesignationId := match g.raised with
  | some (.designation id) => some id
  | _ => none

def panel? (g : ConsentGrab) : Option Panel := g.prompt.bind (·.panel?)

def onPanel (g : ConsentGrab) (f : Panel → Panel) : ConsentGrab :=
  { g with prompt := g.prompt.map (·.onPanel f) }

/-! ### Hit-testing -/

def cardPoint (g : ConsentGrab) (card : Nat × Nat) : Option (Int × Int) :=
  match g.pointer with
  | none => none
  | some (px, py) =>
    let origin := centered card.1 card.2 g.view.1 g.view.2
    match cardLocal px origin.1, cardLocal py origin.2 with
    | some cx, some cy => some (cx, cy)
    | _, _ => none

def hitTest (g : ConsentGrab) : Option Choice :=
  match g.prompt with
  | none => none
  | some p => match p.buttons?, g.cardPoint p.card with
    | some buttons, some (cx, cy) => (buttons.find? (·.rect.contains cx cy)).map (·.choice)
    | _, _ => none

def slotHitTest (g : ConsentGrab) : Option Nat :=
  match g.prompt with
  | none => none
  | some p => match p.panel?, g.cardPoint p.card with
    | some panel, some (cx, cy) => (panel.slots.find? (·.rect.contains cx cy)).map (·.index)
    | _, _ => none

/-! ### Navigation -/

/-- Queue a navigation, dropping the oldest of a full queue. -/
def pushNavigation (g : ConsentGrab) (nav : Navigation) : ConsentGrab :=
  { g with navigations :=
      (if maxNavigations ≤ g.navigations.length then g.navigations.drop 1 else g.navigations) ++ [nav] }

/-- Queue a picker step, dropping the oldest of a full queue. -/
def pushStep (g : ConsentGrab) (id : DesignationId) (step : PickerStep) : ConsentGrab :=
  { g with steps := (if maxPickerSteps ≤ g.steps.length then g.steps.drop 1 else g.steps) ++ [(id, step)] }

def armSlot (g : ConsentGrab) (button : Nat) : ConsentGrab :=
  g.onPanel fun panel => { panel with pressed := g.slotHitTest.map fun slot => (button, slot, panel.epoch) }

def disarmSlot (g : ConsentGrab) : ConsentGrab := g.onPanel fun panel => { panel with pressed := none }

def navigateHover (g : ConsentGrab) (subject : Subject) : ConsentGrab :=
  match g.panel? with
  | none => g
  | some panel =>
    if panel.hover = g.slotHitTest then g
    else (g.onPanel fun panel => { panel with hover := g.slotHitTest }).pushNavigation
      ⟨subject, .hover g.slotHitTest⟩

def navigateScroll (g : ConsentGrab) (subject : Subject) (axis : Axis) (value120 : Int) : ConsentGrab :=
  if axis ≠ .vertical then g
  else match g.panel? with
    | none => g
    | some panel =>
      let accum := saturate 31 (panel.accum + value120)
      let steps := accum.tdiv scrollDetent
      if steps = 0 then g.onPanel fun panel => { panel with accum }
      else (g.onPanel fun panel => { panel with accum := accum - steps * scrollDetent }).pushNavigation
        ⟨subject, .scroll (saturate 15 steps)⟩

/-- A release over the panel: the slot its press landed on is activated if the pointer is still there
and the listing has not changed in between. -/
def commitSlot (g : ConsentGrab) (button : Nat) : ConsentGrab :=
  match g.prompt, g.panel? with
  | some p, some panel => match panel.pressed with
    | none => g
    | some (armedButton, armedSlot, armedEpoch) =>
      let released := g.onPanel fun panel => { panel with pressed := none }
      if armedButton ≠ button ∨ g.slotHitTest ≠ some armedSlot then released
      else if armedEpoch ≠ panel.epoch then released
      else released.pushNavigation ⟨p.subject, .activate armedSlot⟩
  | _, _ => g

/-! ### Judging an event -/

/-- Answer the raised card. A picker's card is closed by it and decides nothing. -/
def answer (g : ConsentGrab) (choice : Choice) : ConsentGrab :=
  match g.prompt with
  | none => g
  | some p => match p.answerable with
    | .answered => g
    | .openCard _ _ =>
      { g with
        prompt := some { p with answerable := .answered }
        decisions := match p.subject with
          | .petition petition => g.decisions ++ [⟨petition, choice⟩]
          | .designation _ => g.decisions }

/-- A release: the armed button decides if it is the one released and the pointer is still on its
choice. -/
def commit (g : ConsentGrab) (button : Nat) : ConsentGrab :=
  let g := g.commitSlot button
  match g.armed with
  | none => g
  | some (armedButton, armedChoice) =>
    let g := { g with armed := none }
    if armedButton ≠ button ∨ g.hitTest ≠ some armedChoice then g else g.answer armedChoice

/-- A press: it arms what it lands on, unless the card has only just appeared. -/
def press (g : ConsentGrab) (p : ArmedPrompt) (button : Nat) (now : Instant) : ConsentGrab :=
  if now - p.raisedAt < guardInterval then ({ g with armed := none }).disarmSlot
  else ({ g with armed := g.hitTest.map fun choice => (button, choice) }).armSlot button

/-- A key pressed: a picker past its guard takes it as a step. -/
def pressKey (paint : Painter) (g : ConsentGrab) (p : ArmedPrompt) (keysym : Nat) (now : Instant) : ConsentGrab :=
  match p.subject with
  | .petition _ => g
  | .designation id =>
    if now - p.raisedAt < guardInterval then g
    else match decodePickerKey paint keysym with
      | some step => g.pushStep id step
      | none => g

/-- The human's own event, while a card is up and before its deadline. -/
def judgeRaised (paint : Painter) (g : ConsentGrab) (p : ArmedPrompt) (kind : SeatInputKind) (now : Instant) :
    ConsentGrab × Gate :=
  match kind with
  | .button button .pressed => (g.press p button now, .consume)
  | .button button .released => (g.commit button, .deliver)
  | .key _ _ .released => (g, .deliver)
  | .gestureEnd _ _ => (g, .deliver)
  | .motion _ _ => (g.navigateHover p.subject, .consume)
  | .scroll axis value120 => (g.navigateScroll p.subject axis value120, .consume)
  | .key _ keysym .pressed => (g.pressKey paint p keysym now, .consume)
  | .text _ | .relativeMotion _ _ _ _ | .gestureBegin _ _ | .gestureSwipeUpdate _ _
  | .gesturePinchUpdate _ _ _ _ => (g, .consume)

/-- Follow the human's pointer, card or no card. -/
def track (g : ConsentGrab) (input : SeatInput) : ConsentGrab :=
  match input.origin, input.kind with
  | .physical, .motion x y => { g with pointer := some (x, y) }
  | _, _ => g

/-- Judge an event. Past its deadline a card takes nothing and decides nothing; before it, it takes
the human's events alone. -/
def judge (paint : Painter) (g : ConsentGrab) (input : SeatInput) (now : Instant) : ConsentGrab × Gate :=
  let g := g.track input
  match g.prompt with
  | none => (g, .deliver)
  | some p =>
    if p.deadline ≤ now then ({ g with armed := none }, .deliver)
    else if input.origin ≠ .physical then (g, .deliver)
    else g.judgeRaised paint p input.kind now

/-! ### What a judged event can change -/

def frame (g : ConsentGrab) : Option (Subject × (Nat × Nat) × Instant × Instant) := g.prompt.map (·.frame)

/-- The raised card can no longer be answered. -/
def Answered (g : ConsentGrab) : Prop := ∃ p, g.prompt = some p ∧ p.answerable = .answered

/-- Nothing but the panel and the queues for it changed. -/
structure Quiet (g g' : ConsentGrab) : Prop where
  frame : g'.frame = g.frame
  buttons : g'.prompt.bind (·.buttons?) = g.prompt.bind (·.buttons?)
  pointer : g'.pointer = g.pointer
  view : g'.view = g.view
  armed : g'.armed = g.armed
  decisions : g'.decisions = g.decisions

variable {g : ConsentGrab}

namespace Quiet

theorem refl (g : ConsentGrab) : Quiet g g := ⟨rfl, rfl, rfl, rfl, rfl, rfl⟩

variable {g' : ConsentGrab}

theorem trans {g'' : ConsentGrab} (h₁ : Quiet g g') (h₂ : Quiet g' g'') : Quiet g g'' where
  frame := h₂.frame.trans h₁.frame
  buttons := h₂.buttons.trans h₁.buttons
  pointer := h₂.pointer.trans h₁.pointer
  view := h₂.view.trans h₁.view
  armed := h₂.armed.trans h₁.armed
  decisions := h₂.decisions.trans h₁.decisions

theorem hitTest (h : Quiet g g') : g'.hitTest = g.hitTest := by
  have hf := h.frame
  have hb := h.buttons
  unfold ConsentGrab.frame at hf
  unfold ConsentGrab.hitTest ConsentGrab.cardPoint
  rw [h.pointer, h.view]
  cases hp : g.prompt with
  | none =>
    cases hp' : g'.prompt with
    | none => rfl
    | some p' => simp [hp, hp'] at hf
  | some p =>
    cases hp' : g'.prompt with
    | none => simp [hp, hp'] at hf
    | some p' =>
      simp only [hp, hp', Option.map_some, Option.some.injEq, ArmedPrompt.frame, Prod.mk.injEq] at hf
      simp only [hp, hp', Option.bind_some] at hb
      simp [hb, hf.2.1]

theorem answered (h : Quiet g g') (ha : g.Answered) : g'.Answered := by
  obtain ⟨p, hp, han⟩ := ha
  have hf := h.frame
  have hb := h.buttons
  simp only [ConsentGrab.frame, hp, Option.map_some, Option.map_eq_some_iff] at hf
  obtain ⟨p', hp', -⟩ := hf
  simp only [hp, hp', Option.bind_some, ArmedPrompt.buttons?, han] at hb
  cases ha' : p'.answerable with
  | answered => exact ⟨p', hp', ha'⟩
  | openCard b pa => simp [ha'] at hb

end Quiet

theorem onPanel_quiet (g : ConsentGrab) (f : Panel → Panel) : Quiet g (g.onPanel f) := by
  refine ⟨?_, ?_, rfl, rfl, rfl, rfl⟩ <;> cases h : g.prompt <;> simp [onPanel, frame, h]

variable {g : ConsentGrab}

theorem pushNavigation_quiet {n : Navigation} : Quiet g (g.pushNavigation n) := ⟨rfl, rfl, rfl, rfl, rfl, rfl⟩

theorem navigateHover_quiet {s : Subject} : Quiet g (g.navigateHover s) := by
  unfold navigateHover
  cases g.panel? with
  | none => exact .refl g
  | some pa =>
    dsimp only
    split_ifs
    · exact .refl g
    · exact (g.onPanel_quiet _).trans pushNavigation_quiet

theorem navigateScroll_quiet {s : Subject} {a : Axis} {v120 : Int} : Quiet g (g.navigateScroll s a v120) := by
  unfold navigateScroll
  split_ifs
  · exact .refl g
  cases g.panel? with
  | none => exact .refl g
  | some pa =>
    dsimp only
    split_ifs
    · exact g.onPanel_quiet _
    · exact (g.onPanel_quiet _).trans pushNavigation_quiet

theorem commitSlot_quiet (g : ConsentGrab) (b : Nat) : Quiet g (g.commitSlot b) := by
  unfold commitSlot
  split
  · split
    · exact .refl g
    · dsimp only
      split_ifs
      · exact g.onPanel_quiet _
      · exact g.onPanel_quiet _
      · exact (g.onPanel_quiet _).trans pushNavigation_quiet
  · exact .refl g

theorem pressKey_quiet {pa : Painter} {k : Nat} {now : Instant} : Quiet g (g.pressKey pa p k now) := by
  unfold pressKey
  split
  · exact .refl g
  · split_ifs
    · exact .refl g
    · split
      · exact ⟨rfl, rfl, rfl, rfl, rfl, rfl⟩
      · exact .refl g

/-- What a judged event can do: nothing a decision depends on; disarm; arm the button its press landed
on; decide, with the release of an armed button; or close a picker's card without deciding. Nothing
stays armed under a button event of the human's. -/
inductive Judged (g : ConsentGrab) (input : SeatInput) (now : Instant) (g' : ConsentGrab) : Prop
  | quiet (h : Quiet (g.track input) g') (still : input.humanButton = true → g.prompt = none ∨ g.armed = none)
  | disarmed (h : Quiet { g.track input with armed := none } g')
  | armed (p : ArmedPrompt) (button : Nat) (up : g.prompt = some p)
      (pressed : input = ⟨.physical, .button button .pressed⟩) (guarded : guardInterval ≤ now - p.raisedAt)
      (alive : now < p.deadline) (h : Quiet { g with armed := g.hitTest.map fun choice => (button, choice) } g')
  | decided (p : ArmedPrompt) (button : Nat) (choice : Choice) (up : g.prompt = some p)
      (released : input = ⟨.physical, .button button .released⟩) (alive : now < p.deadline)
      (held : g.armed = some (button, choice)) (hit : g.hitTest = some choice) (unanswered : ¬ g.Answered)
      (frame : g'.frame = g.frame) (closed : g'.Answered) (disarms : g'.armed = none)
      (queues : g'.decisions = match p.subject with
        | .petition petition => g.decisions ++ [⟨petition, choice⟩]
        | .designation _ => g.decisions)

theorem hitTest_eq_some {c : Choice} (h : g.hitTest = some c) :
    ∃ p b pa, g.prompt = some p ∧ p.answerable = .openCard b pa := by
  unfold hitTest at h
  cases hp : g.prompt with
  | none => simp [hp] at h
  | some p =>
    cases ha : p.answerable with
    | openCard b pa => exact ⟨p, b, pa, rfl, ha⟩
    | answered => simp [hp, ArmedPrompt.buttons?, ha] at h

variable {p : ArmedPrompt} {now : Instant}

theorem commit_judged (up : g.prompt = some p) (hal : now < p.deadline) (bu : Nat) :
    Judged g ⟨.physical, .button bu .released⟩ now (g.commit bu) := by
  have hq := g.commitSlot_quiet bu
  unfold commit
  dsimp only
  split
  · rename_i har
    exact .quiet hq fun _ => .inr (hq.armed ▸ har)
  · rename_i a ac har
    have hd : Quiet { g with armed := none } { g.commitSlot bu with armed := none } := { hq with armed := rfl }
    split_ifs with hm
    · exact .disarmed hd
    · obtain ⟨rfl, hh⟩ : a = bu ∧ _ := by simpa using hm
      obtain ⟨p', but, pa, hp', ha⟩ := hitTest_eq_some hh
      have hh' : g.hitTest = some ac := hd.hitTest.symm.trans hh
      have hf : p'.frame = p.frame := by
        have := hq.frame
        simpa [ConsentGrab.frame, up, show (g.commitSlot a).prompt = some p' from hp'] using this
      have hs : p'.subject = p.subject := congrArg Prod.fst hf
      unfold answer
      simp only [show (g.commitSlot a).prompt = some p' from hp', ha]
      refine .decided p a ac up rfl hal (hq.armed ▸ har) hh' ?_ ?_ ⟨_, rfl, rfl⟩ rfl ?_
      · rintro ⟨q, hq', han⟩
        obtain ⟨q₂, b, pn, hq₂, hop⟩ := hitTest_eq_some hh'
        cases hq'.symm.trans hq₂
        exact Answerable.noConfusion (han.symm.trans hop)
      · simpa [ConsentGrab.frame, up, ArmedPrompt.frame] using hf
      · simp [hs, hq.decisions]

theorem press_judged (up : g.prompt = some p) (ha : now < p.deadline) (b : Nat) :
    Judged g ⟨.physical, .button b .pressed⟩ now (g.press p b now) := by
  unfold press
  split_ifs with hg
  · exact .disarmed (onPanel_quiet _ _)
  · exact .armed p b up rfl (not_lt.mp hg) ha (onPanel_quiet _ _)

@[simp] theorem track_prompt (g : ConsentGrab) (i : SeatInput) : (g.track i).prompt = g.prompt := by
  unfold track
  split <;> rfl

theorem judgeRaised_judged (pa : Painter) (up : g.prompt = some p) (ha : now < p.deadline) (k : SeatInputKind) :
    Judged g ⟨.physical, k⟩ now ((g.track ⟨.physical, k⟩).judgeRaised pa p k now).1 := by
  cases k with
  | button b s =>
    cases s with
    | pressed => exact press_judged up ha b
    | released => exact commit_judged up ha b
  | key so ke s =>
    cases s with
    | pressed => exact .quiet pressKey_quiet nofun
    | released => exact .quiet (.refl _) nofun
  | motion x y => exact .quiet navigateHover_quiet nofun
  | scroll ax v120 => exact .quiet navigateScroll_quiet nofun
  | text _ | relativeMotion _ _ _ _ | gestureBegin _ _ | gestureSwipeUpdate _ _ | gesturePinchUpdate _ _ _ _
  | gestureEnd _ _ => exact .quiet (.refl _) nofun

/-- **What an event can do.** -/
theorem judge_judged (pa : Painter) (g : ConsentGrab) (i : SeatInput) (now : Instant) :
    Judged g i now (g.judge pa i now).1 := by
  unfold judge
  dsimp only
  split
  · rename_i hp
    exact .quiet (.refl _) fun _ => .inl (g.track_prompt i ▸ hp)
  · rename_i p hp
    have up : g.prompt = some p := g.track_prompt i ▸ hp
    split_ifs with hd hor
    · exact .disarmed (.refl _)
    · refine .quiet (.refl _) fun hb => absurd ?_ hor
      obtain ⟨_ | _, _⟩ := i <;> first | rfl | cases hb
    · obtain ⟨o, k⟩ := i
      obtain rfl : o = .physical := not_not.mp hor
      exact judgeRaised_judged pa up (not_le.mp hd) k

end ConsentGrab

/-! ### The grab with its two stores -/

/-- The grab, the registry whose petitions it shows, and the surface it shows them on. -/
structure ConsentSystem where
  grab : ConsentGrab
  petitions : PetitionRegistry
  surface : ConsentSurface

namespace ConsentSystem

def new (policy : ConsentPolicy) (config : PetitionConfig) : ConsentSystem :=
  ⟨.new, .new policy config, .new⟩

/-- Take the raised card down, and with it what was queued for it. -/
def lower (s : ConsentSystem) : ConsentSystem :=
  match s.grab.prompt with
  | none => { s with surface := s.surface.dismiss, grab := { s.grab with armed := none } }
  | some p => match p.subject with
    | .petition petition =>
      { surface := s.surface.dismiss
        petitions := (s.petitions.markPromptHidden petition).1
        grab := { s.grab with
          prompt := none
          armed := none
          decisions := s.grab.decisions.filter fun d => d.petition ≠ petition } }
    | .designation id =>
      { s with
        surface := s.surface.dismiss
        grab := { s.grab with prompt := none, armed := none, steps := s.grab.steps.filter fun x => x.1 ≠ id } }

/-- A petition's card as it is first raised. -/
def freshPrompt (petition : PetitionId) (card : Card) (deadline now : Instant) : ArmedPrompt where
  subject := .petition petition
  card := (card.width, card.height)
  raisedAt := now
  deadline
  answerable := .openCard card.buttons (card.panel.map .new)

/-- Put a petition's card up, with nothing raised. -/
def putUp (paint : Painter) (s : ConsentSystem) (petition : PetitionId) (now : Instant) :
    ConsentSystem × Option PromptRoute :=
  match s.petitions.promptContent petition, s.petitions.pendingRoute petition,
    s.petitions.pendingDeadline petition with
  | some content, some route, some deadline =>
    match (s.surface.showPrompt content).card paint with
    | (surface, none) => ({ s with surface := surface.dismiss }, none)
    | (surface, some card) =>
      match s.petitions.markPromptShown petition with
      | (petitions, false) => ({ s with petitions, surface := surface.dismiss }, none)
      | (petitions, true) =>
        ({ surface
           petitions
           grab := { s.grab with prompt := some (freshPrompt petition card deadline now), armed := none } },
          some route)
  | _, _, _ => (s, none)

theorem putUp_cases (pa : Painter) (s : ConsentSystem) (pe : PetitionId) (now : Instant) :
    s.petitions.pending.get? pe = none ∧ s.putUp pa pe now = (s, none) ∨
    ∃ p c, s.petitions.pending.get? pe = some p ∧ ((s.surface.showPrompt p.promptContent).card pa).2 = some c ∧
      s.putUp pa pe now =
        ({ grab := { s.grab with prompt := some (freshPrompt pe c p.deadline now), armed := none }
           petitions := s.petitions.setShown pe true
           surface := ((s.surface.showPrompt p.promptContent).card pa).1 },
          some ⟨p.connection, p.consentWireId⟩) := by
  cases hp : s.petitions.pending.get? pe with
  | none => exact .inl ⟨rfl, by simp [putUp, PetitionRegistry.promptContent, hp]⟩
  | some p =>
    obtain ⟨c, hc⟩ := ConsentSurface.card_isSome pa (s.surface.showPrompt_up p.promptContent)
    refine .inr ⟨p, c, rfl, hc, ?_⟩
    have hpa : (s.surface.showPrompt p.promptContent).card pa = (_, some c) := Prod.ext rfl hc
    simp only [putUp, PetitionRegistry.promptContent, PetitionRegistry.pendingRoute,
      PetitionRegistry.pendingDeadline, hp, Option.map_some, PetitionRegistry.markPromptShown, Option.isSome_some]
    rw [hpa]

/-- Raise a petition's card. A raised picker or another petition's live card is not replaced, a stale
card is lowered first, and raising the same petition again touches nothing. -/
def raise (paint : Painter) (s : ConsentSystem) (petition : PetitionId) (now : Instant) :
    ConsentSystem × Option PromptRoute :=
  match s.grab.raised with
  | some (.designation _) => (s, none)
  | some (.petition current) =>
    if (s.petitions.pendingRoute current).isNone then s.lower.putUp paint petition now
    else if current ≠ petition then (s, none)
    else (s, s.petitions.pendingRoute petition)
  | none => s.putUp paint petition now

/-- Lower a card whose petition is no longer pending. -/
def retireStale (s : ConsentSystem) : ConsentSystem × Bool :=
  match s.grab.raisedPetition with
  | none => (s, false)
  | some current => if (s.petitions.pendingRoute current).isSome then (s, false) else (s.lower, true)

/-- The card reappeared before the human: start its guard again. -/
def restartGuard (s : ConsentSystem) (now : Instant) : ConsentSystem × Bool :=
  match s.grab.prompt with
  | none => (s, false)
  | some p =>
    ({ s with grab := ({ s.grab with prompt := some { p with raisedAt := now }, armed := none }).disarmSlot }, true)

def raisePicker (s : ConsentSystem) (designation : DesignationId) (deadline now : Instant) : ConsentSystem × Bool :=
  match s.grab.raised with
  | some _ => (s, false)
  | none =>
    ({ s with grab := { s.grab with
        prompt := some
          { subject := .designation designation
            card := (0, 0)
            raisedAt := now
            deadline
            answerable := .openCard [] none }
        armed := none } }, true)

/-- Draw the raised picker's card. -/
def showPicker (s : ConsentSystem) (content : PickerContent) : ConsentSystem × Bool :=
  match s.grab.raisedDesignation with
  | none => (s, false)
  | some _ => ({ s with surface := (s.surface.showPicker content).1 }, (s.surface.showPicker content).2)

def lowerPicker (s : ConsentSystem) : ConsentSystem :=
  match s.grab.raisedDesignation with
  | none => s
  | some id =>
    { s with
      surface := s.surface.dismiss
      grab := { s.grab with prompt := none, armed := none, steps := s.grab.steps.filter fun x => x.1 ≠ id } }

/-- Redraw the raised card's panel, and take its geometry over if the card kept its size. -/
def refreshPanel (paint : Painter) (s : ConsentSystem) (content : PanelContent) : ConsentSystem × PanelApplied :=
  match s.grab.panel? with
  | none => (s, .unchanged)
  | some _ => match s.surface.redraw paint content (s.grab.prompt.map (·.card)) with
    | (surface, .error applied) => ({ s with surface }, applied)
    | (surface, .ok slots) =>
      ({ s with
          surface
          grab := s.grab.onPanel fun panel => { panel with slots, epoch := panel.epoch + 1 } }, .redrawn)

end ConsentSystem

end Vitrin
