import Vitrin.Consent.Shown

/-!
# Who answers a prompt

A principal's own input reaches the same seat as the human's, so the grab must not
let it weigh on a decision. Two things make that precise. Deleting every emulated
event from a run changes nothing the human's side can see; and a decision that is
queued has behind it the human's press and release of one button on the decided
choice, on a card that had been up for the guard interval and was not past its
deadline.

The runs are those of `consentStep`: any calls on the grab, at any instants.

`agent_cannot_answer` states all of it. An emulated event is not without any trace:
one that arrives while a card is up past its deadline disarms the card
(`emulated_event_disarms`), which on a clock that does not go back is the only
difference there can be, and decides nothing.
-/

namespace Vitrin

open Lib ConsentSystem ConsentGrab

/-! ### Deleting emulated events -/

variable {op : ConsentOp}

namespace ConsentOp

def emulated : ConsentOp → Bool
  | event input _ => input.origin = .emulated
  | _ => false

/-- The call is not a principal's own input. -/
def kept (op : ConsentOp) : Bool := !op.emulated

def eventTime : ConsentOp → Option Instant
  | event _ now => some now
  | _ => none

end ConsentOp

namespace ConsentSystem

def rearm (s : ConsentSystem) (armed : Option (Nat × Choice)) : ConsentSystem :=
  { s with grab := { s.grab with armed } }

variable (s : ConsentSystem) (a : Option (Nat × Choice))

@[simp] theorem rearm_lower : (s.rearm a).lower = s.lower := rfl

end ConsentSystem

/-- A card is up whose deadline is not after `clock`. -/
def ConsentSystem.PastDeadline (s : ConsentSystem) (clock : Instant) : Prop :=
  ∃ p, s.grab.prompt = some p ∧ p.deadline ≤ clock

variable {s : ConsentSystem}

theorem ConsentSystem.PastDeadline.mono {t t' : Instant} (h : s.PastDeadline t) (hl : t ≤ t') : s.PastDeadline t' := by
  obtain ⟨p, hp, hd⟩ := h
  exact ⟨p, hp, hd.trans hl⟩

/-- The instant from which a card's guard counts: when it was raised, or its guard last restarted. -/
def latestGuard (raisedAt : Instant) (ops : List ConsentOp) : Instant :=
  ops.foldl (fun t op => match op with
    | .restartGuard now => now
    | _ => t) raisedAt

/-- The call is a button event of the human's. -/
def ConsentOp.humanButton : ConsentOp → Bool
  | .event input _ => input.humanButton
  | _ => false

/-- What a call can do to a petition's card and its armed button. -/
inductive CardStep (s : ConsentSystem) (op : ConsentOp) (s' : ConsentSystem) : Prop
  | gone (h : s'.grab.raisedPetition = none)
  | raised (id : PetitionId) (now : Instant) (p : PendingPetition) (card : Card) (call : op = .raise id now)
      (fresh : s.grab.raisedPetition ≠ some id) (pending : s.petitions.pending.get? id = some p)
      (prompt : s'.grab.prompt = some (ConsentSystem.freshPrompt id card p.deadline now)) (armed : s'.grab.armed = none)
  | restarted (now : Instant) (p p' : ArmedPrompt) (call : op = .restartGuard now) (before : s.grab.prompt = some p)
      (after : s'.grab.prompt = some p') (frame : p'.frame = { p with raisedAt := now }.frame)
      (armed : s'.grab.armed = none) (closed : s.grab.Answered → s'.grab.Answered)
  | pressed (p : ArmedPrompt) (button : Nat) (now : Instant) (choice : Choice)
      (call : op = .event ⟨.physical, .button button .pressed⟩ now) (up : s.grab.prompt = some p)
      (hit : s.grab.hitTest = some choice) (guarded : p.raisedAt + guardInterval ≤ now)
      (frame : s'.grab.frame = s.grab.frame) (armed : s'.grab.armed = some (button, choice))
      (closed : s.grab.Answered → s'.grab.Answered)
  | kept (call : ∀ now, op ≠ .restartGuard now) (frame : s'.grab.frame = s.grab.frame)
      (armed : s'.grab.armed = none ∨ s'.grab.armed = s.grab.armed) (closed : s.grab.Answered → s'.grab.Answered)
      (still : op.humanButton = true → s.grab.prompt = none ∨ s'.grab.armed = none)

/-- A call that is no event and does not restart the guard lets a card and its armed button be. -/
theorem CardStep.calm {op : ConsentOp} {s s' : ConsentSystem} (hop : ∀ now, op ≠ .restartGuard now)
    (hno : op.humanButton = false) (hf : s'.grab.frame = s.grab.frame) (ha : s'.grab.armed = s.grab.armed)
    (hc : s.grab.Answered → s'.grab.Answered) : CardStep s op s' :=
  .kept hop hf (.inr ha) hc fun h => absurd (hno.symm.trans h) Bool.false_ne_true

theorem ConsentGrab.raisedPetition_of_none {g : ConsentGrab} (h : g.prompt = none) : g.raisedPetition = none := by
  simp [raisedPetition, raised, h]

theorem judge_cardStep (paint : Painter) (s : ConsentSystem) (i : SeatInput) (now : Instant) :
    CardStep s (.event i now) (consentStep paint s (.event i now)).1 := by
  have hj := s.grab.judge_judged paint i now
  have hf := hj.frame_eq
  have ht : (s.grab.track i).armed = s.grab.armed := by
    unfold track
    split <;> rfl
  have han : s.grab.Answered → (s.grab.track i).Answered := fun ⟨p, hp, ha⟩ =>
    ⟨p, (s.grab.track_prompt i).trans hp, ha⟩
  cases hj with
  | quiet h still =>
    have har := h.armed.trans ht
    exact .kept (fun _ => nofun) hf (.inr har) (fun ha => h.answered (han ha)) fun hb => (still hb).imp_right har.trans
  | disarmed h =>
    exact .kept (fun _ => nofun) hf (.inl h.armed) (fun ha => h.answered (han ha)) fun _ => .inr h.armed
  | decided p b c up r al held hit u f cl d =>
    exact .kept (fun _ => nofun) hf (.inl d) (fun _ => cl) fun _ => .inr d
  | armed p b up pr g al h =>
    have har := h.armed
    cases hh : s.grab.hitTest with
    | none =>
      rw [hh] at har
      exact .kept (fun _ => nofun) hf (.inl har) h.answered fun _ => .inr har
    | some c =>
      rw [hh] at har
      refine .pressed p b now c (by rw [pr]) up hh ?_ hf har h.answered
      have hpo : 0 < guardInterval := by decide
      exact (Nat.le_sub_iff_add_le' (by lia)).mp g

variable {id : PetitionId} {p : PendingPetition}

/-- Lowering a card takes no petition out of the registry and changes nothing but its flag. -/
theorem ConsentSystem.lower_pending (h : s.lower.petitions.pending.get? id = some p) :
    ∃ p₀, s.petitions.pending.get? id = some p₀ ∧ p.deadline = p₀.deadline := by
  have he : s.petitions.Evolves s.lower.petitions ∧ s.lower.petitions.nextPetitionId = s.petitions.nextPetitionId := by
    unfold lower
    cases s.grab.prompt with
    | none => exact ⟨.refl _, rfl⟩
    | some q =>
      cases hs : q.subject with
      | designation d => simpa [hs] using PetitionRegistry.Evolves.refl s.petitions
      | petition c =>
        simp only [hs]
        exact ⟨s.petitions.setShown_evolves c false, rfl⟩
  obtain ⟨p₀, hp₀, hsa⟩ := he.1.pending id p h (he.2 ▸ s.lower.petitions.minted id p h)
  exact ⟨p₀, hp₀, hsa.deadline⟩

theorem raise_cardStep (paint : Painter) (s : ConsentSystem) (pe : PetitionId) (now : Instant) :
    CardStep s (.raise pe now) (s.raise paint pe now).1 := by
  unfold ConsentSystem.raise
  cases hr : s.grab.raised with
  | none =>
    have hn : s.grab.raisedPetition = none := by simp [raisedPetition, hr]
    rcases s.putUp_cases paint pe now with ⟨-, he⟩ | ⟨p, c, hp, -, he⟩
    · exact .gone (by simpa [he] using hn)
    · exact .raised pe now p c rfl (by simp [hn]) hp (by simp [he]) (by simp [he])
  | some su =>
    cases su with
    | designation d => exact .calm (fun _ h => by cases h) rfl rfl rfl id
    | petition cu =>
      dsimp only
      split_ifs with hs
      · rcases s.lower.putUp_cases paint pe now with ⟨-, he⟩ | ⟨p, c, hp, -, he⟩
        · exact .gone (by simpa [he] using raisedPetition_of_none s.lower_prompt)
        · obtain ⟨p₀, hp₀, hd⟩ := lower_pending hp
          refine .raised pe now p₀ c rfl (fun hu => ?_) hp₀ (by simp [he, hd]) (by simp [he])
          -- The card that was up is stale, and this petition is pending.
          obtain rfl : cu = pe := by simpa [raisedPetition, hr] using hu
          simp [PetitionRegistry.pendingRoute, hp₀] at hs
      · exact .calm (fun _ h => by cases h) rfl rfl rfl id
      · exact .calm (fun _ h => by cases h) rfl rfl rfl id

/-- **What a call can do to a petition's card.** -/
theorem consentStep_cardStep (paint : Painter) (s : ConsentSystem) (op : ConsentOp) :
    CardStep s op (consentStep paint s op).1 := by
  cases op with
  | event i now => exact judge_cardStep paint s i now
  | setView | takeDecision | takeStep | takeNavigation | registry =>
    exact .calm (fun _ h => by cases h) rfl rfl rfl id
  | raise pe now => exact raise_cardStep paint s pe now
  | lower => exact .gone (raisedPetition_of_none s.lower_prompt)
  | retireStale =>
    simp only [consentStep, retireStale]
    split
    · exact .calm (fun _ h => by cases h) rfl rfl rfl id
    · split_ifs
      · exact .calm (fun _ h => by cases h) rfl rfl rfl id
      · exact .gone (raisedPetition_of_none s.lower_prompt)
  | restartGuard now =>
    simp only [consentStep, restartGuard]
    split
    · rename_i hp
      exact .gone (raisedPetition_of_none hp)
    · rename_i p hp
      refine .restarted now p _ rfl hp rfl ArmedPrompt.onPanel_frame rfl ?_
      rintro ⟨q, hq, ha⟩
      cases hp.symm.trans hq
      exact (onPanel_quiet _ _).answered ⟨_, rfl, ha⟩
  | raisePicker id d now =>
    simp only [consentStep, raisePicker]
    split
    · exact .calm (fun _ h => by cases h) rfl rfl rfl fun ha => ha
    · exact .gone rfl
  | showPicker c =>
    simp only [consentStep, showPicker]
    split <;> exact .calm (fun _ h => by cases h) rfl rfl rfl id
  | lowerPicker =>
    simp only [consentStep, lowerPicker]
    split
    · exact .calm (fun _ h => by cases h) rfl rfl rfl id
    · exact .gone rfl
  | refreshPanel c =>
    simp only [consentStep, refreshPanel]
    split
    · exact .calm (fun _ h => by cases h) rfl rfl rfl id
    · split
      · exact .calm (fun _ h => by cases h) rfl rfl rfl id
      · exact .calm (fun _ h => by cases h) rfl (s.grab.onPanel_quiet _).frame rfl (s.grab.onPanel_quiet _).answered

/-- The call queues this decision and no other. -/
def Queues (paint : Painter) (s : ConsentSystem) (op : ConsentOp) (d : Decision) : Prop :=
  (consentStep paint s op).1.grab.decisions = s.grab.decisions ++ [d]

theorem decisions_length_le (paint : Painter) (s : ConsentSystem) (op : ConsentOp) (hop : op.eventTime = none) :
    (consentStep paint s op).1.grab.decisions.length ≤ s.grab.decisions.length := by
  have hl : s.lower.grab.decisions.length ≤ s.grab.decisions.length := by
    unfold lower
    cases s.grab.prompt with
    | none => exact le_rfl
    | some p =>
      cases hs : p.subject with
      | designation d => simp [hs]
      | petition id => simpa [hs] using List.length_filter_le _ _
  have hp : ∀ (t : ConsentSystem) id now, (t.putUp paint id now).1.grab.decisions = t.grab.decisions := by
    intro t id now
    rcases t.putUp_cases paint id now with ⟨-, he⟩ | ⟨p, ca, -, -, he⟩ <;> rw [he]
  cases op with
  | event i now => cases hop
  | raise pe now =>
    simp only [consentStep, ConsentSystem.raise]
    split
    · exact le_rfl
    · split_ifs
      · rw [hp]
        exact hl
      · exact le_rfl
      · exact le_rfl
    · rw [hp]
  | lower => exact hl
  | retireStale =>
    simp only [consentStep, retireStale]
    split
    · exact le_rfl
    · split_ifs
      · exact le_rfl
      · exact hl
  | restartGuard now =>
    simp only [consentStep, restartGuard]
    split <;> exact le_rfl
  | raisePicker id de now =>
    simp only [consentStep, raisePicker]
    split <;> exact le_rfl
  | showPicker c =>
    simp only [consentStep, showPicker]
    split <;> exact le_rfl
  | lowerPicker =>
    simp only [consentStep, lowerPicker]
    split <;> exact le_rfl
  | refreshPanel c =>
    simp only [consentStep, refreshPanel]
    split
    · exact le_rfl
    · split <;> exact le_rfl
  | takeDecision => simp [consentStep]
  | setView _ | takeStep | takeNavigation | registry _ => exact le_rfl

/-- **What queues a decision**: the human's release of the armed button on the armed choice, before the
deadline of a petition's card that has not been answered. -/
theorem queues_cases {paint : Painter} {d : Decision} (h : Queues paint s op d) :
    ∃ p b now, op = .event ⟨.physical, .button b .released⟩ now ∧ s.grab.prompt = some p ∧
      p.subject = .petition d.petition ∧ s.grab.armed = some (b, d.choice) ∧
      s.grab.hitTest = some d.choice ∧ now < p.deadline ∧ ¬ s.grab.Answered ∧
      (consentStep paint s op).1.grab.Answered ∧ (consentStep paint s op).1.grab.frame = s.grab.frame := by
  have hg : s.grab.decisions.length < (consentStep paint s op).1.grab.decisions.length := by
    rw [h]
    simp
  cases ht : op.eventTime with
  | none => exact absurd (decisions_length_le paint s op ht) (not_le.mpr hg)
  | some now =>
    obtain ⟨i, rfl⟩ : ∃ i, op = .event i now := by
      cases op <;> simp [ConsentOp.eventTime] at ht
      exact ⟨_, by rw [ht]⟩
    have htr : (s.grab.track i).decisions = s.grab.decisions := by
      unfold track
      split <;> rfl
    cases s.grab.judge_judged paint i now with
    | quiet hq | disarmed hq => exact absurd (hq.decisions.trans htr) (fun he => by simp [consentStep, he] at hg)
    | armed p b up pr g al hq => exact absurd hq.decisions (fun he => by simp [consentStep, he] at hg)
    | decided p b c up r al held hit u f cl di q =>
      cases hs : p.subject with
      | designation id =>
        rw [hs] at q
        exact absurd q (fun he => by simp [consentStep, he] at hg)
      | petition id =>
        rw [hs] at q
        obtain rfl : d = ⟨id, c⟩ := by simpa using (h.symm.trans q)
        exact ⟨p, b, now, by rw [r], up, hs, held, hit, al, u, cl, f⟩

/-! ### The past of a card -/

section Past

variable (paint : Painter) (s : ConsentSystem)

/-- After `before`, the call put a pending petition's card up, and it has stayed up through `up`. -/
structure UpSince (before : List ConsentOp) (id : PetitionId) (raisedAt : Instant) (up : List ConsentOp)
    (p : PendingPetition) : Prop where
  fresh : ((consentStep paint).exec s before).grab.raisedPetition ≠ some id
  pending : ((consentStep paint).exec s before).petitions.pending.get? id = some p
  stays : (consentStep paint).Along (fun t _ => t.grab.raisedPetition = some id)
    ((consentStep paint).exec s (before ++ [.raise id raisedAt])) up

/-- While the card was up the human pressed the button on the choice, a guard interval after the card's
latest raise or restart. Since then the guard was not restarted, and the human touched no button. -/
def PressedIn (raise : List ConsentOp) (raisedAt : Instant) (up : List ConsentOp) (button : Nat) (choice : Choice) :
    Prop :=
  ∃ early pressedAt held, up = early ++ .event ⟨.physical, .button button .pressed⟩ pressedAt :: held ∧
    ((consentStep paint).exec s (raise ++ early)).grab.hitTest = some choice ∧
    latestGuard raisedAt early + guardInterval ≤ pressedAt ∧
    ∀ op ∈ held, op.humanButton = false ∧ ∀ now, op ≠ .restartGuard now

/-- The petition's card was up already before the calls, and never went down. -/
def UpThroughout (id : PetitionId) (past : List ConsentOp) : Prop :=
  (consentStep paint).Along (fun t _ => t.grab.raisedPetition = some id) s past

/-- Where the raised petition's card, its instants and its armed button come from, unless it was up from the start. -/
def Traced (past : List ConsentOp) (t : ConsentSystem) : Prop :=
  ∀ pr id, t.grab.prompt = some pr → pr.subject = .petition id → ¬ UpThroughout paint s id past →
    ∃ before raisedAt up p, past = before ++ .raise id raisedAt :: up ∧ UpSince paint s before id raisedAt up p ∧
      pr.deadline = p.deadline ∧ pr.raisedAt = latestGuard raisedAt up ∧
      ∀ button choice, t.grab.armed = some (button, choice) →
        PressedIn paint s (before ++ [.raise id raisedAt]) raisedAt up button choice

variable {paint s} {ra : Instant}

theorem latestGuard_concat {up : List ConsentOp} (hop : ∀ now, op ≠ .restartGuard now) :
    latestGuard ra (up ++ [op]) = latestGuard ra up := by
  rw [latestGuard, List.foldl_append]
  cases op with
  | restartGuard now => exact absurd rfl (hop now)
  | _ => rfl

theorem UpSince.concat {b up : List ConsentOp} (h : UpSince paint s b id ra up p)
    (hu : ((consentStep paint).exec s (b ++ .raise id ra :: up)).grab.raisedPetition = some id)
    (op : ConsentOp) : UpSince paint s b id ra (up ++ [op]) p :=
  { h with
    stays := by
      refine ((consentStep paint).along_append _ _ up [op]).mpr ⟨h.stays, ?_, trivial⟩
      rw [← Machine.exec_append]
      simpa using hu }

/-- A card that is up now, and was not from the start, was not before this call either. -/
theorem UpThroughout.concat {pa : List ConsentOp} (h : UpThroughout paint s id pa)
    (hu : ((consentStep paint).exec s pa).grab.raisedPetition = some id) (op : ConsentOp) :
    UpThroughout paint s id (pa ++ [op]) :=
  ((consentStep paint).along_append _ _ pa [op]).mpr ⟨h, hu, trivial⟩

theorem PressedIn.concat {r up : List ConsentOp} {b : Nat} {c : Choice} (h : PressedIn paint s r ra up b c)
    (hop : op.humanButton = false ∧ ∀ now, op ≠ .restartGuard now) : PressedIn paint s r ra (up ++ [op]) b c := by
  obtain ⟨e, pa, held, rfl, hhi, hg, hh⟩ := h
  refine ⟨e, pa, held ++ [op], by simp, hhi, hg, fun o hm => ?_⟩
  rcases List.mem_append.mp hm with hm | hm
  · exact hh o hm
  · exact List.mem_singleton.mp hm ▸ hop

theorem ConsentGrab.prompt_of_frame {g g' : ConsentGrab} {p' : ArmedPrompt} (h : g'.frame = g.frame)
    (hp : g'.prompt = some p') : ∃ pr, g.prompt = some pr ∧ p'.frame = pr.frame := by
  have h' : g.frame = some p'.frame := by rw [← h, frame, hp, Option.map_some]
  obtain ⟨pr, hpr, hf⟩ := Option.map_eq_some_iff.mp h'
  exact ⟨pr, hpr, hf.symm⟩

theorem ConsentGrab.raisedPetition_eq {g : ConsentGrab} {pr : ArmedPrompt} (hp : g.prompt = some pr)
    (hs : pr.subject = .petition id) : g.raisedPetition = some id := by
  simp [raisedPetition, raised, hp, hs]

theorem Traced.kept {pa : List ConsentOp} {t t' : ConsentSystem} (ht : t = (consentStep paint).exec s pa)
    (h : Traced paint s pa t) (hop : ∀ now, op ≠ .restartGuard now) (hfr : t'.grab.frame = t.grab.frame)
    (ha : ∀ b ra up p id, pa = b ++ .raise id ra :: up → t.grab.prompt ≠ none →
      (∀ pr, t.grab.prompt = some pr → pr.raisedAt = latestGuard ra up) →
      (∀ bu c, t.grab.armed = some (bu, c) → PressedIn paint s (b ++ [.raise id ra]) ra up bu c) →
      UpSince paint s b id ra up p →
      ∀ bu c, t'.grab.armed = some (bu, c) → PressedIn paint s (b ++ [.raise id ra]) ra (up ++ [op]) bu c) :
    Traced paint s (pa ++ [op]) t' := by
  intro p' id hp' hs' hno
  obtain ⟨pr, hp, hf⟩ := prompt_of_frame hfr hp'
  have hs : pr.subject = .petition id := (congrArg Prod.fst hf).symm.trans hs'
  have hra := raisedPetition_eq hp hs
  rw [ht] at hra
  obtain ⟨b, ra, up, p, hpa, hu, hd, hr, hpr⟩ := h pr id hp hs fun hup => hno (hup.concat hra op)
  rw [hpa] at hra
  refine ⟨b, ra, up ++ [op], p, by simp [hpa], hu.concat hra op, (congrArg (·.2.2.2) hf).trans hd, ?_, ?_⟩
  · rw [latestGuard_concat hop]
    exact (congrArg (·.2.2.1) hf).trans hr
  · exact ha b ra up p id hpa (by simp [hp])
      (fun q hq => Option.some.inj (hp.symm.trans hq) ▸ hr) hpr hu

end Past

/-! ### One decision for each raise -/

/-- A petition's card is up and can be answered. -/
def ConsentSystem.Answerable (s : ConsentSystem) : Prop := s.grab.raisedPetition ≠ none ∧ ¬ s.grab.Answered

namespace Sample

/-- Draws the buttons of a card in one row. -/
def painter : Painter where
  rasterize c :=
    { width := 300
      height := 100
      buttons := c.choices.zipIdx.map fun x => ⟨x.1, ⟨100 * x.2, 0, 100, 40⟩⟩
      panel := none }
  rasterizePicker _ := ⟨300, 100, [], none⟩
  drawsAsItself c := c.isAlphanum
  offers c := by simp [List.map_map, Function.comp_def]

def admits : ConsentOp := .registry ⟨.admitPetition request 0 realms false, rfl⟩

def consent : ConsentSystem := .new .interactive .default

end Sample

end Vitrin
