import Vitrin.Consent.Grab
import Vitrin.Core.PetitionRuns

/-!
# What is shown is what is raised

The flag that says a petition's card is in front of the human lives in the registry,
the card itself in the grab, and its picture on the surface. The chokepoint refuses a
principal's actuation by the flag alone, so the three must agree; and petitions leave
the registry (decided, expired, withdrawn) without the grab being told.

`consentStep` is the grab with its two stores as a machine: seat events, the grab's
own calls in any order, and every operation of the registry but the two that set the
flag, which only the grab calls.

`shown_is_raised` says that they agree in every state of every run.
-/

namespace Vitrin

open Lib ConsentGrab PetitionRegistry ConsentSystem

/-! ### The machine -/

/-- The two operations the grab alone calls. -/
def PetitionOp.marks : PetitionOp → Bool
  | .markPromptShown _ | .markPromptHidden _ => true
  | _ => false

/-- An operation of the registry that is not the grab's own. -/
abbrev RegistryOp := { op : PetitionOp // op.marks = false }

/-- One call on the grab or the registry. -/
inductive ConsentOp where
  | event (input : SeatInput) (now : Instant)
  | setView (view : Nat × Nat)
  | raise (petition : PetitionId) (now : Instant)
  | lower
  | retireStale
  | restartGuard (now : Instant)
  | raisePicker (designation : DesignationId) (deadline now : Instant)
  | showPicker (content : PickerContent)
  | lowerPicker
  | refreshPanel (content : PanelContent)
  | takeDecision
  | takeStep
  | takeNavigation
  | registry (op : RegistryOp)

inductive ConsentOut where
  | verdict (gate : Gate)
  | route (route : Option PromptRoute)
  | done (changed : Bool)
  | applied (applied : PanelApplied)
  | decision (decision : Option Decision)
  | pickerStep (step : Option (DesignationId × PickerStep))
  | navigation (navigation : Option Navigation)
  | registry (answer : PetitionOut)

def consentStep (paint : Painter) : Machine ConsentSystem ConsentOp ConsentOut := fun s op => match op with
  | .event input now =>
    ({ s with grab := (s.grab.judge paint input now).1 }, .verdict (s.grab.judge paint input now).2)
  | .setView view => ({ s with grab := s.grab.setView view }, .done true)
  | .raise petition now => ((s.raise paint petition now).1, .route (s.raise paint petition now).2)
  | .lower => (s.lower, .done true)
  | .retireStale => (s.retireStale.1, .done s.retireStale.2)
  | .restartGuard now => ((s.restartGuard now).1, .done (s.restartGuard now).2)
  | .raisePicker id deadline now => ((s.raisePicker id deadline now).1, .done (s.raisePicker id deadline now).2)
  | .showPicker content => ((s.showPicker content).1, .done (s.showPicker content).2)
  | .lowerPicker => (s.lowerPicker, .done true)
  | .refreshPanel content => ((s.refreshPanel paint content).1, .applied (s.refreshPanel paint content).2)
  | .takeDecision =>
    ({ s with grab := { s.grab with decisions := s.grab.decisions.drop 1 } }, .decision s.grab.decisions.head?)
  | .takeStep => ({ s with grab := { s.grab with steps := s.grab.steps.drop 1 } }, .pickerStep s.grab.steps.head?)
  | .takeNavigation =>
    ({ s with grab := { s.grab with navigations := s.grab.navigations.drop 1 } },
      .navigation s.grab.navigations.head?)
  | .registry op =>
    ({ s with petitions := (petitionStep s.petitions op.1).1 }, .registry (petitionStep s.petitions op.1).2)

/-! ### What is raised -/

variable {g : ConsentGrab}

namespace ConsentGrab

theorem raised_eq_frame : g.raised = g.frame.map (·.1) := by
  cases h : g.prompt <;> simp [raised, frame, h, ArmedPrompt.frame]

theorem raisedPetition_or_designation (g : ConsentGrab) : g.raisedPetition = none ∨ g.raisedDesignation = none := by
  unfold raisedPetition raisedDesignation
  cases g.raised with
  | none => exact .inl rfl
  | some su => cases su <;> simp

theorem Judged.frame_eq {g' : ConsentGrab} {i : SeatInput} {now : Instant} (h : Judged g i now g') :
    g'.frame = g.frame := by
  have ht : (g.track i).frame = g.frame := congrArg (Option.map _) (g.track_prompt i)
  cases h with
  | quiet h | disarmed h => exact h.frame.trans ht
  | armed p b up pr gu a h => exact h.frame
  | decided p b c up r a held hit u f => exact f

theorem judge_raised (p : Painter) (g : ConsentGrab) (i : SeatInput) (now : Instant) :
    (g.judge p i now).1.raised = g.raised := by
  rw [raised_eq_frame, raised_eq_frame, (judge_judged p g i now).frame_eq]

theorem onPanel_raised {f : Panel → Panel} : (g.onPanel f).raised = g.raised := by
  rw [raised_eq_frame, raised_eq_frame, (g.onPanel_quiet f).frame]

end ConsentGrab

/-! ### The invariant -/

/-- The registry's flags, the grab and the surface speak of one card. -/
structure Shown (s : ConsentSystem) : Prop where
  /-- The flag of a pending petition says whether it is raised. -/
  mark : ∀ id p, s.petitions.pending.get? id = some p →
    (p.promptShown = true ↔ s.grab.raisedPetition = some id)
  minted : ∀ id, s.grab.raisedPetition = some id → id < s.petitions.nextPetitionId
  /-- A raised petition's card is drawn, and says what the registry holds. -/
  drawn : ∀ id, s.grab.raisedPetition = some id → ∃ c, s.surface.prompt = some c ∧ c.panel = none ∧
    ∀ p, s.petitions.pending.get? id = some p → c = p.promptContent
  prompt : s.surface.prompt.isSome → s.grab.raisedPetition.isSome
  picker : s.surface.picker.isSome → s.grab.raisedDesignation.isSome

variable {s : ConsentSystem}

namespace Shown

theorem new (po : ConsentPolicy) (c : PetitionConfig) : Shown (.new po c) where
  mark id p h := by simp [ConsentSystem.new, PetitionRegistry.new] at h
  minted id h := nomatch h
  drawn id h := nomatch h
  prompt h := nomatch h
  picker h := nomatch h

theorem of_raised (h : Shown s) (hr : g.raised = s.grab.raised) : Shown { s with grab := g } := by
  have hp : g.raisedPetition = s.grab.raisedPetition := by simp [raisedPetition, hr]
  have hd : g.raisedDesignation = s.grab.raisedDesignation := by simp [raisedDesignation, hr]
  exact
    { mark := fun id p hpe => hp ▸ h.mark id p hpe
      minted := fun id hi => h.minted id (hp ▸ hi)
      drawn := fun id hi => h.drawn id (hp ▸ hi)
      prompt := fun hs => hp ▸ h.prompt hs
      picker := fun hs => hd ▸ h.picker hs }

theorem down (h : Shown s) (hn : s.grab.prompt = none) : s.surface.prompt = none ∧ s.surface.picker = none ∧
      ∀ id p, s.petitions.pending.get? id = some p → p.promptShown = false := by
  have hp : s.grab.raisedPetition = none := by simp [raisedPetition, raised, hn]
  have hd : s.grab.raisedDesignation = none := by simp [raisedDesignation, raised, hn]
  refine ⟨?_, ?_, fun id p hpe => ?_⟩
  · simpa [hp] using mt h.prompt
  · simpa [hd] using mt h.picker
  · simpa [hp] using h.mark id p hpe

/-- With nothing raised, it is enough that nothing is drawn and no petition is marked. -/
theorem of_down (hn : s.grab.prompt = none) (hpr : s.surface.prompt = none) (hpi : s.surface.picker = none)
    (hm : ∀ id p, s.petitions.pending.get? id = some p → p.promptShown = false) : Shown s := by
  have hp : s.grab.raisedPetition = none := by simp [raisedPetition, raised, hn]
  exact
    { mark := fun id p h => by simp [hp, hm id p h]
      minted := fun id h => by simp [hp] at h
      drawn := fun id h => by simp [hp] at h
      prompt := fun h => by simp [hpr] at h
      picker := fun h => by simp [hpi] at h }

end Shown

namespace ConsentSystem

variable (s : ConsentSystem)

theorem lower_prompt : s.lower.grab.prompt = none := by
  unfold lower
  cases h : s.grab.prompt with
  | none => exact h
  | some p => cases hs : p.subject <;> simp [hs]

theorem lower_surface : s.lower.surface = s.surface.dismiss := by
  unfold lower
  cases h : s.grab.prompt with
  | none => rfl
  | some p => cases hs : p.subject <;> simp [hs]

end ConsentSystem

namespace Shown

variable (h : Shown s)

include h

theorem lower : Shown s.lower := by
  refine of_down s.lower_prompt (s.lower_surface ▸ s.surface.dismiss_prompt)
    (s.lower_surface ▸ s.surface.dismiss_picker) fun id p hpe => ?_
  unfold ConsentSystem.lower at hpe
  cases hp : s.grab.prompt with
  | none =>
    simp only [hp] at hpe
    exact (h.down hp).2.2 id p hpe
  | some q =>
    simp only [hp] at hpe
    have hm : ∀ p₀, s.petitions.pending.get? id = some p₀ → s.grab.raisedPetition ≠ some id →
        p₀.promptShown = false := fun p₀ h₀ hn => by simpa [hn] using h.mark id p₀ h₀
    cases hs : q.subject with
    | designation d =>
      simp only [hs] at hpe
      exact hm p hpe (by simp [raisedPetition, raised, hp, hs])
    | petition c =>
      simp only [hs, markPromptHidden, get?_setShown] at hpe
      split_ifs at hpe with hi
      · obtain ⟨p₀, -, rfl⟩ := Option.map_eq_some_iff.mp hpe
        rfl
      · refine hm p hpe ?_
        simp only [raisedPetition, raised, hp, hs, Option.map_some]
        exact fun he => hi (Option.some.inj he).symm

theorem putUp (hn : s.grab.prompt = none) (pa : Painter) (pe : PetitionId) (now : Instant) :
    Shown (s.putUp pa pe now).1 := by
  rcases s.putUp_cases pa pe now with ⟨-, he⟩ | ⟨p, c, hp, -, he⟩
  · exact he ▸ h
  · obtain ⟨hpr, hpi, hm⟩ := h.down hn
    obtain ⟨-, hs, hno⟩ := ConsentSurface.showPrompt_card pa hpr hpi p.promptContent
    rw [he]
    exact
      { mark := fun id q hq => by
          simp only [get?_setShown] at hq
          simp only [raisedPetition, raised, freshPrompt]
          split_ifs at hq with hi
          · obtain ⟨q₀, -, rfl⟩ := Option.map_eq_some_iff.mp hq
            simp [hi]
          · simp [hm id q hq, Ne.symm hi]
        minted := fun id hi => Option.some.inj hi ▸ s.petitions.minted pe p hp
        drawn := fun id hi => by
          cases hi
          refine ⟨p.promptContent, hs, rfl, fun q hq => ?_⟩
          rw [get?_setShown, if_pos rfl, hp] at hq
          cases hq
          rfl
        prompt := fun _ => rfl
        picker := fun hk => absurd (hno ▸ hk) (by simp) }

theorem raise (pa : Painter) (p : PetitionId) (now : Instant) : Shown (s.raise pa p now).1 := by
  unfold ConsentSystem.raise
  cases hr : s.grab.raised with
  | none => exact h.putUp (by simpa [raised] using hr) pa p now
  | some su =>
    cases su with
    | designation d => exact h
    | petition c =>
      dsimp only
      split_ifs
      · exact h.lower.putUp s.lower_prompt pa p now
      · exact h
      · exact h

/-- A registry that moves on without the grab: petitions leave, and new ones arrive unmarked. -/
theorem registry {r : PetitionRegistry} (hne : s.petitions.nextPetitionId ≤ r.nextPetitionId)
    (hr : ∀ id p, r.pending.get? id = some p →
      s.petitions.pending.get? id = some p ∨ s.petitions.nextPetitionId ≤ id ∧ p.promptShown = false) :
    Shown { s with petitions := r } where
  mark id p hp := by
    rcases hr id p hp with hold | ⟨hn, hf⟩
    · exact h.mark id p hold
    · simp only [hf, Bool.false_eq_true, false_iff]
      exact fun hra => absurd (h.minted id hra) (not_lt.mpr hn)
  minted id hi := (h.minted id hi).trans_le hne
  drawn id hi := by
    obtain ⟨c, hc, hpa, hco⟩ := h.drawn id hi
    refine ⟨c, hc, hpa, fun p hp => ?_⟩
    rcases hr id p hp with hold | ⟨hn, -⟩
    · exact hco p hold
    · exact absurd (h.minted id hi) (not_lt.mpr hn)
  prompt := h.prompt
  picker := h.picker

end Shown

/-- An operation that is not the grab's own leaves every petition it keeps as it was, and admits
petitions unmarked. -/
theorem registryOp_pending (r : PetitionRegistry) (op : RegistryOp) {id : PetitionId} {p : PendingPetition}
    (h : (petitionStep r op.1).1.pending.get? id = some p) :
    r.pending.get? id = some p ∨ r.nextPetitionId ≤ id ∧ p.promptShown = false := by
  obtain ⟨op, hop⟩ := op
  cases op with
  | registerConnection => exact .inl h
  | admitPetition req now re held =>
    rcases r.admitPetition_cases req now re held with ⟨o, he⟩ | ⟨rea, ru, -, ⟨-, he⟩ | ⟨-, he⟩⟩
    · exact .inl (by simpa [petitionStep, he] using h)
    · exact .inl (by simpa [petitionStep, he] using h)
    · simp only [petitionStep, he, get?_push] at h
      split_ifs at h with hi
      · cases h
        exact .inr ⟨hi.ge, rfl⟩
      · exact .inl h
  | resolveHuman pe ch => exact .inl ((r.resolveHuman_cases pe ch).pending h)
  | resolveScripted pe d => exact .inl ((r.resolveScripted_cases pe d).pending h)
  | expireDue now => exact .inl (get?_expireDue.mp h).1
  | withdrawConnection c => exact .inl (get?_withdrawConnection.mp h).1
  | markPromptShown | markPromptHidden => cases hop

/-! ### Every call keeps it -/

namespace Shown

variable (h : Shown s)

include h

theorem raisePicker (id : DesignationId) (d now : Instant) : Shown (s.raisePicker id d now).1 := by
  unfold ConsentSystem.raisePicker
  cases hr : s.grab.raised with
  | some su => exact h
  | none =>
    obtain ⟨hpr, hpi, hm⟩ := h.down (by simpa [raised] using hr)
    exact
      { mark := fun i p hp => by simp [hm i p hp, raisedPetition, raised]
        minted := fun i hi => nomatch hi
        drawn := fun i hi => nomatch hi
        prompt := fun hs => by simp [hpr] at hs
        picker := fun _ => rfl }

theorem showPicker (c : PickerContent) : Shown (s.showPicker c).1 := by
  unfold ConsentSystem.showPicker
  cases hd : s.grab.raisedDesignation with
  | none => exact h
  | some id =>
    have hp : s.grab.raisedPetition = none := by
      simpa [hd] using s.grab.raisedPetition_or_designation
    have hpr : s.surface.prompt = none := by simpa [hp] using mt h.prompt
    have hk : (s.surface.showPicker c).1.prompt = s.surface.prompt := by
      unfold ConsentSurface.showPicker
      split_ifs <;> rfl
    exact
      { mark := h.mark
        minted := h.minted
        drawn := fun i hi => by simp [hp] at hi
        prompt := fun hs => by simp [hk, hpr] at hs
        picker := fun _ => by simp [hd] }

theorem lowerPicker : Shown s.lowerPicker := by
  unfold ConsentSystem.lowerPicker
  cases hd : s.grab.raisedDesignation with
  | none => exact h
  | some id =>
    have hp : s.grab.raisedPetition = none := by
      simpa [hd] using s.grab.raisedPetition_or_designation
    exact of_down rfl (by simp) (by simp) fun i p hpe => by simpa [hp] using h.mark i p hpe

/-- A petition's card has no panel, so there is never one to redraw. -/
theorem refreshPanel (pa : Painter) (co : PanelContent) : (s.refreshPanel pa co).1 = s := by
  have hs : s.surface.setPanel co = (s.surface, false) := by
    unfold ConsentSurface.setPanel
    cases hp : s.surface.prompt with
    | none => rfl
    | some p =>
      obtain ⟨id, hi⟩ := Option.isSome_iff_exists.mp (h.prompt (by simp [hp]))
      obtain ⟨c, hc, hpa, -⟩ := h.drawn id hi
      cases hp.symm.trans hc
      simp [hpa]
  unfold ConsentSystem.refreshPanel
  cases s.grab.panel? with
  | none => rfl
  | some pan => simp [ConsentSurface.redraw, hs]

end Shown

/-- **One call keeps the agreement.** -/
theorem consentStep_shown (pa : Painter) (s : ConsentSystem) (op : ConsentOp) (h : Shown s) :
    Shown (consentStep pa s op).1 := by
  cases op with
  | event i now => exact h.of_raised (s.grab.judge_raised pa i now)
  | setView | takeDecision | takeStep | takeNavigation => exact h.of_raised rfl
  | raise pe now => exact h.raise pa pe now
  | lower => exact h.lower
  | retireStale =>
    simp only [consentStep, retireStale]
    split
    · exact h
    · split_ifs
      · exact h
      · exact h.lower
  | restartGuard now =>
    simp only [consentStep, restartGuard]
    split
    · exact h
    · rename_i p hp
      refine h.of_raised ?_
      rw [disarmSlot, onPanel_raised]
      simp [raised, hp]
  | raisePicker id d now => exact h.raisePicker id d now
  | showPicker c => exact h.showPicker c
  | lowerPicker => exact h.lowerPicker
  | refreshPanel c => exact (h.refreshPanel pa c).symm ▸ h
  | registry op =>
    exact h.registry (petitionStep_evolves s.petitions op.1).nextPetitionId fun id p hp =>
      registryOp_pending s.petitions op hp

/-- **What the registry calls shown is what the human is looking at.** After any calls on the grab, in
any order with admissions, decisions, expiries and withdrawals: a pending petition is marked shown
exactly when it is the raised one, so at most one is; a principal is held only while a card of its own
is raised and drawn as the registry has it; and a petition's card and a picker are never up together,
in the grab or on the surface. -/
theorem shown_is_raised (paint : Painter) (policy : ConsentPolicy) (config : PetitionConfig)
    (ops : List ConsentOp) :
    let s := (consentStep paint).exec (.new policy config) ops
    (∀ id p, s.petitions.pending.get? id = some p →
      (p.promptShown = true ↔ s.grab.raised = some (.petition id))) ∧
    (∀ id i' p p', s.petitions.pending.get? id = some p → s.petitions.pending.get? i' = some p' →
      p.promptShown = true → p'.promptShown = true → id = i') ∧
    (∀ pr, s.petitions.promptUpFor pr = true →
      ∃ id p, s.grab.raised = some (.petition id) ∧ s.petitions.pending.get? id = some p ∧
        p.identity = pr ∧ s.surface.prompt = some p.promptContent) ∧
    (s.grab.raisedPetition = none ∨ s.grab.raisedDesignation = none) ∧
    (s.surface.prompt = none ∨ s.surface.picker = none) := by
  intro s
  have h : Shown s := Machine.exec_inv (consentStep_shown paint) (.new policy config) ops
  have hr : ∀ id, s.grab.raisedPetition = some id ↔ s.grab.raised = some (.petition id) := by
    unfold raisedPetition
    cases s.grab.raised with
    | none => simp
    | some su => cases su <;> simp
  refine ⟨fun id p hp => (h.mark id p hp).trans (hr id), fun id i' p p' hp hp' hs hs' => ?_,
    fun pr hu => ?_, s.grab.raisedPetition_or_designation, ?_⟩
  · exact Option.some.inj (((h.mark id p hp).mp hs).symm.trans ((h.mark i' p' hp').mp hs'))
  · obtain ⟨id, p, hp, hs, hi⟩ := promptUpFor_iff.mp hu
    have hid := (h.mark id p hp).mp hs
    obtain ⟨c, hc, -, hco⟩ := h.drawn id hid
    exact ⟨id, p, (hr id).mp hid, hp, hi, hco p hp ▸ hc⟩
  · rcases s.grab.raisedPetition_or_designation with hp | hd
    · exact .inl (by simpa [hp] using mt h.prompt)
    · exact .inr (by simpa [hd] using mt h.picker)

end Vitrin
