import Vitrin.Session.Session

/-!
# The session over its parts

The session is put together from machines that were studied on their own: the stores
and connections, and the grab with its surface. Here it is shown that the session, seen
through either part, only does what that part can do, so that what holds in every run
of a part holds in every run of the session.

A picker round is cut into the few things it can do (`PickerOp`), in any order and any
number: calls on the grab, and designations settled. Everything that is proved of a
round is proved of these.

`sessionStep_system`: a step of the session is a run of `systemStep`, with the same
calls of the sinks. `sessionStep_consent`: it is a run of `consentStep`. So runs are runs
of the parts (`session_refines`), in which the invariant of the connections holds
(`session_inv`), and what is shown is what is raised (`session_shown`).
-/

namespace Vitrin

open Lib Relation Machine.Runs Session ConsentSystem

/-! ### What a picker round does -/

/-- A call on the grab that a picker round makes. -/
def ConsentOp.ofPicker : ConsentOp → Bool
  | .raisePicker _ _ _ | .showPicker _ | .lowerPicker | .takeStep => true
  | _ => false

inductive PickerOp where
  | grab (op : { op : ConsentOp // op.ofPicker = true })
  | session (picker : Option DesignationId)
  | refuse (id : DesignationId) (why : SettleFailure)
  | settle (id : DesignationId) (chosen : Option (Option Opened))

def pickerStep (paint : Painter) (now : Instant) (accepts : DesignationId → Bool) :
    Machine Session PickerOp (List Terminal) := fun s op => match op with
  | .grab op => (s.putConsent (consentStep paint s.consent op.1).1, [])
  | .session picker => ({ s with picker }, [])
  | .refuse id why => s.settleRefused id why accepts
  | .settle id chosen => s.settleDesignation id chosen now accepts

variable {x : Session × List Terminal}

namespace Session

/-- The terminals of a picker round are those of what it does. -/
abbrev PickerRuns (paint : Painter) (now : Instant) (accepts : DesignationId → Bool) (s : Session)
    (x : Session × List Terminal) : Prop :=
  (pickerStep paint now accepts).Runs id s x.2 x.1

section PickerRuns

variable {pa : Painter} {now : Instant} {a : DesignationId → Bool} {s : Session}

theorem pickerRuns_refl (s : Session) : PickerRuns pa now a s (s, []) := refl _ s

theorem pickerRuns_grab (s : Session) (op : { op : ConsentOp // op.ofPicker = true }) :
    PickerRuns pa now a s (s.putConsent (consentStep pa s.consent op.1).1, []) :=
  step id s (PickerOp.grab op)

theorem pickerRuns_session (s : Session) (picker : Option DesignationId) :
    PickerRuns pa now a s ({ s with picker }, []) :=
  step id s (PickerOp.session picker)

theorem pickerRuns_refuse {s : Session} {id : DesignationId} {w : SettleFailure} :
    PickerRuns pa now a s (s.settleRefused id w a) :=
  step _ s (PickerOp.refuse id w)

theorem PickerRuns.trans {y : Session × List Terminal} (h : PickerRuns pa now a s x)
    (h' : PickerRuns pa now a x.1 y) : PickerRuns pa now a s (y.1, x.2 ++ y.2) :=
  Machine.Runs.trans h h'

theorem dropPicker_runs (s : Session) : PickerRuns pa now a s (s.dropPicker, []) :=
  (pickerRuns_grab s ⟨.lowerPicker, rfl⟩).trans (pickerRuns_session _ none)

theorem retirePicker_runs (s : Session) : PickerRuns pa now a s (s.retirePicker, []) := by
  unfold retirePicker
  split
  · split_ifs
    · exact pickerRuns_refl s
    · exact dropPicker_runs s
  · exact pickerRuns_refl s

theorem hidePicker_runs (s : Session) : PickerRuns pa now a s (s.hidePicker a) := by
  unfold hidePicker
  split
  · exact (dropPicker_runs s).trans pickerRuns_refuse
  · exact pickerRuns_refl s

theorem forgetPicker_runs (s : Session) : PickerRuns pa now a s (s.forgetPicker, []) := by
  unfold forgetPicker
  split_ifs
  · exact pickerRuns_session s none
  · exact pickerRuns_refl s

theorem redrawPicker_runs {s : Session} {c : DesignationTicket → PickerContent} :
    PickerRuns pa now a s (s.redrawPicker c, []) := by
  unfold redrawPicker
  split
  · exact pickerRuns_grab s ⟨.showPicker _, rfl⟩
  · exact pickerRuns_refl s

theorem drained_runs (s : Session) : PickerRuns pa now a s ({ s with grab := { s.grab with steps := [] } }, []) := by
  generalize hl : s.grab.steps = l
  induction l generalizing s with
  | nil =>
    rw [← hl]
    exact pickerRuns_refl s
  | cons x l ih =>
    have hs : PickerRuns pa now a s (_, []) := pickerRuns_grab s ⟨.takeStep, rfl⟩
    exact hs.trans (ih (s.putConsent (consentStep pa s.consent .takeStep).1)
      (by simp [putConsent, consentStep, consent, hl]))

theorem drainSteps_runs {s : Session} (e : PickerEnv) : PickerRuns pa now e.accepts s (s.drainSteps now e) := by
  unfold drainSteps
  have hd : PickerRuns pa now e.accepts s (_, []) := drained_runs s
  split
  · exact hd.trans redrawPicker_runs
  · exact hd
  · exact (hd.trans (dropPicker_runs _)).trans (step id _ (PickerOp.settle _ e.chosen))
  · exact (hd.trans (dropPicker_runs _)).trans pickerRuns_refuse

theorem raisePickerFor_runs (s : Session) (id : DesignationId) (env : PickerEnv) :
    PickerRuns pa now a s ((s.raisePickerFor id now env).1, []) := by
  unfold raisePickerFor
  cases s.ledger.peek id with
  | none => split_ifs <;> exact pickerRuns_refl s
  | some ticket =>
    have hr : PickerRuns pa now a s (_, []) := pickerRuns_grab s ⟨.raisePicker id ticket.deadline now, rfl⟩
    have hs := hr.trans (pickerRuns_grab _ ⟨.showPicker (env.card ticket), rfl⟩)
    dsimp only
    split_ifs
    iterate 3 exact pickerRuns_refl s
    · exact hs.trans (pickerRuns_grab _ ⟨.lowerPicker, rfl⟩)
    · exact hs.trans (pickerRuns_session _ (some id))

theorem raiseFront_runs {s : Session} (e : PickerEnv) : PickerRuns pa now e.accepts s (s.raiseFront now e) := by
  unfold raiseFront
  split
  · rename_i id _ _
    dsimp only
    split
    · exact raisePickerFor_runs s id e
    · exact (raisePickerFor_runs s id e).trans pickerRuns_refuse
  · exact pickerRuns_refl s

/-- **A picker round does these things and no others.** -/
theorem servicePickerRound_runs (pa : Painter) (s : Session) (now : Instant) (re : Bool) (e : PickerEnv) :
    PickerRuns pa now e.accepts s (s.servicePickerRound now re e) := by
  have hh : PickerRuns pa now e.accepts s
      (if re then (s.retirePicker, []) else s.retirePicker.hidePicker e.accepts) := by
    split_ifs
    · exact retirePicker_runs s
    · exact (retirePicker_runs s).trans (hidePicker_runs _)
  unfold servicePickerRound
  dsimp only
  generalize (if re then (s.retirePicker, []) else s.retirePicker.hidePicker e.accepts) = hidden at hh ⊢
  have hd := (hh.trans (forgetPicker_runs hidden.1)).trans (drainSteps_runs e)
  rw [List.append_nil] at hd
  cases re with
  | true => exact hd.trans (raiseFront_runs e)
  | false => exact hd.trans (pickerRuns_refl _)

end PickerRuns

end Session

/-! ### Over the stores and connections -/

theorem ConsentSystem.lowerPicker_petitions (c : ConsentSystem) : c.lowerPicker.petitions = c.petitions := by
  unfold lowerPicker
  split <;> rfl

theorem consentStep_ofPicker (pa : Painter) (c : ConsentSystem) {op : ConsentOp} (hop : op.ofPicker = true) :
    (consentStep pa c op).1.petitions = c.petitions := by
  cases op with
  | raisePicker id d now =>
    simp only [consentStep, raisePicker]
    split <;> rfl
  | showPicker co =>
    simp only [consentStep, showPicker]
    split <;> rfl
  | lowerPicker => exact c.lowerPicker_petitions
  | takeStep => rfl
  | _ => cases hop

variable {now : Instant} {a : DesignationId → Bool}

namespace Session

/-- Ending a designation touches the ledger, which makes no ticket, and the deliveries. -/
theorem settleRefused_frame (s : Session) (id : DesignationId) (why : SettleFailure) (a : DesignationId → Bool) :
    ∃ ledger deliveries, (s.settleRefused id why a).1 = { s with ledger, deliveries } ∧
      ∀ i t, ledger.peek i = some t → s.ledger.peek i = some t := by
  unfold settleRefused
  split
  · exact ⟨_, _, rfl, fun _ _ h => h⟩
  · rename_i ledger t he
    obtain ⟨rfl, -⟩ := Prod.mk.inj he
    exact ⟨_, _, rfl, fun i t' h => (OrdMap.get?_erase_eq_some.mp h).2⟩

theorem settleDesignation_frame (s : Session) (id : DesignationId) (chosen : Option (Option Opened)) (now : Instant)
    (a : DesignationId → Bool) :
    ∃ ledger deliveries, (s.settleDesignation id chosen now a).1 = { s with ledger, deliveries } ∧
      ∀ i t, ledger.peek i = some t → s.ledger.peek i = some t := by
  have ht : ∀ i t, (s.ledger.take id).1.peek i = some t → s.ledger.peek i = some t :=
    fun i t h => (OrdMap.get?_erase_eq_some.mp h).2
  rcases s.ledger.redeem_cases id (s.world now) now with ⟨-, hr⟩ | ⟨t, -, ⟨why, hr⟩ | hr⟩
  all_goals rw [settleDesignation, hr]
  · exact ⟨_, _, rfl, ht⟩
  · exact ⟨_, _, rfl, ht⟩
  · dsimp only
    split
    · exact ⟨_, _, rfl, ht⟩
    · split_ifs
      · exact ⟨_, _, rfl, ht⟩
      · exact ⟨_, _, rfl, ht⟩
      · split <;> exact ⟨_, _, rfl, ht⟩

theorem PickerRuns.system {pa : Painter} {s : Session} (h : PickerRuns pa now a s x) : x.1.system = s.system := by
  refine inv (P := fun t => t.system = s.system) h (fun t op ih => ?_) rfl
  cases op with
  | grab op =>
    simp only [pickerStep, putConsent, consentStep_ofPicker pa _ op.2]
    exact ih
  | session picker => exact ih
  | refuse id why =>
    obtain ⟨ledger, deliveries, he, -⟩ := t.settleRefused_frame id why a
    simp [pickerStep, he, ih]
  | settle id chosen =>
    obtain ⟨ledger, deliveries, he, -⟩ := t.settleDesignation_frame id chosen now a
    simp [pickerStep, he, ih]

end Session

def PetitionRegistry.Marks : PetitionRegistry → PetitionRegistry → Prop :=
  ReflTransGen fun r r' => ∃ id shown, r' = r.setShown id shown

namespace ConsentSystem

theorem lower_marks (c : ConsentSystem) : c.petitions.Marks c.lower.petitions := by
  unfold lower
  split
  · exact .refl
  · split
    · exact .single ⟨_, false, rfl⟩
    · exact .refl

theorem putUp_marks (pa : Painter) (c : ConsentSystem) (pe : PetitionId) (now : Instant) :
    c.petitions.Marks (c.putUp pa pe now).1.petitions := by
  rcases c.putUp_cases pa pe now with ⟨-, he⟩ | ⟨p, ca, -, -, he⟩
  · rw [he]
    exact .refl
  · rw [he]
    exact .single ⟨pe, true, rfl⟩

theorem raise_marks (pa : Painter) (c : ConsentSystem) (p : PetitionId) (now : Instant) :
    c.petitions.Marks (c.raise pa p now).1.petitions := by
  unfold raise
  split
  · exact .refl
  · split_ifs
    · exact c.lower_marks.trans (putUp_marks pa c.lower p now)
    · exact .refl
    · exact .refl
  · exact putUp_marks pa c p now

end ConsentSystem

theorem consentStep_marks (pa : Painter) (c : ConsentSystem) {op : ConsentOp} (hop : op.plain = true) :
    c.petitions.Marks (consentStep pa c op).1.petitions := by
  cases op with
  | raise p now => exact c.raise_marks pa p now
  | lower => exact c.lower_marks
  | retireStale =>
    simp only [consentStep, retireStale]
    split
    · exact .refl
    · split_ifs
      · exact .refl
      · exact c.lower_marks
  | restartGuard now =>
    simp only [consentStep, restartGuard]
    split <;> exact .refl
  | refreshPanel co =>
    simp only [consentStep, refreshPanel]
    split
    · exact .refl
    · split <;> exact .refl
  | event | setView | takeDecision | takeNavigation => exact .refl
  | _ => cases hop

variable {r : PetitionRegistry}

theorem PetitionRegistry.Marks.runs {sy : PrincipalSystem} (h : sy.petitions.Marks r) :
    systemStep.Runs (·.calls) sy [] { sy with petitions := r } := by
  induction h with
  | refl => exact .refl _ sy
  | tail _ hm ih =>
    obtain ⟨id, sh, rfl⟩ := hm
    cases sh with
    | true => exact ih.trans (.step _ _ (SystemOp.promptShown id))
    | false => exact ih.trans (.step _ _ (SystemOp.promptHidden id))

variable {s : PrincipalSystem}

theorem systemStep_calls {op : SystemOp} (hop : ∀ c ctx msg w, op ≠ .message c ctx msg w) :
    (systemStep s op).2.calls = [] := by
  cases op with
  | message c ctx msg w => exact absurd rfl (hop c ctx msg w)
  | deliver | teardown =>
    simp only [systemStep]
    split <;> rfl
  | _ => rfl

theorem SystemOp.plain_ne_message {op : SystemOp} (hop : op.plain = true) (c : ConnectionId) (ctx : ServerCtx)
    (msg : Message) (w : Wire) : op ≠ .message c ctx msg w := by
  rintro rfl
  cases hop

theorem Session.closePrincipal_system (s : Session) (c : ConnectionId) :
    systemStep.Runs (·.calls) s.system [] (s.closePrincipal c).system := by
  unfold closePrincipal
  split_ifs
  · have h : systemStep.Runs (·.calls) s.system _ _ := .step _ s.system (.teardown c)
    have hc : (systemStep s.system (.teardown c)).2.calls = [] := systemStep_calls fun _ _ _ _ h => nomatch h
    rwa [hc] at h
  · exact .refl _ _

/-- **A step of the session is a run of the stores and connections**, and calls the same sinks. -/
theorem sessionStep_system (pa : Painter) (s : Session) (op : SessionOp) :
    systemStep.Runs (·.calls) s.system (sessionStep pa s op).2.calls (sessionStep pa s op).1.system := by
  cases op with
  | system op =>
    have h : systemStep.Runs (·.calls) s.system _ _ := .step _ s.system op.1
    rwa [systemStep_calls (SystemOp.plain_ne_message op.2)] at h
  | consent op => exact (consentStep_marks pa s.consent op.2).runs
  | message c ctx msg w a =>
    have h : systemStep.Runs (·.calls) s.system (s.served c ctx msg w).2.calls (s.served c ctx msg w).1 :=
      .step _ s.system _
    simp only [sessionStep, dispatchMessage]
    split
    · dsimp only
      split
      · have hc := h.trans ((s.afterServed c ctx msg w).closePrincipal_system c)
        rwa [List.append_nil] at hc
      · exact h
    · exact .refl _ _
  | closed c => exact s.closePrincipal_system c
  | pickerRound now re e =>
    have h := (s.servicePickerRound_runs pa now re e).system
    exact h ▸ .refl _ _
  | agentWoken c a =>
    simp only [sessionStep, deliverAgentCopy]
    split
    · exact .refl _ _
    · split_ifs <;> exact .refl _ _
  | realmWoken rea a =>
    simp only [sessionStep, deliverRealmCopy]
    split
    · exact .refl _ _
    · split_ifs <;> exact .refl _ _
  | locked | sweep | realmStarted | realmReaped | realmClosed | shutdown => exact .refl _ _

/-- The invariant of the connections holds in every state of every run of the session. -/
theorem session_inv (pa : Painter) (po : ConsentPolicy) (c : PetitionConfig) (ch : AttentionChord) (p : Bool)
    (ops : List SessionOp) : ((sessionStep pa).exec (.new po c ch p) ops).system.Inv :=
  Machine.exec_inv (P := fun s => s.system.Inv)
    (fun s op h => (sessionStep_system pa s op).inv systemStep_inv h)
    (.new po c ch) ops

/-! ### Over the grab -/

def registryStep : Machine PetitionRegistry RegistryOp PetitionOut := fun r op => petitionStep r op.1

theorem registryStep_reaches (r : PetitionRegistry) (op : PetitionOp) (hop : op.marks = false) :
    registryStep.Reaches r (petitionStep r op).1 :=
  .step r (⟨op, hop⟩ : RegistryOp)

theorem Turn.Settles.petitions {r : Resolution} {t t' : Turn} (h : Turn.Settles now r t t') :
    t'.petitions = t.petitions := by
  cases h <;> rfl

variable {msg : Message} {ctx : ServerCtx}

theorem Turn.Act.registry {t t' : Turn} (h : Turn.Act ctx msg t t') :
    registryStep.Reaches t.petitions t'.petitions := by
  have ha : ∀ re, registryStep.Reaches t.petitions (t.admitted ctx re).1 := fun re =>
    registryStep_reaches t.petitions
      (.admitPetition re ctx.now ctx.realms (t.grants.anyLiveHolderOf .layoutArrange ctx.now)) rfl
  cases h with
  | grow | bind => exact .refl _
  | park w hb hc hi hp => exact ha _
  | settle hb hc hi hr haw hs => exact hs.petitions ▸ ha _

theorem Turn.Acts.registry {t t' : Turn} (h : Turn.Acts ctx msg t t') :
    registryStep.Reaches t.petitions t'.petitions := by
  induction h with
  | refl => exact .refl _
  | tail _ ha ih => exact ih.trans ha.registry

theorem Turn.Served.registry {t t' : Turn} (h : Turn.Served ctx msg t t') :
    registryStep.Reaches t.petitions t'.petitions := by
  rcases h with ha | ⟨t₁, hu, ha⟩
  · exact ha.registry
  · cases hu with
    | intro hb hob hk hi => exact ha.registry

theorem Turn.deliverResolution_petitions (t : Turn) (r : Resolution) (now : Instant) :
    (t.deliverResolution r now).1.petitions = t.petitions := by
  rcases t.deliverResolution_cases r now with ⟨p, w, -, h⟩ | ⟨-, hs⟩
  · rw [h]
  · exact hs.petitions

theorem DeadMan.denyPending_registry {f : Nat} (r : PetitionRegistry) (d : List Resolution) :
    registryStep.Reaches r (DeadMan.denyPending f r d).1 := by
  induction f generalizing r d with
  | zero => exact .refl r
  | succ f ih =>
    unfold denyPending
    split
    · exact .refl r
    · rename_i p _
      have hd : registryStep.Reaches r (r.resolveHuman p .deny).1 :=
        registryStep_reaches r (.resolveHuman p .deny) rfl
      split
      · rename_i r' re he
        rw [he] at hd
        exact hd.trans (ih r' _)
      · exact .refl r

theorem systemStep_registry (h : s.Inv) (op : SystemOp) (hsh : ∀ p, op ≠ .promptShown p)
    (hh : ∀ p, op ≠ .promptHidden p) : registryStep.Reaches s.petitions (systemStep s op).1.petitions := by
  cases op with
  | connect pe => exact registryStep_reaches s.petitions .registerConnection rfl
  | message c ctx msg w =>
    simp only [systemStep]
    split
    · exact .refl _
    · rename_i co hc
      have hse : Turn.Served ctx msg (s.turn co.server w) _ := Turn.handleMessage_served (h.conns c co hc).below
      exact hse.registry
  | resolveHuman p ch => exact registryStep_reaches s.petitions (.resolveHuman p ch) rfl
  | resolveScripted p d => exact registryStep_reaches s.petitions (.resolveScripted p d) rfl
  | expirePetitions now => exact registryStep_reaches s.petitions (.expireDue now) rfl
  | promptShown p => exact absurd rfl (hsh p)
  | promptHidden p => exact absurd rfl (hh p)
  | deliver c i now w =>
    simp only [systemStep]
    split
    · rename_i co re _ _
      have hs := (s.turn co.server w).deliverResolution_petitions re now
      simp only [PrincipalSystem.absorb, hs]
      exact .refl _
    · exact .refl _
  | deadMan now => exact DeadMan.denyPending_registry s.petitions []
  | teardown c =>
    simp only [systemStep]
    split
    · exact .refl _
    · rename_i co _
      exact registryStep_reaches s.petitions (.withdrawConnection co.server.connection) rfl
  | expireGrants | revoke | revokePrincipal | attention => exact .refl _

theorem consent_reaches (pa : Painter) (c : ConsentSystem) (h : registryStep.Reaches c.petitions r) :
    (consentStep pa).Reaches c { c with petitions := r } :=
  h.inv (P := fun r => (consentStep pa).Reaches c { c with petitions := r })
    (fun _ op ih => ih.trans (.step _ (ConsentOp.registry op))) (.refl c)

namespace Session

theorem PickerRuns.consent {pa : Painter} {s : Session} (h : PickerRuns pa now a s x) :
    (consentStep pa).Reaches s.consent x.1.consent := by
  refine inv (P := fun t => (consentStep pa).Reaches s.consent t.consent) h (fun t op ih => ?_)
    (.refl _)
  cases op with
  | grab op => exact ih.trans (.step t.consent op.1)
  | session picker => exact ih
  | refuse id why =>
    obtain ⟨ledger, deliveries, he, -⟩ := t.settleRefused_frame id why a
    simp only [pickerStep, he]
    exact ih
  | settle id chosen =>
    obtain ⟨ledger, deliveries, he, -⟩ := t.settleDesignation_frame id chosen now a
    simp only [pickerStep, he]
    exact ih

end Session

variable (pa : Painter)

theorem Session.closePrincipal_consent {s : Session} (h : s.system.Inv) (c : ConnectionId) :
    (consentStep pa).Reaches s.consent (s.closePrincipal c).consent := by
  unfold closePrincipal
  split_ifs
  · exact consent_reaches pa s.consent
      (systemStep_registry h (.teardown c) (fun _ h => nomatch h) (fun _ h => nomatch h))
  · exact .refl _

/-- **A step of the session is a run of the grab.** -/
theorem sessionStep_consent {s : Session} (h : s.system.Inv) (op : SessionOp) :
    (consentStep pa).Reaches s.consent (sessionStep pa s op).1.consent := by
  cases op with
  | system op =>
    obtain ⟨op, hop⟩ := op
    refine consent_reaches pa s.consent (systemStep_registry h op ?_ ?_) <;>
      rintro p rfl <;> cases hop
  | consent op => exact .step s.consent op.1
  | message c ctx msg w a =>
    have hs : (consentStep pa).Reaches s.consent (s.afterServed c ctx msg w).consent :=
      consent_reaches pa s.consent
        (systemStep_registry h (.message c (s.serverCtx c ctx) msg w)
          (fun _ h => nomatch h) (fun _ h => nomatch h))
    simp only [sessionStep, dispatchMessage]
    split
    · dsimp only
      split
      · exact hs.trans (closePrincipal_consent pa (systemStep_inv s.system _ h) c)
      · exact hs
    · exact .refl _
  | closed c => exact closePrincipal_consent pa h c
  | pickerRound now re e => exact (s.servicePickerRound_runs pa now re e).consent
  | agentWoken c a =>
    simp only [sessionStep, deliverAgentCopy]
    split
    · exact .refl _
    · split_ifs <;> exact .refl _
  | realmWoken rea a =>
    simp only [sessionStep, deliverRealmCopy]
    split
    · exact .refl _
    · split_ifs <;> exact .refl _
  | locked | sweep | realmStarted | realmReaped | realmClosed | shutdown => exact .refl _

theorem session_shown (po : ConsentPolicy) (c : PetitionConfig) (ch : AttentionChord) (p : Bool)
    (ops : List SessionOp) : Shown ((sessionStep pa).exec (.new po c ch p) ops).consent := by
  have hb := Machine.exec_inv (M := sessionStep pa) (P := fun s => s.system.Inv ∧ Shown s.consent)
    (s := .new po c ch p)
    (fun s op h => ⟨(sessionStep_system pa s op).inv systemStep_inv h.1,
      (sessionStep_consent pa h.1 op).inv (consentStep_shown pa) h.2⟩)
    ⟨.new po c ch, .new po c⟩ ops
  exact hb.2

/-- **The session refines its parts.** Seen through its stores and connections, a run of the session is a run of
`systemStep` that calls the same sinks in the same order; seen through its grab, it is a run of `consentStep`. -/
theorem session_refines (paint : Painter) (policy : ConsentPolicy) (config : PetitionConfig) (chord : AttentionChord)
    (pickerRoot : Bool) (ops : List SessionOp) :
    let start := Session.new policy config chord pickerRoot
    let s := (sessionStep paint).exec start ops
    systemStep.Runs (·.calls) start.system (((sessionStep paint).outs start ops).flatMap (·.calls)) s.system ∧
      (consentStep paint).Reaches start.consent s.consent := by
  dsimp only
  induction ops using List.reverseRecOn with
  | nil => exact ⟨.refl _ _, .refl _⟩
  | append_singleton past op ih =>
    have hi := session_inv paint policy config chord pickerRoot past
    rw [Machine.exec_concat, Machine.outs_append, List.flatMap_append]
    exact ⟨by simpa using ih.1.trans (sessionStep_system paint _ op), ih.2.trans (sessionStep_consent paint hi op)⟩

end Vitrin
