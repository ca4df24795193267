import Vitrin.Core.Petitions
import Vitrin.Lib.Machine

/-!
# Runs of the petition registry

The registry as a machine: any order of admissions, human and scripted decisions,
sweeps, withdrawals and prompt marks, at any instants. Three things hold of every run
from an empty registry.

* The admission caps hold in every state (`capped_exec`).
* A petition id is minted once, and a petition that leaves leaves for good, through a
  door that fits it (`Door`).
* A grant that comes out of any operation is within a petition that was admitted:
  the operation's own, or an earlier one still pending under the id it resolves
  (`origin_exec`).

`consent_never_widens` puts them together.
-/

namespace Vitrin

open Lib PetitionRegistry OrdMap

inductive PetitionOp where
  | registerConnection
  | admitPetition (req : PetitionRequest) (now : Instant) (realms : RealmRegistry) (layoutArrangeHeld : Bool)
  | resolveHuman (petition : PetitionId) (choice : Choice)
  | resolveScripted (petition : PetitionId) (decision : ScriptedDecision)
  | expireDue (now : Instant)
  | withdrawConnection (connection : ConnectionId)
  | markPromptShown (petition : PetitionId)
  | markPromptHidden (petition : PetitionId)

inductive PetitionOut where
  | registered (connection : ConnectionId)
  | admission (answer : Admission)
  | human (answer : Except HumanDecisionError Resolution)
  | scripted (answer : Except ScriptedError Resolution)
  | expired (resolutions : List Resolution)
  | withdrawn (count : Nat)
  | marked (pending : Bool)

def petitionStep : Machine PetitionRegistry PetitionOp PetitionOut := fun r op => match op with
  | .registerConnection => (r.registerConnection.1, .registered r.registerConnection.2)
  | .admitPetition req now realms held =>
    ((r.admitPetition req now realms held).1, .admission (r.admitPetition req now realms held).2)
  | .resolveHuman id choice => ((r.resolveHuman id choice).1, .human (r.resolveHuman id choice).2)
  | .resolveScripted id d => ((r.resolveScripted id d).1, .scripted (r.resolveScripted id d).2)
  | .expireDue now => ((r.expireDue now).1, .expired (r.expireDue now).2)
  | .withdrawConnection c => ((r.withdrawConnection c).1, .withdrawn (r.withdrawConnection c).2)
  | .markPromptShown id => ((r.markPromptShown id).1, .marked (r.markPromptShown id).2)
  | .markPromptHidden id => ((r.markPromptHidden id).1, .marked (r.markPromptHidden id).2)

theorem petitionStep_evolves (r : PetitionRegistry) (op : PetitionOp) : r.Evolves (petitionStep r op).1 := by
  cases op with
  | registerConnection => exact r.registerConnection_evolves
  | admitPetition req now realms held => exact r.admitPetition_evolves req now realms held
  | resolveHuman id c => exact (r.resolveHuman_cases id c).evolves
  | resolveScripted id d => exact (r.resolveScripted_cases id d).evolves
  | expireDue | withdrawConnection => exact r.retain_evolves _
  | markPromptShown id => exact r.setShown_evolves id true
  | markPromptHidden id => exact r.setShown_evolves id false

theorem petition_exec_evolves {r : PetitionRegistry} (ops : List PetitionOp) : r.Evolves (petitionStep.exec r ops) :=
  Machine.exec_inv (fun s op h => h.trans (petitionStep_evolves s op)) (.refl r) ops

/-! ### The caps -/

/-- Neither cap is exceeded. -/
structure Capped (r : PetitionRegistry) : Prop where
  total : r.pending.size ≤ r.config.maxPendingGlobal
  perIdentity : ∀ identity, r.pendingForIdentity identity ≤ r.config.maxPendingPerIdentity

variable {r : PetitionRegistry}

theorem Capped.retain (h : Capped r) (k : PetitionId → PendingPetition → Bool) : Capped (r.retain k) := by
  refine ⟨?_, fun i => (count_filter_le _ _ _).trans (h.perIdentity i)⟩
  rw [size_eq_count]
  exact (count_filter_le _ _ _).trans (size_eq_count r.pending ▸ h.total)

theorem Capped.setShown (h : Capped r) (id : PetitionId) (s : Bool) : Capped (r.setShown id s) := by
  refine ⟨?_, fun i => ?_⟩
  · simpa [OrdMap.size, PetitionRegistry.setShown, OrdMap.modify, OrdMap.mapVals] using h.total
  · have hc : (r.setShown id s).pendingForIdentity i = r.pendingForIdentity i := by
      simp only [PetitionRegistry.pendingForIdentity, PetitionRegistry.setShown, OrdMap.modify, OrdMap.count_mapVals]
      exact OrdMap.count_congr fun i' p _ => by split <;> rfl
    exact hc ▸ h.perIdentity i

variable {req : PetitionRequest} {rung : PersistenceRung} {held : Bool} {realms : RealmRegistry}

theorem Capped.push (h : Capped r) {re : RealmId} (ha : r.Admissible req realms held re rung) (now : Instant) :
    Capped (r.push (r.pendingOf req now realms re rung)) := by
  have hf := r.get?_nextPetitionId
  refine ⟨?_, fun i => ?_⟩
  · have := ha.globalCap
    rw [size_eq_count] at this
    simp only [size_eq_count, PetitionRegistry.push, count_insert_fresh hf, if_true]
    omega
  · simp only [PetitionRegistry.pendingForIdentity, PetitionRegistry.push, count_insert_fresh hf]
    have hold : r.pending.count (fun _ p => decide (p.identity = i)) ≤ r.config.maxPendingPerIdentity :=
      h.perIdentity i
    by_cases hi : req.identity = i
    · subst hi
      have := ha.identityCap
      simp only [PetitionRegistry.pendingForIdentity] at this
      split <;> omega
    · simpa [PetitionRegistry.pendingOf, hi] using hold

theorem petitionStep_capped (r : PetitionRegistry) (op : PetitionOp) (h : Capped r) : Capped (petitionStep r op).1 := by
  cases op with
  | registerConnection => exact ⟨h.total, h.perIdentity⟩
  | admitPetition req now realms held =>
    simp only [petitionStep]
    rcases r.admitPetition_cases req now realms held with ⟨o, he⟩ | ⟨re, rung, ha, ⟨-, he⟩ | ⟨-, he⟩⟩
    · rwa [he]
    · rwa [he]
    · rw [he]
      exact h.push ha now
  | resolveHuman id c => exact (r.resolveHuman_cases id c).keeps h (h.retain _)
  | resolveScripted id d => exact (r.resolveScripted_cases id d).keeps h (h.retain _)
  | expireDue | withdrawConnection => exact h.retain _
  | markPromptShown id => exact h.setShown id true
  | markPromptHidden id => exact h.setShown id false

variable (policy : ConsentPolicy)

theorem capped_exec (config : PetitionConfig) (ops : List PetitionOp) :
    Capped (petitionStep.exec (.new policy config) ops) :=
  Machine.exec_inv petitionStep_capped ⟨Nat.zero_le _, fun _ => Nat.zero_le _⟩ ops

/-! ### Leaving -/

/-- The operation is a way out for petition `id`, whose pending record is `p`. -/
def Door (id : PetitionId) (p : PendingPetition) : PetitionOp → Prop
  | .resolveHuman petition _ => petition = id
  | .resolveScripted petition _ => petition = id
  | .expireDue now => p.deadline ≤ now
  | .withdrawConnection connection => connection = p.connection
  | _ => False

variable {id : PetitionId} {p : PendingPetition}

theorem dropped_eq {pe : PetitionId} (hp : r.pending.get? id = some p)
    (hg : (r.drop pe).pending.get? id = none) : pe = id := by
  by_contra hn
  have : (r.drop pe).pending.get? id = some p := get?_drop.mpr ⟨fun h => hn h.symm, hp⟩
  rw [hg] at this
  cases this

theorem decided_eq {ε : Type} {x : PetitionRegistry × Except ε Resolution} {pe : PetitionId} (h : r.Decided pe x)
    (hp : r.pending.get? id = some p) : x.1.pending.get? id = none → pe = id :=
  h.keeps (P := fun r' => r'.pending.get? id = none → pe = id) (fun hg => nomatch hp.symm.trans hg) (dropped_eq hp)

variable {op : PetitionOp}

theorem door_of_leaves (hp : r.pending.get? id = some p) (hg : (petitionStep r op).1.pending.get? id = none) :
    Door id p op := by
  cases op with
  | registerConnection => simp [petitionStep, registerConnection, hp] at hg
  | admitPetition req now realms held =>
    simp only [petitionStep] at hg
    rcases r.admitPetition_cases req now realms held with ⟨o, he⟩ | ⟨re, rung, -, ⟨-, he⟩ | ⟨-, he⟩⟩
    · simp [he, hp] at hg
    · simp [he, hp] at hg
    · rw [he, get?_push] at hg
      split at hg
      · cases hg
      · simp [hp] at hg
  | resolveHuman pe ch => exact decided_eq (r.resolveHuman_cases pe ch) hp hg
  | resolveScripted pe d => exact decided_eq (r.resolveScripted_cases pe d) hp hg
  | expireDue now =>
    by_contra hl
    have : (r.expireDue now).1.pending.get? id = some p := get?_expireDue.mpr ⟨hp, not_le.mp hl⟩
    simp [petitionStep, this] at hg
  | withdrawConnection c =>
    by_contra hn
    have : (r.withdrawConnection c).1.pending.get? id = some p := get?_withdrawConnection.mpr ⟨hp, fun h => hn h.symm⟩
    simp [petitionStep, this] at hg
  | markPromptShown pe =>
    simp only [petitionStep, markPromptShown, get?_setShown] at hg
    split at hg <;> simp [hp] at hg
  | markPromptHidden pe =>
    simp only [petitionStep, markPromptHidden, get?_setShown] at hg
    split at hg <;> simp [hp] at hg

/-! ### Where a pending petition comes from -/

/-- The operations `past`, run from an empty registry, admitted `req` under `id`. -/
def AdmittedAs (policy : ConsentPolicy) (config : PetitionConfig) (past : List PetitionOp) (req : PetitionRequest)
    (id : PetitionId) : Prop :=
  ∃ pre now realms held post, past = pre ++ .admitPetition req now realms held :: post ∧
    (petitionStep (petitionStep.exec (.new policy config) pre) (.admitPetition req now realms held)).2 =
      .admission (.pending id)

variable {config : PetitionConfig} {pa : List PetitionOp}

theorem AdmittedAs.append {policy : ConsentPolicy} (h : AdmittedAs policy config pa req id) (op : PetitionOp) :
    AdmittedAs policy config (pa ++ [op]) req id := by
  obtain ⟨pr, now, realms, held, po, rfl, hou⟩ := h
  exact ⟨pr, now, realms, held, po ++ [op], by simp, hou⟩

/-- An approved grant within a petition: its principal and realm, the whole realm as its resource,
some of its verbs, and no longer lifetime, later expiry or higher rate than it asked for. -/
structure ApprovedGrant.Within (config : PetitionConfig) (req : PetitionRequest) (g : ApprovedGrant) : Prop where
  identity : g.identity = req.identity
  realm : g.realm = ⟨req.realmName⟩
  resource : req.resource = "" ∧ g.toSpec.resourceRef = .wholeRealm
  nonEmpty : g.effective.verbs.bits ≠ 0#32
  verbs : req.verbs.contains g.effective.verbs = true
  persistence : ∃ rung : PersistenceRung, req.persistence = rung.toWire ∧ g.effective.persistence.narrows rung = true
  expiry : ExpiryNoLater g.effective.expiryMs req.expiryMs
  rate : g.effective.maxEventRate.val ≤
    if req.maxEventRate = 0 then config.defaultMaxEventRate.val else req.maxEventRate

theorem resolveRate_val (r : PetitionRegistry) (n : UInt32) :
    (r.resolveRate n).val = if n = 0 then r.config.defaultMaxEventRate.val else n := by
  unfold resolveRate NonZeroU32.new
  split <;> rfl

variable {g : ApprovedGrant}

theorem within_of_narrows {re : RealmId} (ha : r.Admissible req realms held re rung)
    (hi : g.identity = req.identity) (hr : g.realm = re) (hn : g.effective.Narrows (r.requestedOf req rung)) :
    g.Within r.config req where
  identity := hi
  realm := hr.trans (RealmRegistry.resolveForPetition_eq_some ha.realm)
  resource := ⟨ha.resource, rfl⟩
  nonEmpty := hn.nonEmpty
  verbs := hn.verbs
  persistence := ⟨rung, PersistenceRung.tryFrom_eq_ok_iff.mp ha.rung, hn.persistence⟩
  expiry := hn.expiry
  rate := resolveRate_val r req.maxEventRate ▸ hn.rate

/-- Whatever narrows a pending petition is within the request it was admitted from. -/
def FromRequest (config : PetitionConfig) (req : PetitionRequest) (p : PendingPetition) : Prop :=
  ∀ g : ApprovedGrant, g.identity = p.identity → g.realm = p.realm → g.effective.Narrows p.requested →
    g.Within config req

theorem FromRequest.same {p' : PendingPetition} (h : FromRequest config req p) (hs : p'.Same p) :
    FromRequest config req p' := fun g hi hr hn =>
  h g (hi.trans hs.identity) (hr.trans hs.realm) (hs.requested ▸ hn)

/-- An admission that parks a petition parks it under the next id, and as the request had it. -/
theorem admitted_pending {now : Instant} (h : (r.admitPetition req now realms held).2 = .pending id) :
    id = r.nextPetitionId ∧ ∃ p, (r.admitPetition req now realms held).1 = r.push p ∧ FromRequest r.config req p := by
  rcases r.admitPetition_cases req now realms held with ⟨o, he⟩ | ⟨re, rung, ha, ⟨-, he⟩ | ⟨-, he⟩⟩
  · simp [he] at h
  · simp [he] at h
  · rw [he] at h ⊢
    cases h
    exact ⟨rfl, _, rfl, fun g hi hr hn => within_of_narrows ha hi hr hn⟩

theorem admitted_granted {now : Instant} {res : Resolution}
    (h : (r.admitPetition req now realms held).2 = .resolved res) (hg : res.verdict = .granted g) :
    g.Within r.config req := by
  rcases r.admitPetition_cases req now realms held with ⟨o, he⟩ | ⟨re, rung, ha, ⟨-, he⟩ | ⟨-, he⟩⟩
  · rw [he] at h
    cases h
    cases hg
  · rw [he] at h
    cases h
    cases hg
    exact within_of_narrows ha rfl rfl (.refl req.nonEmpty)
  · simp [he] at h

theorem new_pending (h : (petitionStep r op).1.pending.get? id = some p) (hi : r.nextPetitionId ≤ id) :
    ∃ req now realms held, op = .admitPetition req now realms held ∧
      (petitionStep r op).2 = .admission (.pending id) ∧ FromRequest r.config req p := by
  have hm := (petitionStep r op).1.minted id p h
  cases op with
  | admitPetition req now realms held =>
    refine ⟨req, now, realms, held, rfl, ?_⟩
    simp only [petitionStep] at h hm ⊢
    cases ha : (r.admitPetition req now realms held).2 with
    | pending i' =>
      obtain ⟨rfl, p', he, hf⟩ := admitted_pending ha
      rw [he] at h hm
      have hi' : id = r.nextPetitionId := le_antisymm (Nat.lt_succ_iff.mp hm) hi
      subst hi'
      rw [get?_push, if_pos rfl] at h
      cases h
      exact ⟨rfl, hf⟩
    | resolved res =>
      have hs : (r.admitPetition req now realms held).1 = r := by
        rcases r.admitPetition_cases req now realms held with ⟨o, he⟩ | ⟨re, rung, -, ⟨-, he⟩ | ⟨-, he⟩⟩
        · rw [he]
        · rw [he]
        · simp [he] at ha
      rw [hs] at hm
      exact absurd hi (not_le.mpr hm)
  | registerConnection | expireDue | withdrawConnection | markPromptShown | markPromptHidden =>
    exact absurd hi (not_le.mpr hm)
  | resolveHuman pe c => exact absurd hi (not_le.mpr (r.minted id p ((r.resolveHuman_cases pe c).pending h)))
  | resolveScripted pe d => exact absurd hi (not_le.mpr (r.minted id p ((r.resolveScripted_cases pe d).pending h)))

/-- Every pending petition was admitted from a request that bounds what approving it can confer. -/
theorem origin_exec (config : PetitionConfig) (ops : List PetitionOp) :
    ∀ id p, (petitionStep.exec (.new policy config) ops).pending.get? id = some p →
      ∃ req, AdmittedAs policy config ops req id ∧ FromRequest config req p := by
  refine Machine.exec_past (M := petitionStep) (P := fun pa r => ∀ id p, r.pending.get? id = some p →
    ∃ req, AdmittedAs policy config pa req id ∧ FromRequest config req p) ?_ ?_ ops
  · intro id p h
    cases h
  · intro pa op ih id p h
    have hc : (petitionStep.exec (.new policy config) pa).config = config := (petition_exec_evolves pa).config
    by_cases hi : id < (petitionStep.exec (.new policy config) pa).nextPetitionId
    · obtain ⟨p₀, hp₀, hs⟩ := (petitionStep_evolves _ op).pending id p h hi
      obtain ⟨req, ha, hf⟩ := ih id p₀ hp₀
      exact ⟨req, ha.append op, hf.same hs⟩
    · obtain ⟨req, now, realms, held, rfl, hou, hf⟩ := new_pending h (not_lt.mp hi)
      exact ⟨req, ⟨pa, now, realms, held, [], rfl, hou⟩, hc ▸ hf⟩

/-! ### The registry as a whole -/

def PetitionOut.approvals : PetitionOut → List ApprovedGrant
  | .admission (.resolved ⟨_, _, _, _, .granted g⟩) => [g]
  | .human (.ok ⟨_, _, _, _, .granted g⟩) => [g]
  | .scripted (.ok ⟨_, _, _, _, .granted g⟩) => [g]
  | .expired resolutions => resolutions.filterMap fun res => match res.verdict with
    | .granted g => some g
    | .declined _ => none
  | _ => []

/-- The operation decides `req`: it admits it, or resolves the id an earlier operation admitted it as. -/
def Decides (policy : ConsentPolicy) (config : PetitionConfig) (past : List PetitionOp) (req : PetitionRequest) :
    PetitionOp → Prop
  | .admitPetition req' _ _ _ => req' = req
  | .resolveHuman id _ => AdmittedAs policy config past req id
  | .resolveScripted id _ => AdmittedAs policy config past req id
  | _ => False

open PetitionOut (approvals)

theorem mem_approvals {o : PetitionOut} {re : Resolution}
    (ho : o = .admission (.resolved re) ∨ o = .human (.ok re) ∨ o = .scripted (.ok re)) (h : g ∈ o.approvals) :
    re.verdict = .granted g := by
  obtain ⟨c, gw, cw, e, v⟩ := re
  rcases ho with rfl | rfl | rfl <;> cases v <;> simp_all [approvals]

/-- A grant that comes out of an operation is within the petition the operation decides. -/
theorem approvals_within (config : PetitionConfig) (pa : List PetitionOp) (op : PetitionOp)
    (hg : g ∈ (petitionStep (petitionStep.exec (.new policy config) pa) op).2.approvals) :
    ∃ req, Decides policy config pa req op ∧ g.Within config req := by
  have hc : (petitionStep.exec (.new policy config) pa).config = config := (petition_exec_evolves pa).config
  have hor := origin_exec policy config pa
  generalize petitionStep.exec (.new policy config) pa = r at hg hc hor
  have hd : ∀ {id : PetitionId} {p : PendingPetition} {re : Resolution}, r.pending.get? id = some p →
      re.Decides p → re.verdict = .granted g → ∃ req, AdmittedAs policy config pa req id ∧ g.Within config req := by
    intro id p re hp hr hv
    obtain ⟨req, ha, hf⟩ := hor id p hp
    obtain ⟨hi, hre, hn⟩ := hr.granted g hv
    exact ⟨req, ha, hf g hi hre hn⟩
  cases op with
  | admitPetition req now realms held =>
    refine ⟨req, rfl, hc ▸ ?_⟩
    simp only [petitionStep] at hg
    cases ha : (r.admitPetition req now realms held).2 with
    | pending id => simp [ha, approvals] at hg
    | resolved re =>
      rw [ha] at hg
      exact admitted_granted ha (mem_approvals (.inl rfl) hg)
  | resolveHuman id ch =>
    simp only [petitionStep] at hg
    rcases r.resolveHuman_cases id ch with ⟨er, he⟩ | ⟨p, re, hp, he, hr⟩
    · simp [he, approvals] at hg
    · rw [he] at hg
      exact hd hp hr (mem_approvals (.inr (.inl rfl)) hg)
  | resolveScripted id d =>
    simp only [petitionStep] at hg
    rcases r.resolveScripted_cases id d with ⟨er, he⟩ | ⟨p, re, hp, he, hr⟩
    · simp [he, approvals] at hg
    · rw [he] at hg
      exact hd hp hr (mem_approvals (.inr (.inr rfl)) hg)
  | expireDue now =>
    simp only [petitionStep, approvals, List.mem_filterMap] at hg
    obtain ⟨re, hr, hv⟩ := hg
    simp [expireDue_declined hr] at hv
  | registerConnection | withdrawConnection | markPromptShown | markPromptHidden =>
    simp [petitionStep, approvals] at hg

theorem AdmittedAs.lt {policy : ConsentPolicy} (h : AdmittedAs policy config pa req id) :
    id < (petitionStep.exec (.new policy config) pa).nextPetitionId := by
  obtain ⟨pr, now, realms, held, po, rfl, hou⟩ := h
  simp only [petitionStep, PetitionOut.admission.injEq] at hou
  obtain ⟨rfl, p, he, -⟩ := admitted_pending hou
  rw [Machine.exec_append, Machine.exec_cons]
  refine lt_of_lt_of_le ?_ (petition_exec_evolves po).nextPetitionId
  simp only [petitionStep, he]
  exact Nat.lt_succ_self _

theorem parked_id (h : (petitionStep r op).2 = .admission (.pending id)) : id = r.nextPetitionId := by
  cases op with
  | admitPetition req now realms held => exact (admitted_pending (PetitionOut.admission.inj h)).1
  | _ => cases h

theorem scripted_rejected {er : ScriptedError} (h : (petitionStep r op).2 = .scripted (.error er)) :
    (petitionStep r op).1 = r := by
  cases op with
  | resolveScripted id d =>
    rcases r.resolveScripted_cases id d with ⟨e, he⟩ | ⟨p, re, -, he, -⟩
    · simp [petitionStep, he]
    · simp [petitionStep, he] at h
  | _ => cases h

/-- **Consent never widens and never answers twice**, over every run of the registry from empty.

The caps hold. Looking at any one operation of the run: if it parks a petition, the id is new; if it
takes a petition out, it is one of the four doors and fits that petition, and from then on the id is
not pending and cannot be resolved; whatever grant it hands out is within the petition it decides; and
if it is a scripted decision that is rejected, the registry is as it was. -/
theorem consent_never_widens (policy : ConsentPolicy) (config : PetitionConfig) (ops : List PetitionOp) :
    let run := petitionStep.exec (.new policy config)
    ((run ops).pending.size ≤ config.maxPendingGlobal ∧
      ∀ i, (run ops).pendingForIdentity i ≤ config.maxPendingPerIdentity) ∧
    ∀ pr op po, ops = pr ++ op :: po →
      let b := run pr
      let a := (petitionStep b op).1
      let o := (petitionStep b op).2
      (∀ id, o = .admission (.pending id) →
        b.pending.get? id = none ∧ ∀ req, ¬ AdmittedAs policy config pr req id) ∧
      (∀ id p, b.pending.get? id = some p → a.pending.get? id = none →
        Door id p op ∧ ∀ m re, po = m ++ re →
          let l := run (pr ++ op :: m)
          l.pending.get? id = none ∧
          (∀ c, l.resolveHuman id c = (l, .error .notPending)) ∧
          ∀ d, l.resolveScripted id d = (l, .error .notPending)) ∧
      (∀ g ∈ o.approvals, ∃ req, Decides policy config pr req op ∧ g.Within config req) ∧
      ∀ e, o = .scripted (.error e) → a = b := by
  intro run
  have hco : ∀ ops, (run ops).config = config := fun ops => (petition_exec_evolves ops).config
  have hc := capped_exec policy config ops
  refine ⟨⟨hco ops ▸ hc.total, fun i => hco ops ▸ hc.perIdentity i⟩, ?_⟩
  intro pr op po _ b a o
  refine ⟨fun id hou => ?_, fun id p hp hgo => ⟨door_of_leaves hp hgo, fun m re _ => ?_⟩,
    fun g hg => approvals_within policy config pr op hg, fun e hou => scripted_rejected hou⟩
  · obtain rfl := parked_id hou
    exact ⟨b.get?_nextPetitionId, fun req ha => lt_irrefl _ ha.lt⟩
  · have he : a.Evolves (run (pr ++ op :: m)) := by
      simp only [run, Machine.exec_append]
      exact petition_exec_evolves m
    have hl : id < a.nextPetitionId :=
      (b.minted id p hp).trans_le (petitionStep_evolves b op).nextPetitionId
    have hn := he.get?_none hl hgo
    exact ⟨hn, resolveHuman_of_none hn, resolveScripted_of_none hn⟩

/-- A run that admits a petition and lets the human allow it once: the grant that comes out is the
petition's, at the narrower rung. -/
theorem consent_never_widens_allow_once :
    let admitted : PetitionOp := .admitPetition Sample.request 0 Sample.realms false
    let b := petitionStep.exec (.new .interactive .default) [admitted]
    ∃ g ∈ (petitionStep b (.resolveHuman 1 (.allow .once))).2.approvals,
      g.effective.persistence = .once ∧
        ∃ req, AdmittedAs .interactive .default [admitted] req 1 ∧ g.Within .default req := by
  intro admitted b
  obtain ⟨-, hr⟩ := consent_never_widens .interactive .default [admitted, .resolveHuman 1 (.allow .once)]
  obtain ⟨-, -, hw, -⟩ := hr [admitted] (.resolveHuman 1 (.allow .once)) [] rfl
  refine ⟨⟨Sample.agent, Sample.realm, { Sample.pending.requested with persistence := .once }, .humanConsent⟩,
    ?_, rfl, ?_⟩
  · decide
  · exact hw _ (by decide)

end Vitrin
