import Vitrin.Core.Grants
import Mathlib.Data.String.Basic

/-!
# Petitions

A principal petitions for authority; admission refuses it at once, grants it at once
(auto-approve), or parks it until the human decides, a script decides, its deadline
passes or its connection goes away. No operation here writes the grant table: an
approval is a value, `ApprovedGrant`, that the connection turns into a row when the
resolution is delivered.

`PetitionRegistry` keeps the pending petitions by id, with the proof that every
pending id has been minted. `admitPetition` runs its policy checks in the order of the
source; each refusal names its outcome. A `PetitionRequest` carries the proof that
it names a verb, which the connection checks before it builds one. The realm registry
is the slice of it that admission reads: names, states and the audited command of
each realm.

Authority only narrows on the way: `EffectiveAuthority.Narrows` is the order the three
approval paths respect.
-/

namespace Vitrin

open Lib

/-! ### Realms, as admission sees them -/

instance : LinearOrder RealmId :=
  LinearOrder.lift' RealmId.name fun a b h => by cases a; cases b; simp_all

/-- A command an operator's realm file names and the loader audited. -/
structure AuditedCommand where
  path : String

structure SpawnConfig where
  command : String

/-- The command, as the consent card may show it. -/
def SpawnConfig.auditedCommand (c : SpawnConfig) : AuditedCommand := ⟨c.command⟩

inductive RealmState where
  /-- Described and addressable; no process yet. -/
  | configured
  /-- Never runs itself; instances are launched from it. -/
  | template
  | running (pid : Nat)
  | exited (pid : Nat)
  deriving DecidableEq

structure Realm where
  id : RealmId
  spawn : SpawnConfig
  state : RealmState

def Realm.admitsPetitions (r : Realm) : Bool := match r.state with
  | .configured => true
  | .template => true
  | .running _ => true
  | .exited _ => false

structure RealmRegistry where
  realms : OrdMap RealmId Realm
  keyed : ∀ id r, realms.get? id = some r → r.id = id

namespace RealmRegistry

/-- The realm with this name, whatever its state. -/
def get (rs : RealmRegistry) (name : String) : Option Realm := rs.realms.get? ⟨name⟩

/-- The realm id a petition's name denotes; unknown and vacant are not told apart. -/
def resolveForPetition (rs : RealmRegistry) (name : String) : Option RealmId :=
  ((rs.realms.get? ⟨name⟩).filter Realm.admitsPetitions).map Realm.id

theorem resolveForPetition_eq_some {rs : RealmRegistry} {n : String} {id : RealmId}
    (h : rs.resolveForPetition n = some id) : id = ⟨n⟩ := by
  simp only [resolveForPetition, Option.map_eq_some_iff, Option.filter_eq_some_iff] at h
  obtain ⟨r, ⟨hr, -⟩, rfl⟩ := h
  exact rs.keyed _ r hr

end RealmRegistry

/-! ### Requests and authority -/

/-- How petitions are decided. -/
inductive ConsentPolicy where
  | interactive
  | autoApprove
  deriving DecidableEq

/-- The deployment's petition policy. -/
structure PetitionConfig where
  /-- How long a petition may wait. -/
  consentTimeout : Duration
  maxPendingPerIdentity : Nat
  maxPendingGlobal : Nat
  defaultMaxEventRate : NonZeroU32

def PetitionConfig.default : PetitionConfig where
  consentTimeout := secs 120
  maxPendingPerIdentity := 4
  maxPendingGlobal := 16
  defaultMaxEventRate := ⟨20, NonZeroU32.twenty⟩

/-- A decoded petition, as the connection hands it over. -/
structure PetitionRequest where
  connection : ConnectionId
  /-- The identity the connection's credential was verified to be. -/
  identity : PrincipalIdentity
  realmName : String
  grantWireId : WireId
  consentWireId : WireId
  resource : String
  verbs : Verb
  /-- Zero leaves the lifetime to the rung. -/
  expiryMs : UInt32
  /-- Zero asks for the deployment's default. -/
  maxEventRate : UInt32
  persistence : WirePersistence
  flags : UInt32
  /-- The connection refuses an empty verb set before it builds a request. -/
  nonEmpty : verbs.bits ≠ 0#32

/-- The authority a petition asks for, or an approval confers. -/
structure EffectiveAuthority where
  verbs : Verb
  persistence : PersistenceRung
  expiryMs : UInt32
  maxEventRate : NonZeroU32
  deriving DecidableEq

/-- A lifetime of `ms` ends no later than one of `bound`, zero being unbounded. -/
def ExpiryNoLater (ms bound : UInt32) : Prop := bound = 0 ∨ (ms ≠ 0 ∧ ms ≤ bound)

instance (ms bound : UInt32) : Decidable (ExpiryNoLater ms bound) := inferInstanceAs (Decidable (_ ∨ _))

/-- `a` is no more than `b` in every respect, and not nothing. -/
structure EffectiveAuthority.Narrows (a b : EffectiveAuthority) : Prop where
  nonEmpty : a.verbs.bits ≠ 0#32
  verbs : b.verbs.contains a.verbs = true
  persistence : a.persistence.narrows b.persistence = true
  expiry : ExpiryNoLater a.expiryMs b.expiryMs
  rate : a.maxEventRate.val ≤ b.maxEventRate.val

theorem ExpiryNoLater.refl (ms : UInt32) : ExpiryNoLater ms ms := by
  by_cases h : ms = 0
  · exact .inl h
  · exact .inr ⟨h, UInt32.le_refl ms⟩

theorem EffectiveAuthority.Narrows.refl {a : EffectiveAuthority} (h : a.verbs.bits ≠ 0#32) : a.Narrows a where
  nonEmpty := h
  verbs := a.verbs.contains_self
  persistence := a.persistence.narrows_refl
  expiry := .refl a.expiryMs
  rate := UInt32.le_refl _

structure PendingPetition where
  connection : ConnectionId
  identity : PrincipalIdentity
  realm : RealmId
  grantWireId : WireId
  consentWireId : WireId
  requested : EffectiveAuthority
  deadline : Instant
  promptShown : Bool
  launchCommand : Option AuditedCommand
  nonEmpty : requested.verbs.bits ≠ 0#32

/-- An approval: what a delivered resolution turns into a row. -/
structure ApprovedGrant where
  identity : PrincipalIdentity
  realm : RealmId
  effective : EffectiveAuthority
  issuer : Issuer
  deriving DecidableEq

def ApprovedGrant.toSpec (g : ApprovedGrant) : GrantSpec where
  principalId := g.identity
  realmId := g.realm
  resourceRef := .wholeRealm
  verbs := g.effective.verbs
  expiry := if g.effective.expiryMs = 0 then none else some (millis g.effective.expiryMs.toNat)
  maxEventRate := g.effective.maxEventRate
  persistence := g.effective.persistence
  issuer := g.issuer

/-- Mint the row; its lifetime starts now, at delivery. -/
def ApprovedGrant.insertRow (g : ApprovedGrant) (grants : GrantTable) (now : Instant) :
    Except InsertError (GrantTable × GrantId) :=
  grants.insert g.toSpec now

/-- How a petition was decided. -/
inductive Verdict where
  | granted (grant : ApprovedGrant)
  | declined (outcome : Outcome)
  deriving DecidableEq

/-- A decision on its way to the connection that petitioned. -/
structure Resolution where
  connection : ConnectionId
  grantWireId : WireId
  consentWireId : WireId
  /-- The consent observer hears that its prompt closed. -/
  emitClosed : Bool
  verdict : Verdict

/-- What becomes of a petition that is let in. -/
inductive Admission where
  | resolved (resolution : Resolution)
  | pending (petition : PetitionId)

/-- Where a prompt's state is announced. -/
structure PromptRoute where
  connection : ConnectionId
  consentWireId : WireId

/-- What the human can press. -/
inductive Choice where
  | allow (rung : PersistenceRung)
  | deny
  deriving DecidableEq

inductive HumanDecisionError where
  | notPending
  /-- The chosen rung outlives the petitioned one. -/
  | wouldWiden
  deriving DecidableEq

inductive ScriptedDecision where
  | approve (verbs : Verb) (persistence : PersistenceRung) (expiryMs : UInt32)
  | deny
  deriving DecidableEq

/-- Why a scripted decision was not taken. -/
inductive ScriptedError where
  | notPending
  | invalidDecision (detail : String)
  deriving DecidableEq

/-- What pressing a button approves: the petitioned authority at the chosen rung, or nothing. -/
def Choice.approved (requested : EffectiveAuthority) : Choice → Except HumanDecisionError (Option EffectiveAuthority)
  | deny => .ok none
  | allow rung =>
    if !rung.narrows requested.persistence then .error .wouldWiden
    else .ok (some { requested with persistence := rung })

/-- What a script's decision approves, checked against the petition in four ways. -/
def ScriptedDecision.approved (requested : EffectiveAuthority) :
    ScriptedDecision → Except ScriptedError (Option EffectiveAuthority)
  | deny => .ok none
  | approve verbs persistence expiryMs =>
    if verbs.bits = 0#32 then .error (.invalidDecision "effective verb set is empty")
    else if !requested.verbs.contains verbs then
      .error (.invalidDecision "effective verbs outside the petitioned set")
    else if !persistence.narrows requested.persistence then
      .error (.invalidDecision "persistence rung longer-lived than petitioned")
    else if requested.expiryMs ≠ 0 ∧ (expiryMs = 0 ∨ requested.expiryMs < expiryMs) then
      .error (.invalidDecision "expiry later than the petitioned bound")
    else .ok (some { verbs, persistence, expiryMs, maxEventRate := requested.maxEventRate })

theorem Choice.approved_narrows {re a : EffectiveAuthority} {c : Choice}
    (hne : re.verbs.bits ≠ 0#32) (h : c.approved re = .ok (some a)) : a.Narrows re := by
  cases c with
  | deny => cases h
  | allow ru =>
    simp only [approved] at h
    split at h
    · cases h
    · rename_i hn
      cases h
      exact { EffectiveAuthority.Narrows.refl hne with persistence := by simpa using hn }

theorem ScriptedDecision.approved_narrows {re a : EffectiveAuthority} {d : ScriptedDecision}
    (h : d.approved re = .ok (some a)) : a.Narrows re := by
  cases d with
  | deny => cases h
  | approve v pe e =>
    simp only [approved] at h
    split_ifs at h with hv hs hn hx
    cases h
    refine ⟨hv, by simpa using hs, by simpa using hn, ?_, UInt32.le_refl _⟩
    by_cases h0 : re.expiryMs = 0
    · exact .inl h0
    · exact .inr ⟨fun he => hx ⟨h0, .inl he⟩, UInt32.not_lt.mp fun hl => hx ⟨h0, .inr hl⟩⟩

/-! ### The registry -/

/-- The pending petitions, the policy and the counters. -/
structure PetitionRegistry where
  policy : ConsentPolicy
  config : PetitionConfig
  pending : OrdMap PetitionId PendingPetition
  nextPetitionId : Nat
  nextConnectionId : Nat
  minted : ∀ id p, pending.get? id = some p → id < nextPetitionId

variable {r : PetitionRegistry} {id : PetitionId} {p : PendingPetition}

namespace PetitionRegistry

def new (policy : ConsentPolicy) (config : PetitionConfig) : PetitionRegistry where
  policy
  config
  pending := .empty
  nextPetitionId := 1
  nextConnectionId := 1
  minted := by simp

theorem get?_nextPetitionId : r.pending.get? r.nextPetitionId = none := by
  cases h : r.pending.get? r.nextPetitionId with
  | none => rfl
  | some p => exact absurd (r.minted _ p h) (lt_irrefl _)

def registerConnection (r : PetitionRegistry) : PetitionRegistry × ConnectionId :=
  ({ r with nextConnectionId := r.nextConnectionId + 1 }, r.nextConnectionId)

/-- Keep the petitions that satisfy `keep`. -/
def retain (r : PetitionRegistry) (keep : PetitionId → PendingPetition → Bool) : PetitionRegistry :=
  { r with
    pending := r.pending.filter keep
    minted := fun id p h => r.minted id p (OrdMap.get?_filter_eq_some.mp h).1 }

def drop (r : PetitionRegistry) (petition : PetitionId) : PetitionRegistry :=
  { r with
    pending := r.pending.erase petition
    minted := fun id p h => r.minted id p (OrdMap.get?_erase_eq_some.mp h).2 }

/-- Add a petition under the next id. -/
def push (r : PetitionRegistry) (p : PendingPetition) : PetitionRegistry :=
  { r with
    pending := r.pending.insert r.nextPetitionId p
    nextPetitionId := r.nextPetitionId + 1
    minted := by
      intro id p' h
      rw [OrdMap.get?_insert] at h
      split at h
      · rename_i hid
        exact hid ▸ Nat.lt_succ_self _
      · exact (r.minted id p' h).trans (Nat.lt_succ_self _) }

/-- Set the flag that says whether a petition's card is up. -/
def setShown (r : PetitionRegistry) (petition : PetitionId) (shown : Bool) : PetitionRegistry :=
  { r with
    pending := r.pending.modify petition fun p => { p with promptShown := shown }
    minted := by
      intro id p h
      rw [OrdMap.get?_modify] at h
      split at h
      · obtain ⟨p₀, h₀, -⟩ := Option.map_eq_some_iff.mp h
        exact r.minted id p₀ h₀
      · exact r.minted id p h }

def pendingForIdentity (r : PetitionRegistry) (identity : PrincipalIdentity) : Nat :=
  r.pending.count fun _ p => p.identity = identity

/-- The rate a petition asks for, the default for zero. -/
def resolveRate (r : PetitionRegistry) (requested : UInt32) : NonZeroU32 :=
  (NonZeroU32.new requested).getD r.config.defaultMaxEventRate

/-- Some pending petition names the exclusive layout verb. -/
def layoutArrangePending (r : PetitionRegistry) : Bool :=
  r.pending.entries.any fun x => x.2.requested.verbs.contains .layoutArrange

/-- What a petition asks for, defaults filled in. -/
def requestedOf (r : PetitionRegistry) (req : PetitionRequest) (rung : PersistenceRung) : EffectiveAuthority where
  verbs := req.verbs
  persistence := rung
  expiryMs := req.expiryMs
  maxEventRate := r.resolveRate req.maxEventRate

/-- The petition an interactive admission parks. -/
def pendingOf (r : PetitionRegistry) (req : PetitionRequest) (now : Instant) (realms : RealmRegistry)
    (realm : RealmId) (rung : PersistenceRung) : PendingPetition where
  connection := req.connection
  identity := req.identity
  realm
  grantWireId := req.grantWireId
  consentWireId := req.consentWireId
  requested := r.requestedOf req rung
  deadline := (checkedAdd now r.config.consentTimeout).getD now
  promptShown := false
  launchCommand :=
    if req.verbs.contains .realmLaunch then (realms.get realm.name).map (·.spawn.auditedCommand) else none
  nonEmpty := req.nonEmpty

/-- The policy checks, in order: the realm and rung of a petition that passes, the outcome of one
that does not. -/
def policyCheck (r : PetitionRegistry) (req : PetitionRequest) (realms : RealmRegistry)
    (layoutArrangeHeld : Bool) : Except Outcome (RealmId × PersistenceRung) :=
  match realms.resolveForPetition req.realmName with
  | none => .error .unavailable
  | some realm =>
    if req.flags ≠ 0 then .error .unsupported
    else if req.verbs.bits &&& Verb.unservedBits ≠ 0#32 then .error .unsupported
    else match PersistenceRung.tryFrom req.persistence with
      | .error _ => .error .unsupported
      | .ok rung =>
        if req.resource ≠ "" then .error .unsupported
        else if req.verbs.contains .layoutArrange ∧ (layoutArrangeHeld ∨ r.layoutArrangePending) then
          .error .layoutHeld
        else if r.config.maxPendingPerIdentity ≤ r.pendingForIdentity req.identity ∨
            r.config.maxPendingGlobal ≤ r.pending.size then
          .error .busy
        else .ok (realm, rung)

/-- Admit a petition: decline it, approve it on the spot, or park it. -/
def admitPetition (r : PetitionRegistry) (req : PetitionRequest) (now : Instant) (realms : RealmRegistry)
    (layoutArrangeHeld : Bool) : PetitionRegistry × Admission :=
  let resolved (emitClosed : Bool) (verdict : Verdict) : PetitionRegistry × Admission :=
    (r, .resolved
      { connection := req.connection
        grantWireId := req.grantWireId
        consentWireId := req.consentWireId
        emitClosed
        verdict })
  match r.policyCheck req realms layoutArrangeHeld with
  | .error outcome => resolved false (.declined outcome)
  | .ok (realm, rung) => match r.policy with
    | .autoApprove => resolved true (.granted
        { identity := req.identity
          realm
          effective := r.requestedOf req rung
          issuer := .autoApprovePolicy })
    | .interactive => (r.push (r.pendingOf req now realms realm rung), .pending r.nextPetitionId)

/-- Take out every petition whose deadline is reached, each declined `timedOut`, in id order. -/
def expireDue (r : PetitionRegistry) (now : Instant) : PetitionRegistry × List Resolution :=
  (r.retain fun _ p => now < p.deadline,
    (r.pending.entries.filter fun x => x.2.deadline ≤ now).map fun x =>
      { connection := x.2.connection
        grantWireId := x.2.grantWireId
        consentWireId := x.2.consentWireId
        emitClosed := true
        verdict := .declined .timedOut })

/-- Take out the petitions of a connection that is gone; how many there were. -/
def withdrawConnection (r : PetitionRegistry) (connection : ConnectionId) : PetitionRegistry × Nat :=
  let r' := r.retain fun _ p => p.connection ≠ connection
  (r', r.pending.size - r'.pending.size)

/-- Note that a petition's card is up. -/
def markPromptShown (r : PetitionRegistry) (petition : PetitionId) : PetitionRegistry × Bool :=
  (r.setShown petition true, (r.pending.get? petition).isSome)

/-- Note that a petition's card is down. -/
def markPromptHidden (r : PetitionRegistry) (petition : PetitionId) : PetitionRegistry × Bool :=
  (r.setShown petition false, (r.pending.get? petition).isSome)

def pendingDeadline (r : PetitionRegistry) (petition : PetitionId) : Option Instant :=
  (r.pending.get? petition).map (·.deadline)

def frontPending (r : PetitionRegistry) : Option PetitionId := r.pending.min?.map (·.1)

/-- Where a pending petition's prompt state is announced. -/
def pendingRoute (r : PetitionRegistry) (petition : PetitionId) : Option PromptRoute :=
  (r.pending.get? petition).map fun p => ⟨p.connection, p.consentWireId⟩

def promptUpFor (r : PetitionRegistry) (identity : PrincipalIdentity) : Bool :=
  r.pending.entries.any fun x => x.2.promptShown && x.2.identity = identity

/-- Take a decided petition out and state the decision. -/
def finish (r : PetitionRegistry) (petition : PetitionId) (p : PendingPetition)
    (approved : Option EffectiveAuthority) (issuer : Issuer) : PetitionRegistry × Resolution :=
  (r.drop petition,
    { connection := p.connection
      grantWireId := p.grantWireId
      consentWireId := p.consentWireId
      emitClosed := true
      verdict := match approved with
        | some effective => .granted { identity := p.identity, realm := p.realm, effective, issuer }
        | none => .declined .denied })

def resolveHuman (r : PetitionRegistry) (petition : PetitionId) (choice : Choice) :
    PetitionRegistry × Except HumanDecisionError Resolution :=
  match r.pending.get? petition with
  | none => (r, .error .notPending)
  | some p => match choice.approved p.requested with
    | .error err => (r, .error err)
    | .ok approved => ((r.finish petition p approved .humanConsent).1,
        .ok (r.finish petition p approved .humanConsent).2)

def resolveScripted (r : PetitionRegistry) (petition : PetitionId) (decision : ScriptedDecision) :
    PetitionRegistry × Except ScriptedError Resolution :=
  match r.pending.get? petition with
  | none => (r, .error .notPending)
  | some p => match decision.approved p.requested with
    | .error err => (r, .error err)
    | .ok approved => ((r.finish petition p approved .scriptedConsent).1,
        .ok (r.finish petition p approved .scriptedConsent).2)

/-! ### What each operation can do -/

theorem get?_retain {k : PetitionId → PendingPetition → Bool} :
    (r.retain k).pending.get? id = some p ↔ r.pending.get? id = some p ∧ k id p = true :=
  OrdMap.get?_filter_eq_some

theorem get?_drop {pe : PetitionId} : (r.drop pe).pending.get? id = some p ↔ id ≠ pe ∧ r.pending.get? id = some p :=
  OrdMap.get?_erase_eq_some

theorem get?_push : (r.push p).pending.get? id = if id = r.nextPetitionId then some p else r.pending.get? id :=
  OrdMap.get?_insert

theorem get?_setShown {pe id : PetitionId} {s : Bool} : (r.setShown pe s).pending.get? id =
      if id = pe then (r.pending.get? id).map fun p => { p with promptShown := s }
      else r.pending.get? id :=
  OrdMap.get?_modify

theorem layoutArrangePending_eq_false (h : r.layoutArrangePending = false) (hp : r.pending.get? id = some p) :
    p.requested.verbs.contains .layoutArrange = false := by
  simp only [layoutArrangePending, List.any_eq_false] at h
  simpa using h (id, p) (OrdMap.mem_entries_iff.mpr hp)

/-- A petition passes every policy check. -/
structure Admissible (r : PetitionRegistry) (req : PetitionRequest) (realms : RealmRegistry)
    (layoutArrangeHeld : Bool) (realm : RealmId) (rung : PersistenceRung) : Prop where
  realm : realms.resolveForPetition req.realmName = some realm
  rung : PersistenceRung.tryFrom req.persistence = .ok rung
  resource : req.resource = ""
  layout : req.verbs.contains .layoutArrange = true → layoutArrangeHeld = false ∧ r.layoutArrangePending = false
  identityCap : r.pendingForIdentity req.identity < r.config.maxPendingPerIdentity
  globalCap : r.pending.size < r.config.maxPendingGlobal

theorem policyCheck_eq_ok {req : PetitionRequest} {rea : RealmRegistry} {held : Bool} {re : RealmId}
    {ru : PersistenceRung} (h : r.policyCheck req rea held = .ok (re, ru)) : r.Admissible req rea held re ru := by
  unfold policyCheck at h
  split at h
  · cases h
  · rename_i r' hre
    cases hr : PersistenceRung.tryFrom req.persistence with
    | error _ =>
      simp only [hr] at h
      split_ifs at h
    | ok ru' =>
      simp only [hr] at h
      split_ifs at h with hf hs hres hl hc
      cases h
      exact
        { realm := hre
          rung := hr
          resource := by simpa using hres
          layout := fun hv => by simpa [hv] using hl
          identityCap := by omega
          globalCap := by omega }

/-- Admission declines and changes nothing, or the petition is admissible and is granted on the spot
under auto-approve or parked under the next id. -/
theorem admitPetition_cases (r : PetitionRegistry) (req : PetitionRequest) (now : Instant) (re : RealmRegistry)
    (held : Bool) :
    (∃ o, r.admitPetition req now re held =
      (r, .resolved ⟨req.connection, req.grantWireId, req.consentWireId, false, .declined o⟩)) ∨
    ∃ rea ru, r.Admissible req re held rea ru ∧ (r.policy = .autoApprove ∧ r.admitPetition req now re held =
        (r, .resolved ⟨req.connection, req.grantWireId, req.consentWireId, true,
          .granted ⟨req.identity, rea, r.requestedOf req ru, .autoApprovePolicy⟩⟩) ∨
      r.policy = .interactive ∧ r.admitPetition req now re held =
        (r.push (r.pendingOf req now re rea ru), .pending r.nextPetitionId)) := by
  unfold admitPetition
  cases hc : r.policyCheck req re held with
  | error o => exact .inl ⟨o, rfl⟩
  | ok x =>
    refine .inr ⟨x.1, x.2, policyCheck_eq_ok hc, ?_⟩
    cases r.policy with
    | autoApprove => exact .inl ⟨rfl, rfl⟩
    | interactive => exact .inr ⟨rfl, rfl⟩

end PetitionRegistry

/-- A resolution that decides a pending petition: sent where it came from, and if granted then no
more than it asked, for whom and where it asked. -/
structure Resolution.Decides (res : Resolution) (p : PendingPetition) : Prop where
  connection : res.connection = p.connection
  grantWireId : res.grantWireId = p.grantWireId
  consentWireId : res.consentWireId = p.consentWireId
  emitClosed : res.emitClosed = true
  granted : ∀ g, res.verdict = .granted g →
    g.identity = p.identity ∧ g.realm = p.realm ∧ g.effective.Narrows p.requested

namespace PetitionRegistry

theorem finish_decides (r : PetitionRegistry) (id : PetitionId) {ap : Option EffectiveAuthority}
    (h : ∀ a, ap = some a → a.Narrows p.requested) (i : Issuer) : (r.finish id p ap i).2.Decides p := by
  refine ⟨rfl, rfl, rfl, rfl, fun g hg => ?_⟩
  cases ap with
  | none => cases hg
  | some a =>
    cases hg
    exact ⟨rfl, rfl, h a rfl⟩

theorem resolveHuman_of_none (h : r.pending.get? id = none) (c : Choice) :
    r.resolveHuman id c = (r, .error .notPending) := by
  simp [resolveHuman, h]

theorem resolveScripted_of_none (h : r.pending.get? id = none) (d : ScriptedDecision) :
    r.resolveScripted id d = (r, .error .notPending) := by
  simp [resolveScripted, h]

/-- A decision fails and changes nothing, or takes exactly its petition out. -/
def Decided {ε : Type} (r : PetitionRegistry) (id : PetitionId) (x : PetitionRegistry × Except ε Resolution) : Prop :=
  (∃ err, x = (r, .error err)) ∨ ∃ p res, r.pending.get? id = some p ∧ x = (r.drop id, .ok res) ∧ res.Decides p

theorem Decided.keeps {ε : Type} {x : PetitionRegistry × Except ε Resolution} {P : PetitionRegistry → Prop}
    (h : r.Decided id x) (hr : P r) (hd : P (r.drop id)) : P x.1 := by
  rcases h with ⟨e, rfl⟩ | ⟨p, re, -, rfl, -⟩
  · exact hr
  · exact hd

theorem Decided.pending {ε : Type} {x : PetitionRegistry × Except ε Resolution} {pe : PetitionId} (h : r.Decided pe x) :
    x.1.pending.get? id = some p → r.pending.get? id = some p :=
  h.keeps (P := fun r' => r'.pending.get? id = some p → r.pending.get? id = some p) (fun hg => hg)
    fun hg => (get?_drop.mp hg).2

theorem resolveHuman_cases (r : PetitionRegistry) (id : PetitionId) (c : Choice) :
    r.Decided id (r.resolveHuman id c) := by
  cases hp : r.pending.get? id with
  | none => exact .inl ⟨_, resolveHuman_of_none hp c⟩
  | some p =>
    cases ha : c.approved p.requested with
    | error e => exact .inl ⟨e, by simp [resolveHuman, hp, ha]⟩
    | ok ap =>
      have hn : ∀ a, ap = some a → a.Narrows p.requested := fun a h => Choice.approved_narrows p.nonEmpty (h ▸ ha)
      refine .inr ⟨p, _, hp, ?_, r.finish_decides id hn .humanConsent⟩
      simp only [resolveHuman, hp, ha]
      rfl

theorem resolveHuman_deny (h : r.pending.get? id = some p) : r.resolveHuman id .deny =
      (r.drop id, .ok ⟨p.connection, p.grantWireId, p.consentWireId, true, .declined .denied⟩) := by
  simp only [resolveHuman, h]
  rfl

theorem resolveScripted_cases (r : PetitionRegistry) (id : PetitionId) (d : ScriptedDecision) :
    r.Decided id (r.resolveScripted id d) := by
  cases hp : r.pending.get? id with
  | none => exact .inl ⟨_, resolveScripted_of_none hp d⟩
  | some p =>
    cases ha : d.approved p.requested with
    | error e => exact .inl ⟨e, by simp [resolveScripted, hp, ha]⟩
    | ok ap =>
      have hn : ∀ a, ap = some a → a.Narrows p.requested := fun a h => ScriptedDecision.approved_narrows (h ▸ ha)
      refine .inr ⟨p, _, hp, ?_, r.finish_decides id hn .scriptedConsent⟩
      simp only [resolveScripted, hp, ha]
      rfl

theorem get?_expireDue {now : Instant} :
    (r.expireDue now).1.pending.get? id = some p ↔ r.pending.get? id = some p ∧ now < p.deadline := by
  simp [expireDue, get?_retain]

theorem get?_withdrawConnection {c : ConnectionId} :
    (r.withdrawConnection c).1.pending.get? id = some p ↔ r.pending.get? id = some p ∧ p.connection ≠ c := by
  simp [withdrawConnection, get?_retain]

theorem expireDue_declined {now : Instant} {re : Resolution} (h : re ∈ (r.expireDue now).2) :
    re.verdict = .declined .timedOut := by
  simp only [expireDue, List.mem_map] at h
  obtain ⟨x, -, rfl⟩ := h
  rfl

theorem promptUpFor_iff {i : PrincipalIdentity} : r.promptUpFor i = true ↔
      ∃ id p, r.pending.get? id = some p ∧ p.promptShown = true ∧ p.identity = i := by
  simp [promptUpFor, OrdMap.mem_entries_iff]

/-! ### Evolution of a registry -/

end PetitionRegistry

structure PendingPetition.Same (p' p : PendingPetition) : Prop where
  connection : p'.connection = p.connection
  identity : p'.identity = p.identity
  realm : p'.realm = p.realm
  grantWireId : p'.grantWireId = p.grantWireId
  consentWireId : p'.consentWireId = p.consentWireId
  requested : p'.requested = p.requested
  deadline : p'.deadline = p.deadline
  launchCommand : p'.launchCommand = p.launchCommand

theorem PendingPetition.Same.refl (p : PendingPetition) : p.Same p := ⟨rfl, rfl, rfl, rfl, rfl, rfl, rfl, rfl⟩

theorem PendingPetition.Same.trans {p' p'' : PendingPetition} (h₁ : p'.Same p) (h₂ : p''.Same p') : p''.Same p where
  connection := h₂.connection.trans h₁.connection
  identity := h₂.identity.trans h₁.identity
  realm := h₂.realm.trans h₁.realm
  grantWireId := h₂.grantWireId.trans h₁.grantWireId
  consentWireId := h₂.consentWireId.trans h₁.consentWireId
  requested := h₂.requested.trans h₁.requested
  deadline := h₂.deadline.trans h₁.deadline
  launchCommand := h₂.launchCommand.trans h₁.launchCommand

namespace PetitionRegistry

/-- `r'` is a later state of `r`: an id minted before, if it is still pending, names the same petition. -/
structure Evolves (r r' : PetitionRegistry) : Prop where
  policy : r'.policy = r.policy
  config : r'.config = r.config
  nextPetitionId : r.nextPetitionId ≤ r'.nextPetitionId
  pending : ∀ id p', r'.pending.get? id = some p' → id < r.nextPetitionId →
    ∃ p, r.pending.get? id = some p ∧ p'.Same p

namespace Evolves

theorem refl (r : PetitionRegistry) : r.Evolves r := ⟨rfl, rfl, le_rfl, fun _ p h _ => ⟨p, h, .refl p⟩⟩

theorem trans {r' r'' : PetitionRegistry} (h₁ : r.Evolves r') (h₂ : r'.Evolves r'') : r.Evolves r'' where
  policy := h₂.policy.trans h₁.policy
  config := h₂.config.trans h₁.config
  nextPetitionId := h₁.nextPetitionId.trans h₂.nextPetitionId
  pending id p'' h hi := by
    obtain ⟨p', hp', hs'⟩ := h₂.pending id p'' h (hi.trans_le h₁.nextPetitionId)
    obtain ⟨p, hp, hs⟩ := h₁.pending id p' hp' hi
    exact ⟨p, hp, hs.trans hs'⟩

theorem get?_none {r' : PetitionRegistry} (h : r.Evolves r') (hi : id < r.nextPetitionId)
    (hn : r.pending.get? id = none) : r'.pending.get? id = none := by
  cases hp : r'.pending.get? id with
  | none => rfl
  | some p' =>
    obtain ⟨p, hp, -⟩ := h.pending id p' hp hi
    rw [hn] at hp
    cases hp

end Evolves

section

variable (r : PetitionRegistry)

theorem retain_evolves (k : PetitionId → PendingPetition → Bool) : r.Evolves (r.retain k) :=
  ⟨rfl, rfl, le_rfl, fun _ p h _ => ⟨p, (get?_retain.mp h).1, .refl p⟩⟩

theorem drop_evolves (pe : PetitionId) : r.Evolves (r.drop pe) :=
  ⟨rfl, rfl, le_rfl, fun _ p h _ => ⟨p, (get?_drop.mp h).2, .refl p⟩⟩

theorem push_evolves (p : PendingPetition) : r.Evolves (r.push p) := by
  refine ⟨rfl, rfl, Nat.le_succ _, fun id p' h hi => ⟨p', ?_, .refl p'⟩⟩
  rwa [get?_push, if_neg hi.ne] at h

theorem setShown_evolves (pe : PetitionId) (s : Bool) : r.Evolves (r.setShown pe s) := by
  refine ⟨rfl, rfl, le_rfl, fun id p' h _ => ?_⟩
  rw [get?_setShown] at h
  split at h
  · obtain ⟨p, hp, rfl⟩ := Option.map_eq_some_iff.mp h
    exact ⟨p, hp, ⟨rfl, rfl, rfl, rfl, rfl, rfl, rfl, rfl⟩⟩
  · exact ⟨p', h, .refl p'⟩

theorem admitPetition_evolves (req : PetitionRequest) (now : Instant) (re : RealmRegistry)
    (held : Bool) : r.Evolves (r.admitPetition req now re held).1 := by
  rcases r.admitPetition_cases req now re held with ⟨o, h⟩ | ⟨rea, ru, -, ⟨-, h⟩ | ⟨-, h⟩⟩
  · rw [h]
    exact .refl r
  · rw [h]
    exact .refl r
  · rw [h]
    exact r.push_evolves _

end

theorem Decided.evolves {ε : Type} {x : PetitionRegistry × Except ε Resolution} (h : r.Decided id x) :
    r.Evolves x.1 := h.keeps (.refl r) (r.drop_evolves id)

theorem registerConnection_evolves (r : PetitionRegistry) : r.Evolves r.registerConnection.1 :=
  ⟨rfl, rfl, le_rfl, fun _ p h _ => ⟨p, h, .refl p⟩⟩

end PetitionRegistry

/-! ### A small instance

One agent, one realm, one petition and one row: the inputs on which the hypotheses of later results
are checked to be satisfiable. -/

namespace Sample

def agent : PrincipalIdentity := ⟨"vitrin://local/agent/demo"⟩

def realm : RealmId := ⟨"realm-0"⟩

def realms : RealmRegistry where
  realms := OrdMap.empty.insert realm ⟨realm, ⟨"/usr/bin/app"⟩, .running 100⟩
  keyed := by
    intro id r h
    rw [OrdMap.get?_insert] at h
    split at h
    · rename_i hid
      cases h
      exact hid.symm
    · cases h

/-- A petition to watch the realm, on connection 1. -/
def request : PetitionRequest where
  connection := 1
  identity := agent
  realmName := "realm-0"
  grantWireId := 4
  consentWireId := 5
  resource := ""
  verbs := .observe
  expiryMs := 0
  maxEventRate := 0
  persistence := .whileRunning
  flags := 0
  nonEmpty := by decide

def pending : PendingPetition :=
  (PetitionRegistry.new .interactive .default).pendingOf request 0 realms realm .whileRunning

def registry : PetitionRegistry := (PetitionRegistry.new .interactive .default).push pending

def approved : ApprovedGrant := ⟨agent, realm, pending.requested, .humanConsent⟩

def table : GrantTable :=
  GrantTable.new.push (GrantTable.new.mintEntry approved.toSpec 0 none (by decide))
    (GrantTable.new.mintEntry_grantId ..)

end Sample

end Vitrin
