import Vitrin.Core.Wire
import Vitrin.Lib.TokenBucket

/-!
# The chokepoint

Every use of authority goes through one function. It first *judges*: does a live row
confer the verb, is there something on the realm's screen, is the principal's own
prompt up, is the human's hand on the target, is there a token left. Only a use that
passes is *committed* (a one-shot row is spent, an attention window that let it
through is closed), and only then is it *performed* by calling a sink.

`judge` is the decision chain and the only place a token is taken; `voiceRefusal`
sends a refusal unless an equal one is muted; `perform` calls the sink of the use's
kind; `enforceUse` puts them in order. The sinks that answer (launch, designate) are
functions of the environment; every call of a sink, the reading of a frame included,
is listed in `calls`. Sends go to a `Wire`, which decides how they turn out.

`judge_error` and `judge_ok` say what each answer of the chain rests on.
`enforceUse_refused` and `enforceUse_admitted` say what the rest of the function then
does to the stores: a refused use costs nothing, an admitted one pays once.
-/

namespace Vitrin

open Lib

/-! ### Requests and sinks -/

/-- How long the human has to choose a file. -/
def pickerDeadline : Duration := secs 90

structure UseRequest where
  facetId : WireId
  grantWireId : WireId
  grantRow : Option GrantId
  principal : PrincipalIdentity
  kind : UseKind

inductive LayoutAct where
  | focus (realm : RealmId)
  | arrange (realm : RealmId) (mode : LayoutMode)
  deriving DecidableEq

structure LaunchAsk where
  template : RealmId
  principal : PrincipalIdentity
  grant : GrantId
  deriving DecidableEq

inductive LaunchRefusal where
  | capacity
  | internal
  deriving DecidableEq

structure DesignateAsk where
  realm : RealmId
  principal : PrincipalIdentity
  grant : GrantId
  facetId : WireId
  grantWireId : WireId
  ask : AskedFor
  /-- Admitting this ask spent a one-shot row. -/
  spentOnce : Bool
  deadline : Instant
  deriving DecidableEq

inductive DesignateRefusal where
  | unavailable
  | answered
  deriving DecidableEq

inductive SinkCall where
  | actuate (realm : RealmId) (input : SeatInput)
  | layout (act : LayoutAct)
  | launch (ask : LaunchAsk)
  | designate (ask : DesignateAsk)
  | frame (view : RealmViewFrame)
  deriving DecidableEq

/-- What a use is judged and performed against, besides the stores. -/
structure UseEnv where
  realmView : Option RealmViewFrame
  presence : PhysicalPresenceMap
  /-- The realm the human's input goes to. -/
  physicalRealm : Option RealmId
  /-- The grant's realm, for the kinds that act on it by name. -/
  grantRealm : Option RealmId
  launch : LaunchAsk → Except LaunchRefusal RealmId
  designate : DesignateAsk → Except DesignateRefusal DesignationId
  /-- Whether a memory file can be made for a frame. -/
  memfd : Bool

inductive UseOutcome where
  | admitted (grant : GrantId) (frame : Option FrameReady) (spentOnce attentionClaimed : Bool)
  /-- Admitted, and its answer comes later. -/
  | owed (grant : GrantId) (designation : DesignationId) (expiresInMs : Nat) (spentOnce attentionClaimed : Bool)
  | refused (code : Refusal) (voiced : Bool)
  deriving DecidableEq

/-- A refusal, with how long to wait if waiting helps. -/
structure Refuse where
  code : Refusal
  retryAfterMs : Nat

def Refuse.of (code : Refusal) : Refuse := ⟨code, 0⟩

/-! ### The bucket of a grant -/

/-- Nanoseconds for one event at a rate, rounded up. -/
def intervalNs (rate : NonZeroU32) : Nat := (1000000000 + rate.val.toNat - 1) / rate.val.toNat

theorem intervalNs_pos (rate : NonZeroU32) : 0 < intervalNs rate := by
  have := rate.pos
  exact Nat.div_pos (by omega) this

/-- A bucket with its rate's worth of tokens. -/
def fullBucket (rate : NonZeroU32) (now : Instant) : Bucket := ⟨rate.val.toNat, now⟩

/-- Take a token, or say for how many milliseconds there will be none. -/
def takeToken (b : Bucket) (rate : NonZeroU32) (now : Instant) : Bucket × Except Nat Unit :=
  match b.take rate.val.toNat (intervalNs rate) now with
  | (b', true) => (b', .ok ())
  | (b', false) =>
    let wait := b'.anchor + intervalNs rate - now
    (b', .error (min (max ((wait + 999999) / 1000000) 1) (2 ^ 32 - 1)))

/-- What the chokepoint remembers of a grant handle. -/
structure GrantUseState where
  bucket : Option Bucket
  /-- Refusals already voiced since the last admitted use. -/
  mutedPairs : List (Verb × Refusal)
  rateMutedUntil : Option Instant

def GrantUseState.new : GrantUseState := ⟨none, [], none⟩

def GrantUseState.clearMutes (s : GrantUseState) : GrantUseState := { s with mutedPairs := [], rateMutedUntil := none }

/-- The chokepoint of one connection: a state for each grant handle used. -/
structure Chokepoint where
  states : OrdMap WireId GrantUseState

namespace Chokepoint

def new : Chokepoint := ⟨.empty⟩

def stateOf (c : Chokepoint) (wire : WireId) : GrantUseState := (c.states.get? wire).getD .new

def setState (c : Chokepoint) (wire : WireId) (s : GrantUseState) : Chokepoint := ⟨c.states.insert wire s⟩

variable {c : Chokepoint}

@[simp] theorem stateOf_setState {wir : WireId} {s : GrantUseState} : (c.setState wir s).stateOf wir = s := by
  simp [stateOf, setState]

/-- The tokens a handle has at an instant; a bucket not yet made will be full. -/
def tokensAt (c : Chokepoint) (wire : WireId) (rate : NonZeroU32) (now : Instant) : Nat :=
  ((c.stateOf wire).bucket.getD (fullBucket rate now)).level rate.val.toNat (intervalNs rate) now

/-! ### Judging -/

def liveView (view : Option RealmViewFrame) : Option RealmViewFrame :=
  view.filter fun v => 0 < v.width && 0 < v.height

/-- The realm whose human presence stands in a use's way. -/
def preemptedBy (req : UseRequest) (env : UseEnv) : Option RealmId :=
  if req.kind.deliveredThroughTheSeat then env.grantRealm else env.physicalRealm

/-- The checks a use that competes with the human is subject to: the prompt, then the hand. What is
returned is the exemption that suppressed a preemption, if one did. -/
def contention (req : UseRequest) (petitions : PetitionRegistry) (attention : AttentionSignal) (env : UseEnv)
    (now : Instant) : Except Refusal (Option Exemption) :=
  if !req.kind.contendsForAttention then .ok none
  else if petitions.promptUpFor req.principal then .error .consentHeld
  else if env.presence.ownsTarget (preemptedBy req env) now then
    match attention.exempt req.principal req.kind now with
    | none => .error .preempted
    | some exemption => .ok (some exemption)
  else .ok none

/-- Take a token from a handle's bucket, made full on first use. -/
def takeFor (c : Chokepoint) (wire : WireId) (rate : NonZeroU32) (now : Instant) : Chokepoint × Except Nat Unit :=
  let state := c.stateOf wire
  let taken := takeToken (state.bucket.getD (fullBucket rate now)) rate now
  (c.setState wire { state with bucket := some taken.1 }, taken.2)

def judge (c : Chokepoint) (req : UseRequest) (grants : GrantTable) (petitions : PetitionRegistry)
    (attention : AttentionSignal) (env : UseEnv) (now : Instant) :
    Chokepoint × Except Refuse (Allowed × Option Exemption) :=
  match req.grantRow with
  | none => (c, .error (.of .notGranted))
  | some row => match grants.checkUseGrant row req.principal req.kind.verb now with
    | .error reason => (c, .error (.of reason.toRefusal))
    | .ok allowed =>
      if req.kind.refusedByAVacantRealm ∧ liveView env.realmView = none then (c, .error (.of .noSurface))
      else match contention req petitions attention env now with
        | .error code => (c, .error (.of code))
        | .ok exemption =>
          let taken := c.takeFor req.grantWireId allowed.maxEventRate now
          (taken.1, match taken.2 with
            | .ok _ => .ok (allowed, exemption)
            | .error ms => .error ⟨.rateLimited, ms⟩)

/-! ### Refusing -/

/-- Whether a coalescible refusal is muted, and the state with it noted. -/
def coalesce (s : GrantUseState) (verb : Verb) (refuse : Refuse) (retryAfterMs : Nat) (now : Instant) :
    GrantUseState × Bool :=
  if refuse.code = .rateLimited then
    if s.rateMutedUntil.any (now < ·) then (s, true)
    else ({ s with rateMutedUntil := some (now + millis retryAfterMs) }, false)
  else if (verb, refuse.code) ∈ s.mutedPairs then (s, true)
  else ({ s with mutedPairs := s.mutedPairs ++ [(verb, refuse.code)] }, false)

/-- Send a refusal, unless it is muted; whether it was sent. -/
def voiceRefusal (c : Chokepoint) (wire : WireId) (verb : Verb) (refuse : Refuse) (coalescible : Bool)
    (now : Instant) (w : Wire) : Chokepoint × Wire × Except TransportError Bool :=
  let retryAfterMs := if refuse.code = .rateLimited then max refuse.retryAfterMs 1 else 0
  let noted := coalesce (c.stateOf wire) verb refuse retryAfterMs now
  let c := if coalescible then c.setState wire noted.1 else c
  if coalescible ∧ noted.2 then (c, w, .ok false)
  else
    let sent := w.send (.refused wire verb refuse.code retryAfterMs)
    (c, sent.1, sent.2.map fun _ => true)

/-! ### Performing -/

/-- What a use leaves behind. -/
structure Enforced where
  chokepoint : Chokepoint
  grants : GrantTable
  attention : AttentionSignal
  wire : Wire
  calls : List SinkCall
  result : Except TransportError UseOutcome

def clampToView (kind : SeatInputKind) (view : Option RealmViewFrame) : SeatInputKind := match kind, view with
  | .motion x y, some view => .motion (x.clamp (view.width - 1 : Nat)) (y.clamp (view.height - 1 : Nat))
  | kind, _ => kind

/-- What the sinks of an admitted use did: the calls, then an event to send with its outcome, an
outcome alone, or a refusal. -/
structure Performed where
  calls : List SinkCall
  answer : Except Refusal (Option Event × UseOutcome)

/-- Call the sink of an admitted use. -/
def perform (req : UseRequest) (env : UseEnv) (grant : GrantId) (spentOnce attentionClaimed : Bool)
    (now : Instant) : Performed :=
  let admitted (frame : Option FrameReady) := UseOutcome.admitted grant frame spentOnce attentionClaimed
  match req.kind with
  | .capture => match liveView env.realmView with
    | none => ⟨[], .error .internal⟩
    | some view => match renderFrame env.memfd view with
      | .ok frame => ⟨[.frame view], .ok (some (.frameReady req.facetId frame), admitted (some frame))⟩
      | .error _ => ⟨[.frame view], .error .internal⟩
  | .pointer kind | .text kind => match env.grantRealm with
    | none => ⟨[], .error .internal⟩
    | some realm =>
      ⟨[.actuate realm (.emulated (clampToView kind (liveView env.realmView)))], .ok (none, admitted none)⟩
  | .layoutFocus => match env.grantRealm with
    | none => ⟨[], .error .internal⟩
    | some realm => ⟨[.layout (.focus realm)], .ok (none, admitted none)⟩
  | .layoutArrange mode => match env.grantRealm with
    | none => ⟨[], .error .internal⟩
    | some realm => ⟨[.layout (.arrange realm mode)], .ok (none, admitted none)⟩
  | .launch => match env.grantRealm with
    | none => ⟨[], .error .internal⟩
    | some realm =>
      let ask : LaunchAsk := ⟨realm, req.principal, grant⟩
      match env.launch ask with
      | .ok minted => ⟨[.launch ask], .ok (some (.launched req.facetId minted), admitted none)⟩
      | .error .capacity => ⟨[.launch ask], .error .capacity⟩
      | .error .internal => ⟨[.launch ask], .error .internal⟩
  | .egress => ⟨[], .error .internal⟩
  | .designate asked => match env.grantRealm with
    | none => ⟨[], .error .internal⟩
    | some realm =>
      let ask : DesignateAsk :=
        { realm, principal := req.principal, grant, facetId := req.facetId, grantWireId := req.grantWireId,
          ask := asked, spentOnce, deadline := now + pickerDeadline }
      match env.designate ask with
      | .ok designation =>
        ⟨[.designate ask], .ok (none, .owed grant designation (pickerDeadline / 1000000) spentOnce attentionClaimed)⟩
      | .error .answered => ⟨[.designate ask], .ok (none, admitted none)⟩
      | .error .unavailable => ⟨[.designate ask], .error .internal⟩

/-- Judge a use; refuse it, or commit and perform it. -/
def enforceUse (c : Chokepoint) (req : UseRequest) (grants : GrantTable) (petitions : PetitionRegistry)
    (attention : AttentionSignal) (env : UseEnv) (now : Instant) (w : Wire) : Enforced :=
  let judged := c.judge req grants petitions attention env now
  match judged.2 with
  | .error refuse =>
    let voiced := judged.1.voiceRefusal req.grantWireId req.kind.verb refuse req.kind.coalescible now w
    { chokepoint := voiced.1
      grants
      attention
      wire := voiced.2.1
      calls := []
      result := voiced.2.2.map (.refused refuse.code) }
  | .ok (allowed, exemption) =>
    let committed := grants.commitUse allowed.grantId
    let attention := attention.claimAny exemption
    let c := judged.1.setState req.grantWireId (judged.1.stateOf req.grantWireId).clearMutes
    let done := perform req env allowed.grantId committed.2 exemption.isSome now
    match done.answer with
    | .ok (event, outcome) =>
      let sent := match event with
        | some event => w.send event
        | none => (w, .ok ())
      { chokepoint := c
        grants := committed.1
        attention
        wire := sent.1
        calls := done.calls
        result := sent.2.map fun _ => outcome }
    | .error code =>
      let voiced := c.voiceRefusal req.grantWireId req.kind.verb (.of code) req.kind.coalescible now w
      { chokepoint := voiced.1
        grants := committed.1
        attention
        wire := voiced.2.1
        calls := done.calls
        result := voiced.2.2.map (.refused code) }

/-! ### What an answer of the chain rests on -/

variable {wi : WireId}

theorem tokensAt_congr {c' : Chokepoint} (h : (c'.stateOf wi).bucket = (c.stateOf wi).bucket) (rate : NonZeroU32)
    (now : Instant) : c'.tokensAt wi rate now = c.tokensAt wi rate now := by
  simp [tokensAt, h]

variable {rate : NonZeroU32} {now : Instant}

theorem takeToken_fst {b : Bucket} : (takeToken b rate now).1 = (b.take rate.val.toNat (intervalNs rate) now).1 := by
  unfold takeToken
  split <;> (rename_i h; rw [h])

theorem takeToken_isOk (b : Bucket) (rate : NonZeroU32) (now : Instant) :
    (takeToken b rate now).2.isOk = (b.take rate.val.toNat (intervalNs rate) now).2 := by
  unfold takeToken
  split <;> (rename_i h; rw [h]; rfl)

theorem takeFor_tokensAt : (c.takeFor wi rate now).1.tokensAt wi rate now +
    (if (c.takeFor wi rate now).2.isOk then 1 else 0) = c.tokensAt wi rate now := by
  have hok := takeToken_isOk ((c.stateOf wi).bucket.getD (fullBucket rate now)) rate now
  simp only [takeFor, hok]
  simpa [tokensAt, takeToken_fst] using Bucket.level_take (intervalNs_pos rate)

variable {re : Refuse}

theorem voiceRefusal_bucket {c : Chokepoint} {wi : WireId} {v : Verb} {co : Bool} {now : Instant} {w : Wire} :
    ((c.voiceRefusal wi v re co now w).1.stateOf wi).bucket = (c.stateOf wi).bucket := by
  have hc : ∀ s r, (coalesce s v re r now).1.bucket = s.bucket := by
    intro s r
    unfold coalesce
    split_ifs <;> rfl
  cases co with
  | false => simp [voiceRefusal]
  | true =>
    simp only [voiceRefusal]
    split <;> split <;> simp [hc]

section Judge

variable {req : UseRequest} {g : GrantTable} {p : PetitionRegistry} {att : AttentionSignal}
  {env : UseEnv}

/-- The human stands in the way of a use. -/
def Preempts (req : UseRequest) (env : UseEnv) (now : Instant) : Prop :=
  req.kind.contendsForAttention = true ∧ env.presence.ownsTarget (preemptedBy req env) now = true

variable {ex : Option Exemption}

theorem contention_ok (h : contention req p att env now = .ok ex) :
    (Preempts req env now ∧ ∃ e, ex = some e ∧ att.exempt req.principal req.kind now = some e) ∨
      (¬ Preempts req env now ∧ ex = none) := by
  unfold contention at h
  split at h
  · rename_i hc
    cases h
    exact .inr ⟨fun hp => by simp [hp.1] at hc, rfl⟩
  · rename_i hc
    split at h
    · cases h
    · split at h
      · rename_i how
        split at h
        · cases h
        · rename_i e he
          cases h
          exact .inl ⟨⟨by simpa using hc, how⟩, e, rfl, he⟩
      · rename_i how
        cases h
        exact .inr ⟨fun hp => how hp.2, rfl⟩

theorem contention_error {co : Refusal} (h : contention req p att env now = .error co) :
    co = .consentHeld ∨ co = .preempted := by
  unfold contention at h
  repeat' split at h
  all_goals cases h
  · exact .inl rfl
  · exact .inr rfl

def chainRefusals : List Refusal :=
  [.notGranted, .revoked, .expired, .noSurface, .consentHeld, .preempted, .rateLimited]

variable {a : Allowed}

/-- The chain refuses before it comes to the bucket, or a row allows the use and the bucket has the last word. -/
theorem judge_cases (c : Chokepoint) (env : UseEnv) :
    (∃ code ∈ chainRefusals, c.judge req g p att env now = (c, .error (.of code))) ∨
    ∃ ro al ex, req.grantRow = some ro ∧ g.checkUseGrant ro req.principal req.kind.verb now = .ok al ∧
      contention req p att env now = .ok ex ∧ c.judge req g p att env now =
        let taken := c.takeFor req.grantWireId al.maxEventRate now
        (taken.1, match taken.2 with
          | .ok _ => .ok (al, ex)
          | .error ms => .error ⟨.rateLimited, ms⟩) := by
  unfold judge
  cases req.grantRow with
  | none => exact .inl ⟨_, by decide, rfl⟩
  | some ro =>
    dsimp only
    cases hc : g.checkUseGrant ro req.principal req.kind.verb now with
    | error r => exact .inl ⟨r.toRefusal, by cases r <;> decide, rfl⟩
    | ok al =>
      dsimp only
      split
      · exact .inl ⟨_, by decide, rfl⟩
      · cases hco : contention req p att env now with
        | error co => exact .inl ⟨co, by rcases contention_error hco with rfl | rfl <;> decide, rfl⟩
        | ok ex => exact .inr ⟨ro, al, ex, rfl, hc, rfl, rfl⟩

/-- A use the chain refuses has taken nothing: the chokepoint is as it was, or an empty bucket was looked at. -/
theorem judge_error (h : (c.judge req g p att env now).2 = .error re) :
    re.code ∈ chainRefusals ∧ ((c.judge req g p att env now).1 = c ∨ ∃ ro al ms, req.grantRow = some ro ∧
          g.checkUseGrant ro req.principal req.kind.verb now = .ok al ∧
          (c.takeFor req.grantWireId al.maxEventRate now).2 = .error ms ∧
          (c.judge req g p att env now).1 =
            (c.takeFor req.grantWireId al.maxEventRate now).1) := by
  rcases judge_cases c env with ⟨code, hcode, he⟩ | ⟨ro, al, ex, hr, hc, -, he⟩ <;> rw [he] at h ⊢
  · cases h
    exact ⟨hcode, .inl rfl⟩
  · cases ht : (c.takeFor req.grantWireId al.maxEventRate now).2 with
    | ok u => simp [ht] at h
    | error ms =>
      simp only [ht] at h
      cases h
      exact ⟨by simp [chainRefusals], .inr ⟨ro, al, ms, hr, hc, ht, rfl⟩⟩

/-- A use the chain admits is allowed by the row its handle names, has something to act on, is not in
the human's way or is exempt, and has taken a token. -/
theorem judge_ok (h : (c.judge req g p att env now).2 = .ok (a, ex)) :
    ∃ ro, req.grantRow = some ro ∧ g.checkUseGrant ro req.principal req.kind.verb now = .ok a ∧
      contention req p att env now = .ok ex ∧
      (c.takeFor req.grantWireId a.maxEventRate now).2 = .ok () ∧
      (c.judge req g p att env now).1 = (c.takeFor req.grantWireId a.maxEventRate now).1 := by
  rcases judge_cases c env with ⟨code, -, he⟩ | ⟨ro, al, ex, hr, hc, hco, he⟩ <;> rw [he] at h ⊢
  · cases h
  · cases ht : (c.takeFor req.grantWireId al.maxEventRate now).2 with
    | error ms => simp [ht] at h
    | ok u =>
      simp only [ht] at h
      cases h
      exact ⟨ro, hr, hc, hco, ht, rfl⟩

/-! ### What a use costs -/

/-- Nothing was called, no row and no window changed, and the handle's bucket is no emptier at the
row's rate (at any rate, if the handle names no row). -/
structure CostsNothing (c : Chokepoint) (req : UseRequest) (grants : GrantTable) (attention : AttentionSignal)
    (now : Instant) (r : Enforced) : Prop where
  noCalls : r.calls = []
  sameGrants : r.grants = grants
  sameAttention : r.attention = attention
  tokens : ∀ rate, (∀ row e, req.grantRow = some row → grants.entryOf row = some e →
      rate = e.row.constraints.maxEventRate) →
    c.tokensAt req.grantWireId rate now ≤ r.chokepoint.tokensAt req.grantWireId rate now

/-- One token was taken from the handle's bucket and row `grant` paid for the use: a one-shot row went from
active to spent. The attention window is closed exactly if it suppressed a preemption. -/
structure PaysOnce (c : Chokepoint) (req : UseRequest) (grants : GrantTable) (attention : AttentionSignal)
    (env : UseEnv) (now : Instant) (r : Enforced) (grant : GrantId) (e : Entry) : Prop where
  row : req.grantRow = some grant
  entry : grants.entryOf grant = some e
  active : e.liveness = .active
  tokens : r.chokepoint.tokensAt req.grantWireId e.row.constraints.maxEventRate now + 1 =
    c.tokensAt req.grantWireId e.row.constraints.maxEventRate now
  spent : r.grants.entryOf grant = some (if e.row.persistence = .once then { e with liveness := .spent } else e)
  others : ∀ id ≠ grant, r.grants.entryOf id = grants.entryOf id
  claimed : Preempts req env now → attention.window.isSome ∧ r.attention = { attention with window := none }
  unclaimed : ¬ Preempts req env now → r.attention = attention

variable {w : Wire}

theorem enforceUse_refused (h : (c.judge req g p att env now).2 = .error re) :
    CostsNothing c req g att now (c.enforceUse req g p att env now w) := by
  obtain ⟨-, hc⟩ := judge_error h
  refine ⟨by simp [enforceUse, h], by simp [enforceUse, h], by simp [enforceUse, h], fun rate hr => ?_⟩
  have hs : (c.enforceUse req g p att env now w).chokepoint =
      ((c.judge req g p att env now).1.voiceRefusal req.grantWireId req.kind.verb re
        req.kind.coalescible now w).1 := by
    simp [enforceUse, h]
  rw [hs, tokensAt_congr voiceRefusal_bucket]
  rcases hc with hc | ⟨r, a, ms, hro, hch, ht, hc⟩
  · rw [hc]
  · -- the empty bucket was looked at with the rate of the row
    obtain ⟨-, e, he, -, -, -, rfl⟩ := GrantTable.checkUseGrant_eq_ok_iff.mp hch
    obtain rfl := hr r e hro he
    have htake : _ = c.tokensAt req.grantWireId e.row.constraints.maxEventRate now := takeFor_tokensAt
    rw [ht] at htake
    rw [hc]
    exact htake.ge

variable (h : (c.judge req g p att env now).2 = .ok (a, ex))

include h

/-- What an admitted use leaves behind, whichever way its sink answered. -/
theorem enforceUse_of_ok : let r := c.enforceUse req g p att env now w
    r.grants = (g.commitUse a.grantId).1 ∧ r.attention = att.claimAny ex ∧
      (r.chokepoint.stateOf req.grantWireId).bucket =
        ((c.judge req g p att env now).1.stateOf req.grantWireId).bucket ∧
      r.calls = (perform req env a.grantId (g.commitUse a.grantId).2 ex.isSome now).calls := by
  simp only [enforceUse, h]
  split
  · exact ⟨rfl, rfl, by simp [GrantUseState.clearMutes], rfl⟩
  · exact ⟨rfl, rfl, by simp [voiceRefusal_bucket, GrantUseState.clearMutes], rfl⟩

omit h in
/-- Whatever the answer, rows at most move between states. -/
theorem enforceUse_relives {c : Chokepoint} {req : UseRequest} {g : GrantTable} {p : PetitionRegistry}
    {att : AttentionSignal} {env : UseEnv} {now : Instant} {w : Wire} :
    g.Relives (c.enforceUse req g p att env now w).grants := by
  cases h : (c.judge req g p att env now).2 with
  | error re =>
    rw [(enforceUse_refused (w := w) h).sameGrants]
    exact .refl g
  | ok a =>
    rw [(enforceUse_of_ok (w := w) h).1]
    exact g.commitUse_relives _

theorem enforceUse_admitted : ∃ e, PaysOnce c req g att env now (c.enforceUse req g p att env now w)
      a.grantId e := by
  obtain ⟨r, hr, hch, hco, ht, hc⟩ := judge_ok h
  obtain ⟨-, e, he, -, -, hl, rfl⟩ := GrantTable.checkUseGrant_eq_ok_iff.mp hch
  obtain ⟨hg, ha, hb, -⟩ := enforceUse_of_ok (w := w) h
  refine ⟨e, hr, he, hl.1, ?_, ?_, fun id hi => ?_, fun hp => ?_, fun hp => ?_⟩
  · have htake : _ = c.tokensAt req.grantWireId e.row.constraints.maxEventRate now := takeFor_tokensAt
    rw [ht] at htake
    rw [tokensAt_congr hb, hc]
    exact htake
  · rw [hg, GrantTable.entryOf_commitUse, if_pos rfl, he]
    simp [hl.1]
  · rw [hg, GrantTable.entryOf_commitUse, if_neg hi]
  · rcases contention_ok hco with ⟨-, x, rfl, hx⟩ | ⟨hn, -⟩
    · exact ⟨AttentionSignal.window_of_exempt hx, ha⟩
    · exact absurd hp hn
  · rcases contention_ok hco with ⟨hy, -⟩ | ⟨-, rfl⟩
    · exact absurd hy hp
    · exact ha

end Judge

end Chokepoint

end Vitrin
