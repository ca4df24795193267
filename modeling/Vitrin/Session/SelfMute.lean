import Vitrin.Consent.Answers
import Vitrin.Session.Refinement

/-!
# Uses while a file is being chosen

While a petition's card is up, its principal's actuation is held back with
`consent_held`: what the human is deciding about must not move under their hands. The
protocol sends the same of a picker: while a principal's ask for a file is pending, its
pointer, text and layout uses are refused `consent_held`, its observation goes on, and
other principals are unaffected.

The chokepoint asks the petition registry alone, and a picker is not in it.

`undesignated` is the session with no designation outstanding and all else as it is;
`answer` is how the session answers a use that comes in on a facet of a connection.

So while a picker is up every use is judged as if no designation were outstanding
(`designation_mutes_nobody`), and the asking principal's pointer moves
(`move_while_choosing`).
-/

namespace Vitrin

open Lib

/-! ### What `consent_held` rests on -/

namespace Chokepoint

section Judge

variable {c : Chokepoint} {req : UseRequest} {gr : GrantTable} {p : PetitionRegistry}
  {att : AttentionSignal} {env : UseEnv} {now : Instant} {w : Wire}

theorem contention_held (h : contention req p att env now = .error .consentHeld) :
    p.promptUpFor req.principal = true := by
  unfold contention at h
  split_ifs at h with hc hu
  · exact hu
  · split at h <;> cases h

/-- The chain refuses `consent_held` only for a prompt of the principal's own. -/
theorem judge_held {r : Refuse} (h : (c.judge req gr p att env now).2 = .error r)
    (hc : r.code = .consentHeld) : p.promptUpFor req.principal = true := by
  unfold judge at h
  cases hr : req.grantRow with
  | none =>
    simp only [hr] at h
    cases h
    cases hc
  | some ro =>
    simp only [hr] at h
    cases hch : gr.checkUseGrant ro req.principal req.kind.verb now with
    | error re =>
      simp only [hch] at h
      cases h
      cases re <;> cases hc
    | ok a =>
      simp only [hch] at h
      split_ifs at h with hv
      · cases h
        cases hc
      · cases hco : contention req p att env now with
        | error co =>
          simp only [hco] at h
          cases h
          exact contention_held (hco.trans (congrArg _ hc))
        | ok e =>
          simp only [hco] at h
          split at h <;> cases h
          cases hc

theorem perform_error {g : GrantId} {s cl : Bool} {co : Refusal}
    (h : (perform req env g s cl now).answer = .error co) : co ≠ .consentHeld := by
  rintro rfl
  unfold perform at h
  dsimp only at h
  repeat' split at h
  all_goals cases h

theorem perform_ok {g : GrantId} {s cl : Bool} {e : Option Event} {o : UseOutcome}
    (h : (perform req env g s cl now).answer = .ok (e, o)) (co : Refusal) (v : Bool) : o ≠ .refused co v := by
  rintro rfl
  unfold perform at h
  dsimp only at h
  repeat' split at h
  all_goals cases h

theorem enforceUse_held {v : Bool} (h : (c.enforceUse req gr p att env now w).result = .ok (.refused .consentHeld v)) :
    p.promptUpFor req.principal = true := by
  -- an outcome comes out of a send that went well
  have hm : ∀ {α : Type} {x : Except TransportError α} {f : α → UseOutcome} {o : UseOutcome},
      x.map f = .ok o → ∃ a, f a = o := by
    intro α x f o hx
    cases x with
    | error er => cases hx
    | ok a => exact ⟨a, Except.ok.inj hx⟩
  cases hj : (c.judge req gr p att env now).2 with
  | error r =>
    simp only [enforceUse, hj] at h
    obtain ⟨b, hb⟩ := hm h
    exact judge_held hj (UseOutcome.refused.inj hb).1
  | ok ad =>
    simp only [enforceUse, hj] at h
    split at h
    · rename_i e o hd
      obtain ⟨u, hu⟩ := hm h
      exact absurd hu (perform_ok hd _ _)
    · rename_i co hd
      obtain ⟨b, hb⟩ := hm h
      exact absurd (UseOutcome.refused.inj hb).1 (perform_error hd)

/-- Only an ask for a file looks at the sink it is handed to. -/
theorem enforceUse_designate {e' : UseEnv} (he : e' = { env with designate := e'.designate })
    (hki : ∀ a, req.kind ≠ .designate a) :
    c.enforceUse req gr p att e' now w = c.enforceUse req gr p att env now w := by
  have hj : c.judge req gr p att e' now = c.judge req gr p att env now := by
    rw [he]
    rfl
  have hp : ∀ g s cl,
      perform req e' g s cl now = perform req env g s cl now := by
    intro g s cl
    rw [he]
    cases hk : req.kind with
    | designate a => exact absurd hk (hki a)
    | _ => simp [perform, hk]
  simp [enforceUse, hj, hp]

end Judge

end Chokepoint

theorem Shown.promptUpFor {c : ConsentSystem} (h : Shown c) {id : DesignationId}
    (hr : c.grab.raisedDesignation = some id) (pr : PrincipalIdentity) : c.petitions.promptUpFor pr = false := by
  have hn : c.grab.raisedPetition = none := by
    simpa [hr] using c.grab.raisedPetition_or_designation
  by_contra hu
  obtain ⟨pe, p, hp, hs, -⟩ := PetitionRegistry.promptUpFor_iff.mp (by simpa using hu)
  simpa [hn] using (h.mark pe p hp).mp hs

/-! ### Uses -/

namespace Session

/-- The session with no designation outstanding, and all else as it is. -/
def undesignated (s : Session) : Session := { s.dropPicker with ledger := (s.ledger.retire fun _ => false).1 }

theorem undesignated_system (s : Session) : s.undesignated.system = s.system := by
  have h : s.undesignated.system = { s.system with petitions := s.consent.lowerPicker.petitions } := rfl
  rw [h, ConsentSystem.lowerPicker_petitions]
  rfl

/-- How the chokepoint judges a use that comes in on a facet of a connection. -/
def verdict (s : Session) (c : ConnectionId) (server : PrincipalServer) (ctx : ServerCtx) (facetId grant : WireId)
    (identity : PrincipalIdentity) (kind : UseKind) (wire : Wire) : Except Refuse (Allowed × Option Exemption) :=
  let t := s.system.turn server wire
  (server.chokepoint.judge (t.useRequest facetId grant identity kind) t.grants t.petitions t.attention
    (t.useEnv (s.serverCtx c ctx) grant kind) ctx.now).2

def answer (s : Session) (c : ConnectionId) (server : PrincipalServer) (ctx : ServerCtx) (facetId grant : WireId)
    (identity : PrincipalIdentity) (kind : UseKind) (wire : Wire) : Chokepoint.Enforced :=
  (s.system.turn server wire).enforced (s.serverCtx c ctx) facetId grant identity kind

end Session

/-- **A picker mutes nobody.** In every state of every run, while the picker of an open ticket has the
human's input: every use by every principal is judged as if no designation were outstanding, and unless it
is an ask for a file it is answered so; and no use is refused `consent_held`. In particular a pointer, text
or layout use of the asking principal's own that would be admitted without its designation is admitted. -/
theorem designation_mutes_nobody (paint : Painter) (policy : ConsentPolicy) (config : PetitionConfig)
    (chord : AttentionChord) (pickerRoot : Bool) (ops : List SessionOp) :
    let s := (sessionStep paint).exec (.new policy config chord pickerRoot) ops
    ∀ id t, s.ledger.peek id = some t → s.grab.raised = some (.designation id) →
    ∀ c co i, s.system.conns.get? c = some co → co.server.identity = some i →
    ∀ ct f g k wi,
      s.verdict c co.server ct f g i k wi =
        s.undesignated.verdict c co.server ct f g i k wi ∧
      ((∀ a, k ≠ .designate a) →
        s.answer c co.server ct f g i k wi =
          s.undesignated.answer c co.server ct f g i k wi) ∧
      (∀ v, (s.answer c co.server ct f g i k wi).result ≠
        .ok (.refused .consentHeld v)) ∧
      (i = t.principal → k.contendsForAttention = true → ∀ r fr so cl,
        (s.undesignated.answer c co.server ct f g i k wi).result =
          .ok (.admitted r fr so cl) →
        (s.answer c co.server ct f g i k wi).result =
          .ok (.admitted r fr so cl)) := by
  intro s id t ht hr c co i hc hi ct f g k wi
  have hs : Shown s.consent := session_shown paint policy config chord pickerRoot ops
  have hd : s.consent.grab.raisedDesignation = some id := by
    simp [ConsentGrab.raisedDesignation, Session.consent, hr]
  have ha : (∀ a, k ≠ .designate a) → s.answer c co.server ct f g i k wi =
      s.undesignated.answer c co.server ct f g i k wi := by
    intro hk
    simp only [Session.answer, s.undesignated_system]
    exact Chokepoint.enforceUse_designate rfl hk
  refine ⟨?_, ha, fun v hh => ?_, fun _ hco r fr so cl h => ?_⟩
  · simp only [Session.verdict, s.undesignated_system]
    rfl
  · have hu : s.system.petitions.promptUpFor i = true := Chokepoint.enforceUse_held hh
    exact absurd (hs.promptUpFor hd i) (by simp [Session.consent, hu])
  · -- a use that competes with the human is not an ask
    have hk : ∀ a, k ≠ .designate a := by
      rintro a rfl
      cases hco
    rw [ha hk, h]

namespace Sample

/-- A petition to watch the realm, to move the pointer and to ask for files. -/
def requestFiles : Message where
  objectId := 3
  opcode := 0
  decode
    | .requestGrant => .ok (⟨4, 5, 6, 7, 8, "", ⟨67, by decide⟩, 0, 0, .whileRunning, 0⟩ : RequestGrant)
    | _ => .error undecodable

def getPowerbox : Message where
  objectId := 4
  opcode := 3
  decode
    | .getPowerbox => .ok (9 : WireId)
    | _ => .error undecodable

def requestFile : Message where
  objectId := 9
  opcode := 0
  decode
    | .requestFile => .ok false
    | _ => .error undecodable

/-- The pointer facet of handle 4 moves. -/
def move : Message where
  objectId := 7
  opcode := 0
  decode
    | .move => .ok ((0, 0) : Int × Int)
    | _ => .error undecodable

/-- A folder that lists, with one file in it that opens. -/
def pickerEnv : PickerEnv where
  apply _ step := if step = .confirm then .confirmed else .unchanged
  chosen := some (some ⟨40, "notes"⟩)
  lists := true
  card ticket :=
    { principal := ticket.principal
      realm := ticket.realm
      ask := ticket.ask
      location := ⟨"", [], []⟩
      panel := ⟨[⟨⟨"notes", [], []⟩, none⟩], some 0, 0, 1, ⟨"", [], []⟩⟩
      focus := .listing }
  accepts _ := true

def sends (msg : Message) : SessionOp := .message 1 ctx msg ⟨[], []⟩ true

def joins : SessionOp := .system ⟨.connect ⟨none, 1000, 1000⟩, rfl⟩

/-- The sample agent is granted what it petitions for, and has a powerbox. -/
def prepared : List SessionOp :=
  [.realmStarted realm, joins, sends hello, sends getRealm, sends requestFiles, sends getPowerbox]

/-- It asks for a file and its picker goes up. -/
def choosing : List SessionOp := prepared ++ [sends requestFile, .pickerRound 1 true pickerEnv]

def session : Session := .new .autoApprove .default .super true

/-- How the sample agent's pointer motion is answered. -/
def moved (s : Session) : Option (Except TransportError UseOutcome) :=
  (s.system.conns.get? 1).map fun conn =>
    (s.answer 1 conn.server ctx 7 4 agent (.pointer (.motion (.finite 0) (.finite 0))) ⟨[], []⟩).result

end Sample

open Sample in
/-- The picker of the sample agent has the human's input; the agent's pointer moves, as it would without. -/
theorem move_while_choosing :
    let s := (sessionStep painter).exec session choosing
    s.grab.raised = some (.designation 1) ∧ (s.ledger.peek 1).map (·.principal) = some agent ∧
    (s.system.conns.get? 1).bind (·.server.identity) = some agent ∧
    moved s.undesignated = some (.ok (.admitted 1 none false false)) ∧
    moved s = some (.ok (.admitted 1 none false false)) ∧
    (sessionStep painter s (sends move)).2.calls =
      [.actuate realm (.emulated (.motion (.finite 0) (.finite 0)))] := by
  decide

open Sample in
/-- The sample agent's picker is up, and its pointer motion is admitted because it would be without. -/
theorem designation_mutes_nobody_move :
    let s := (sessionStep painter).exec session choosing
    s.grab.raised = some (.designation 1) ∧ moved s = some (.ok (.admitted 1 none false false)) := by
  intro s
  have hr : s.grab.raised = some (.designation 1) := by decide
  have ht : (s.ledger.peek 1).map (·.principal) = some agent := by decide
  have hide : (s.system.conns.get? 1).bind (·.server.identity) = some agent := by decide
  have hm : moved s.undesignated = some (.ok (.admitted 1 none false false)) := by decide
  obtain ⟨t, hp, hpr⟩ := Option.map_eq_some_iff.mp ht
  obtain ⟨co, hc, hi⟩ := Option.bind_eq_some_iff.mp hide
  refine ⟨hr, ?_⟩
  simp only [moved, s.undesignated_system, hc, Option.map_some, Option.some.injEq] at hm ⊢
  exact (designation_mutes_nobody painter .autoApprove .default .super true choosing 1 t hp hr 1 co agent
    hc hi ctx 7 4 _ ⟨[], []⟩).2.2.2 hpr.symm rfl 1 none false false hm

end Vitrin
