import Vitrin.Core.DeadMan
import Vitrin.Core.Enforcement

/-!
# Uses over whole runs

`enforceUse` says what one use costs. Here uses of every connection are interleaved
with whatever else moves the stores of authority, and the price of a one-shot row is
followed through the run.

`UseSystem` is the two stores, the attention signal and a chokepoint for each
connection. A step is a use on some connection or an operation of the stores; its
output names the one-shot row it was admitted by, if it was.

A row that is not active never becomes so again (`useStep_spent`), and an admitted use
leaves a one-shot row spent. So no run admits two uses of it (`use_pays_once`).
-/

namespace Vitrin

open Lib

/-- The stores, and the chokepoint of each connection. -/
structure UseSystem where
  stores : AuthorityStores
  attention : AttentionSignal
  chokepoints : ConnectionId → Chokepoint

/-- Something that happens to the system. -/
inductive UseOp where
  | use (conn : ConnectionId) (req : UseRequest) (env : UseEnv) (now : Instant) (w : Wire)
  | store (op : StoreOp)
  | sealDeadMan
  /-- The human pressed the chord, or a window opened or closed. -/
  | attention (signal : AttentionSignal)

def onceAdmitted (grants : GrantTable) (judged : Except Refuse (Allowed × Option Exemption)) : Option GrantId :=
  match judged with
  | .ok (allowed, _) =>
    if (grants.entryOf allowed.grantId).any (·.row.persistence = .once) then some allowed.grantId else none
  | .error _ => none

/-- One step; the output is the one-shot row a use was admitted by. -/
def useStep : Machine UseSystem UseOp (Option GrantId) := fun s op => match op with
  | .use conn req env now w =>
    let c := s.chokepoints conn
    let r := c.enforceUse req s.stores.grants s.stores.petitions s.attention env now w
    ({ stores := { s.stores with grants := r.grants }
       attention := r.attention
       chokepoints := Function.update s.chokepoints conn r.chokepoint },
     onceAdmitted s.stores.grants (c.judge req s.stores.grants s.stores.petitions s.attention env now).2)
  | .store op => ({ s with stores := (storeStep s.stores op).1 }, none)
  | .sealDeadMan => ({ s with stores := { s.stores with grants := s.stores.grants.sealDeadMan } }, none)
  | .attention signal => ({ s with attention := signal }, none)

theorem useStep_evolves (s : UseSystem) (op : UseOp) : s.stores.grants.Evolves (useStep s op).1.stores.grants := by
  cases op with
  | use c r e now w => exact Chokepoint.enforceUse_relives.evolves
  | store op => exact (storeStep_evolves s.stores op).1
  | sealDeadMan => exact s.stores.grants.sealDeadMan_evolves
  | attention si => exact .refl _

/-- The id has been minted, and its row is not active if it is still there. -/
def Spent (g : GrantId) (s : UseSystem) : Prop :=
  g < s.stores.grants.nextId ∧ ∀ e, s.stores.grants.entryOf g = some e → e.liveness ≠ .active

variable {g : GrantId}

theorem useStep_spent (s : UseSystem) (op : UseOp) (h : Spent g s) : Spent g (useStep s op).1 := by
  have hev := useStep_evolves s op
  refine ⟨h.1.trans_le hev.nextId, fun e' he' ha => ?_⟩
  obtain ⟨e, he, hb⟩ := hev.old g e' he' h.1
  exact h.2 e he (hb.active ha)

theorem onceAdmitted_eq_some {gr : GrantTable} {j : Except Refuse (Allowed × Option Exemption)}
    (h : onceAdmitted gr j = some g) :
    ∃ a ex e, j = .ok (a, ex) ∧ a.grantId = g ∧ gr.entryOf g = some e ∧
      e.row.persistence = .once := by
  cases j with
  | error r => cases h
  | ok ad =>
    obtain ⟨a, ex⟩ := ad
    simp only [onceAdmitted, Option.any_eq_true, decide_eq_true_eq] at h
    split at h
    · rename_i ha
      obtain ⟨e, he, hon⟩ := ha
      cases h
      exact ⟨a, ex, e, rfl, rfl, he, hon⟩
    · cases h

/-- A use that answers with a one-shot row was a use, admitted by that row while it was active. -/
theorem useStep_once {s : UseSystem} {op : UseOp} (h : (useStep s op).2 = some g) :
    Spent g (useStep s op).1 ∧ ∃ e, s.stores.grants.entryOf g = some e ∧ e.liveness = .active := by
  cases op with
  | use c r en now w =>
    obtain ⟨a, ex, e, hj, rfl, he, hon⟩ := onceAdmitted_eq_some h
    obtain ⟨e', hp⟩ := Chokepoint.enforceUse_admitted (w := w) hj
    cases he.symm.trans hp.entry
    refine ⟨⟨(GrantTable.lt_nextId he).trans_le (useStep_evolves s _).nextId, fun e' he' => ?_⟩, e, he, hp.active⟩
    have hs := hp.spent
    rw [if_pos hon] at hs
    cases hs.symm.trans he'
    exact fun h => nomatch h
  | store | sealDeadMan | attention => cases h

/-- **A refused use costs nothing and an admitted one pays exactly once.** Whatever the chokepoint, the
stores and the request: a use the decision chain refuses is answered with one of the chain's seven
codes, calls no sink, leaves every row and the attention window as they were, and leaves the handle's
bucket no emptier at that instant. A use the chain admits has taken one token, moved a one-shot row from
active to spent, and closed the attention window exactly if that suppressed a preemption. And over every
run, whatever else happens in it, a one-shot row admits at most one use. -/
theorem use_pays_once (c : Chokepoint) (req : UseRequest) (grants : GrantTable) (petitions : PetitionRegistry)
    (attention : AttentionSignal) (env : UseEnv) (now : Instant) (w : Wire) (s : UseSystem) (ops : List UseOp)
    (g : GrantId) :
    let judged := (c.judge req grants petitions attention env now).2
    let r := c.enforceUse req grants petitions attention env now w
    (∀ re, judged = .error re →
      re.code ∈ Chokepoint.chainRefusals ∧
      (∀ o, r.result = .ok o → ∃ v, o = .refused re.code v) ∧
      Chokepoint.CostsNothing c req grants attention now r) ∧
    (∀ a ex, judged = .ok (a, ex) →
      ∃ e, Chokepoint.PaysOnce c req grants attention env now r a.grantId e) ∧
    (useStep.outs s ops).count (some g) ≤ 1 := by
  intro judged r
  refine ⟨fun re h => ⟨(Chokepoint.judge_error h).1, fun o hou => ?_, Chokepoint.enforceUse_refused h⟩,
    fun a ex h => Chokepoint.enforceUse_admitted h, ?_⟩
  · have hr : r.result = ((c.judge req grants petitions attention env now).1.voiceRefusal req.grantWireId
        req.kind.verb re req.kind.coalescible now w).2.2.map (.refused re.code) := by
      simp [r, Chokepoint.enforceUse, show (c.judge req grants petitions attention env now).2 = _ from h]
    rw [hr] at hou
    generalize (Chokepoint.voiceRefusal ..).2.2 = v at hou
    cases v with
    | error e => cases hou
    | ok b =>
      cases hou
      exact ⟨b, rfl⟩
  · refine Machine.outs_count_le_one (P := Spent g) (fun s op h => (useStep_once h).1) useStep_spent ?_ s ops
    intro s op hs hou
    obtain ⟨-, e, he, ha⟩ := useStep_once hou
    exact hs.2 e he ha

namespace Sample

def onceTable : GrantTable :=
  let spec := { approved.toSpec with persistence := .once }
  GrantTable.new.push (GrantTable.new.mintEntry spec 0 none (by decide)) (GrantTable.new.mintEntry_grantId ..)

/-- A capture through handle 4, which names row 1. -/
def capture : UseRequest := ⟨6, 4, some 1, agent, .capture⟩

/-- A realm that shows one pixel, and sinks that are never asked. -/
def env : UseEnv where
  realmView := some ⟨[1, 2, 3, 255], 1, 1⟩
  presence := .new
  physicalRealm := some realm
  grantRealm := none
  launch _ := .error .internal
  designate _ := .error .unavailable
  memfd := true

end Sample

open Sample in
/-- A one-shot capture is admitted, pays, and is then refused as spent without being charged. -/
theorem use_pays_once_capture :
    let first := Chokepoint.new.enforceUse capture onceTable registry (.new .super) env 0 ⟨[], []⟩
    (∃ e, Chokepoint.PaysOnce .new capture onceTable (.new .super) env 0 first 1 e) ∧
    Chokepoint.CostsNothing first.chokepoint capture first.grants first.attention 1
      (first.chokepoint.enforceUse capture first.grants registry first.attention env 1 ⟨[], []⟩) := by
  intro first
  have hf := use_pays_once .new capture onceTable registry (.new .super) env 0 ⟨[], []⟩
    ⟨⟨onceTable, registry⟩, .new .super, fun _ => .new⟩ [] 1
  have ha := use_pays_once first.chokepoint capture first.grants registry first.attention env 1 ⟨[], []⟩
    ⟨⟨onceTable, registry⟩, .new .super, fun _ => .new⟩ [] 1
  exact ⟨hf.2.1 ⟨1, _⟩ none rfl, (ha.1 (.of .expired) rfl).2.2⟩

end Vitrin
