import Vitrin.Core.Grants
import Vitrin.Lib.Machine

/-!
# The expiry sweep

A row's lifetime is enforced where the row is judged: every query looks at the deadline. The
sweep `GrantTable::expire_due` runs beside that, from a timer, and marks the rows whose
deadline has passed so that their end can be reported.

Sweeping cannot be observed. Two tables that a sweep at the current instant makes equal
give the same answers, now and later, and stay so whatever is done to both
(`grantStep_alike`); hence the sweeps can be struck from a run without changing any of its
other answers (`sweep_unobservable`).
-/

namespace Vitrin

open Lib
open Option (map_map map map_some)

/-! ### A swept row -/

variable {now now' : Instant}

variable {e : Entry} {verb : Verb}

namespace Entry

def sweep (now : Instant) (e : Entry) : Entry :=
  { e with liveness := if e.liveness = .active ∧ e.deadlinePassed now = true then .expired else e.liveness }

theorem deadlinePassed_mono {t t' : Instant} (h : e.deadlinePassed t = true) (ht : t ≤ t') :
    e.deadlinePassed t' = true := by
  unfold deadlinePassed at *
  cases hd : e.deadline with
  | none => simp [hd] at h
  | some d =>
    simp only [hd, Option.any_some, decide_eq_true_eq] at h ⊢
    exact h.trans ht

@[simp] theorem sweep_row : (e.sweep now).row = e.row := rfl

@[simp] theorem sweep_deadlinePassed : (e.sweep now).deadlinePassed now' = e.deadlinePassed now' := rfl

theorem sweep_sweep (h : now ≤ now') (e : Entry) : (e.sweep now).sweep now' = e.sweep now' := by
  by_cases hd : e.liveness = .active ∧ e.deadlinePassed now = true
  · have hs : e.sweep now = { e with liveness := .expired } := by rw [sweep, if_pos hd]
    have hl : e.sweep now' = { e with liveness := .expired } := by
      rw [sweep, if_pos ⟨hd.1, deadlinePassed_mono hd.2 h⟩]
    rw [hs, hl, sweep, if_neg fun ha => nomatch ha.1]
  · have hk : e.sweep now = e := by rw [sweep, if_neg hd]
    rw [hk]

theorem sweep_refusalFor : (e.sweep now).refusalFor verb now = e.refusalFor verb now := by
  unfold refusalFor
  cases hd : e.deadlinePassed now
  · simp [sweep, hd]
  · cases hl : e.liveness <;> simp [sweep, hd, hl]

theorem sweep_stateAt : (e.sweep now).stateAt now = e.stateAt now := by
  unfold stateAt
  rw [sweep_deadlinePassed]
  cases hd : e.deadlinePassed now
  · simp [sweep, hd]
  · cases hl : e.liveness <;> simp [sweep, hd, hl]

theorem sweep_revoked_iff : (e.sweep now).liveness = .revoked ↔ e.liveness = .revoked := by
  unfold sweep
  split_ifs with hd
  · simp [hd.1]
  · rfl

theorem sweep_of_live (h : e.Live now) : e.sweep now = e := by
  rw [sweep, if_neg]
  rintro ⟨-, hd⟩
  exact absurd (h.2.symm.trans hd) (by decide)

end Entry

/-! ### A swept table -/

variable {t t' : GrantTable} {principal : PrincipalIdentity}

variable {grant : GrantId}

namespace GrantTable

def sweep (now : Instant) (t : GrantTable) : GrantTable := (t.expireDue now).1

theorem ext_entryOf (hn : t.nextId = t'.nextId) (hs : t.deadManSealed = t'.deadManSealed)
    (h : ∀ id, t.entryOf id = t'.entryOf id) : t = t' := by
  have he : t.entries = t'.entries := OrdMap.ext_get? h
  cases t
  cases hn
  cases hs
  cases he
  rfl

@[simp] theorem sweep_nextId : (t.sweep now).nextId = t.nextId := rfl

theorem entryOf_sweep {id : GrantId} : (t.sweep now).entryOf id = (t.entryOf id).map (Entry.sweep now) := by
  rw [sweep, expireDue, entryOf_updateLiveness]
  simp only [Bool.and_eq_true, decide_eq_true_eq]
  rfl

theorem entries_sweep : (t.sweep now).entries.entries = t.entries.entries.map fun x => (x.1, x.2.sweep now) := by
  simp only [sweep, expireDue, Bool.and_eq_true, decide_eq_true_eq]
  rfl

theorem sweep_sweep (h : now ≤ now') (t : GrantTable) : (t.sweep now).sweep now' = t.sweep now' := by
  refine ext_entryOf rfl rfl fun id => ?_
  rw [entryOf_sweep, entryOf_sweep, entryOf_sweep, map_map]
  exact congrArg (map · _) (funext (Entry.sweep_sweep h))

/-- Two tables that a sweep now makes equal. -/
def Alike (now : Instant) (t t' : GrantTable) : Prop := t.sweep now = t'.sweep now

theorem Alike.later (h : Alike now t t') (hn : now ≤ now') : Alike now' t t' := by
  rw [Alike, ← sweep_sweep hn t, ← sweep_sweep hn t']
  exact congrArg (sweep now') h

theorem alike_of_entryOf (hn : t.nextId = t'.nextId) (hs : t.deadManSealed = t'.deadManSealed)
    (h : ∀ id, (t.entryOf id).map (Entry.sweep now) = (t'.entryOf id).map (Entry.sweep now)) : Alike now t t' := by
  refine ext_entryOf hn hs fun id => ?_
  rw [entryOf_sweep, entryOf_sweep]
  exact h id

theorem alike_sweep (now : Instant) (t : GrantTable) : Alike now t (t.sweep now) := (sweep_sweep le_rfl t).symm

/-- A rewriting of the stored states, on a table and on the swept one. -/
theorem alike_updateLiveness {f : GrantId → Entry → Liveness}
    (h : ∀ id e, t.entryOf id = some e → ({ e with liveness := f id e } : Entry).sweep now =
      ({ e.sweep now with liveness := f id (e.sweep now) } : Entry).sweep now) :
    Alike now (t.updateLiveness f) ((t.sweep now).updateLiveness f) := by
  refine alike_of_entryOf rfl rfl fun id => ?_
  rw [entryOf_updateLiveness, entryOf_updateLiveness, entryOf_sweep]
  cases he : t.entryOf id with
  | none => rfl
  | some e => exact congrArg some (h id e he)

theorem alike_setLiveness (now : Instant) (t : GrantTable) (grant : GrantId) (l : Liveness) :
    Alike now (t.setLiveness grant l) ((t.sweep now).setLiveness grant l) := by
  refine alike_updateLiveness fun id e _ => ?_
  by_cases hi : id = grant
  · simp only [hi]
    rfl
  · simp only [hi]
    exact (Entry.sweep_sweep le_rfl e).symm

/-! ### Every query sees the swept table -/

section Queries

variable (now : Instant) (t : GrantTable)

theorem sweep_checkUseGrant :
    (t.sweep now).checkUseGrant grant principal verb now = t.checkUseGrant grant principal verb now := by
  unfold checkUseGrant
  rw [entryOf_sweep]
  cases t.entryOf grant with
  | none => rfl
  | some e => simp [Entry.sweep_row, Entry.sweep_refusalFor]

theorem sweep_scan {re : RealmId} {r : ResourceRef} :
    (t.sweep now).entries.entries.foldl (scanEntry principal re r verb now) (none, none) =
      t.entries.entries.foldl (scanEntry principal re r verb now) (none, none) := by
  rw [entries_sweep, List.foldl_map]
  simp only [scanEntry, Entry.sweep_refusalFor]
  rfl

theorem sweep_get : (t.sweep now).get grant now = t.get grant now := by
  rw [get, get, entryOf_sweep, map_map]
  simp only [Function.comp_def, Entry.sweep_row, Entry.sweep_stateAt]

theorem sweep_rows : (t.sweep now).rows now = t.rows now := by
  rw [rows, rows, entries_sweep, List.map_map]
  simp [Entry.sweep_row, Entry.sweep_stateAt]

theorem sweep_anyLiveHolderOf : (t.sweep now).anyLiveHolderOf verb now = t.anyLiveHolderOf verb now := by
  rw [anyLiveHolderOf, anyLiveHolderOf, entries_sweep, List.any_map]
  simp only [Function.comp_def, Entry.sweep_row, Entry.sweep_stateAt]

theorem sweep_holdsVerb : (t.sweep now).holdsVerb principal verb now = t.holdsVerb principal verb now := by
  rw [holdsVerb, holdsVerb, entries_sweep, List.any_map]
  simp only [Function.comp_def, Entry.sweep_stateAt]
  rfl

end Queries

/-! ### Every operation treats the swept table alike -/

section Operations

variable (now : Instant) (t : GrantTable)

theorem sweep_checkUse (principal : PrincipalIdentity) (re : RealmId) (r : ResourceRef) (verb : Verb) :
    (t.checkUse principal re r verb now).2 = ((t.sweep now).checkUse principal re r verb now).2 ∧
      Alike now (t.checkUse principal re r verb now).1
        ((t.sweep now).checkUse principal re r verb now).1 := by
  unfold checkUse
  rw [sweep_scan]
  split_ifs
  · exact ⟨rfl, alike_sweep now t⟩
  · dsimp only
    split
    · rename_i id ru _
      rw [entryOf_sweep]
      cases t.entryOf id with
      | none => exact ⟨rfl, alike_sweep now t⟩
      | some e =>
        refine ⟨rfl, ?_⟩
        split_ifs
        · exact alike_setLiveness now t id .spent
        · exact alike_sweep now t
    · exact ⟨rfl, alike_sweep now t⟩

/-- A row that has just allowed a use is not due, and is spent in both tables or in neither. -/
theorem sweep_commitUse {a : Allowed} (h : t.checkUseGrant grant principal verb now = .ok a) :
    (t.commitUse grant).2 = ((t.sweep now).commitUse grant).2 ∧
      Alike now (t.commitUse grant).1 ((t.sweep now).commitUse grant).1 := by
  obtain ⟨-, e, he, -, -, hl, -⟩ := checkUseGrant_eq_ok_iff.mp h
  unfold commitUse
  rw [entryOf_sweep, he, map_some, Entry.sweep_of_live hl]
  dsimp only
  split_ifs
  · exact ⟨rfl, alike_setLiveness now t grant .spent⟩
  · exact ⟨rfl, alike_sweep now t⟩

theorem sweep_revoke (grant : GrantId) : (t.revoke grant).2 = ((t.sweep now).revoke grant).2 ∧
    Alike now (t.revoke grant).1 ((t.sweep now).revoke grant).1 := by
  unfold revoke
  rw [entryOf_sweep]
  cases t.entryOf grant with
  | none => exact ⟨rfl, alike_sweep now t⟩
  | some e =>
    simp only [map_some, ne_eq, Entry.sweep_revoked_iff]
    split_ifs
    · exact ⟨rfl, alike_sweep now t⟩
    · exact ⟨rfl, alike_setLiveness now t grant .revoked⟩

theorem sweep_revokePrincipal (principal : PrincipalIdentity) :
    (t.revokePrincipal principal).2 = ((t.sweep now).revokePrincipal principal).2 ∧
      Alike now (t.revokePrincipal principal).1 ((t.sweep now).revokePrincipal principal).1 := by
  constructor
  · simp only [revokePrincipal, entries_sweep, List.filter_map, List.map_map, Function.comp_def, ne_eq,
      Entry.sweep_revoked_iff]
    rfl
  · refine alike_updateLiveness fun id e _ => ?_
    simp only [Bool.and_eq_true, decide_eq_true_eq, ne_eq, Entry.sweep_revoked_iff, Entry.sweep_row]
    by_cases hh : e.row.principalId = principal ∧ ¬e.liveness = .revoked
    · rw [if_pos hh, if_pos ⟨decide_eq_true hh.1, hh.2⟩]
      rfl
    · rw [if_neg hh, if_neg fun h => hh ⟨of_decide_eq_true h.1, h.2⟩]
      exact (Entry.sweep_sweep le_rfl e).symm

theorem sweep_remove (grant : GrantId) : (t.remove grant).2 = ((t.sweep now).remove grant).2 ∧
    Alike now (t.remove grant).1 ((t.sweep now).remove grant).1 := by
  constructor
  · simp [remove, entryOf_sweep]
  · refine alike_of_entryOf rfl rfl fun id => ?_
    rw [entryOf_remove, entryOf_remove, entryOf_sweep]
    split_ifs
    · rfl
    · rw [map_map]
      exact congrArg (map · _) (funext fun e => (Entry.sweep_sweep le_rfl e).symm)

theorem sweep_sealDeadMan : Alike now t.sealDeadMan (t.sweep now).sealDeadMan := by
  refine alike_of_entryOf rfl rfl fun id => ?_
  change (t.entryOf id).map _ = ((t.sweep now).entryOf id).map _
  rw [entryOf_sweep, map_map]
  exact congrArg (map · _) (funext fun e => (Entry.sweep_sweep le_rfl e).symm)

theorem sweep_push (s : GrantSpec) (d : Option Instant) (hn : s.verbs.bits ≠ 0#32) :
    Alike now (t.push (t.mintEntry s now d hn) (t.mintEntry_grantId ..))
      ((t.sweep now).push ((t.sweep now).mintEntry s now d hn)
        ((t.sweep now).mintEntry_grantId ..)) := by
  refine alike_of_entryOf rfl rfl fun id => ?_
  rw [entryOf_push, entryOf_push, entryOf_sweep, sweep_nextId]
  split_ifs
  · rfl
  · rw [map_map]
    exact congrArg (map · _) (funext fun e => (Entry.sweep_sweep le_rfl e).symm)

end Operations

end GrantTable

/-! ### Runs -/

inductive GrantOp where
  | insert (spec : GrantSpec)
  | checkUse (principal : PrincipalIdentity) (realm : RealmId) (resource : ResourceRef) (verb : Verb)
  /-- `check_use_grant` alone. -/
  | checkUseGrant (grant : GrantId) (principal : PrincipalIdentity) (verb : Verb)
  /-- `check_use_grant`, and `commit_use` if it says yes. -/
  | useGrant (grant : GrantId) (principal : PrincipalIdentity) (verb : Verb)
  | revoke (grant : GrantId)
  | revokePrincipal (principal : PrincipalIdentity)
  | remove (grant : GrantId)
  | sealDeadMan
  | holdsVerb (principal : PrincipalIdentity) (verb : Verb)
  | anyLiveHolderOf (verb : Verb)
  | get (grant : GrantId)
  | rows
  | expireDue
  deriving DecidableEq

inductive GrantAnswer where
  | minted (answer : Except InsertError GrantId)
  /-- The judgement of a use, and whether it was committed and consumed the row. -/
  | judged (answer : Except RefusalReason Allowed) (consumed : Option Bool)
  | flag (answer : Bool)
  | revoked (ids : List GrantId)
  | row (answer : Option (GrantRow × GrantState))
  | rows (answer : List (GrantRow × GrantState))
  | expired (ids : List GrantId)
  | done

def GrantAnswer.reported : GrantAnswer → List GrantId
  | .expired ids => ids
  | _ => []

def grantStep : Machine GrantTable (Instant × GrantOp) GrantAnswer := fun t a => match a.2 with
  | .insert spec => match t.insert spec a.1 with
    | .ok (t', id) => (t', .minted (.ok id))
    | .error e => (t, .minted (.error e))
  | .checkUse principal realm resource verb =>
    let (t', answer) := t.checkUse principal realm resource verb a.1
    (t', .judged answer none)
  | .checkUseGrant grant principal verb => (t, .judged (t.checkUseGrant grant principal verb a.1) none)
  | .useGrant grant principal verb => match t.checkUseGrant grant principal verb a.1 with
    | .ok allowed =>
      let (t', consumed) := t.commitUse grant
      (t', .judged (.ok allowed) (some consumed))
    | .error reason => (t, .judged (.error reason) none)
  | .revoke grant => let (t', answer) := t.revoke grant; (t', .flag answer)
  | .revokePrincipal principal => let (t', ids) := t.revokePrincipal principal; (t', .revoked ids)
  | .remove grant => let (t', answer) := t.remove grant; (t', .flag answer)
  | .sealDeadMan => (t.sealDeadMan, .done)
  | .holdsVerb principal verb => (t, .flag (t.holdsVerb principal verb a.1))
  | .anyLiveHolderOf verb => (t, .flag (t.anyLiveHolderOf verb a.1))
  | .get grant => (t, .row (t.get grant a.1))
  | .rows => (t, .rows (t.rows a.1))
  | .expireDue => let (t', ids) := t.expireDue a.1; (t', .expired ids)

def notSweep (a : Instant × GrantOp) : Bool := a.2 ≠ .expireDue

open GrantTable

open GrantAnswer (judged flag reported)

/-- Whatever else is done at an instant, a table and the swept one answer alike and stay so. -/
theorem grantStep_sweep (t : GrantTable) {op : GrantOp} (h : notSweep (now, op) = true) :
    (grantStep t (now, op)).2 = (grantStep (t.sweep now) (now, op)).2 ∧
      Alike now (grantStep t (now, op)).1 (grantStep (t.sweep now) (now, op)).1 := by
  cases op with
  | insert s =>
    simp only [grantStep, GrantTable.insert]
    by_cases hv : s.verbs.bits = 0#32
    · simp only [dif_pos hv]
      exact ⟨trivial, alike_sweep now t⟩
    · simp only [dif_neg hv]
      cases s.expiry with
      | none => exact ⟨rfl, sweep_push now t s none hv⟩
      | some ex =>
        dsimp only
        cases checkedAdd now ex with
        | none => exact ⟨rfl, alike_sweep now t⟩
        | some d => exact ⟨rfl, sweep_push now t s (some d) hv⟩
  | checkUse principal re r verb =>
    obtain ⟨han, ha⟩ := sweep_checkUse now t principal re r verb
    exact ⟨congrArg (judged · none) han, ha⟩
  | checkUseGrant | holdsVerb | anyLiveHolderOf | get | rows =>
    simp only [grantStep, sweep_checkUseGrant, sweep_holdsVerb, sweep_anyLiveHolderOf, sweep_get, sweep_rows]
    exact ⟨trivial, alike_sweep now t⟩
  | useGrant grant principal verb =>
    simp only [grantStep, sweep_checkUseGrant]
    cases hj : t.checkUseGrant grant principal verb now with
    | ok al =>
      obtain ⟨hc, ha⟩ := sweep_commitUse now t hj
      exact ⟨congrArg (fun c => judged _ (some c)) hc, ha⟩
    | error rea => exact ⟨rfl, alike_sweep now t⟩
  | revoke grant =>
    obtain ⟨han, ha⟩ := sweep_revoke now t grant
    exact ⟨congrArg flag han, ha⟩
  | revokePrincipal principal =>
    obtain ⟨hi, ha⟩ := sweep_revokePrincipal now t principal
    exact ⟨congrArg GrantAnswer.revoked hi, ha⟩
  | remove grant =>
    obtain ⟨han, ha⟩ := sweep_remove now t grant
    exact ⟨congrArg flag han, ha⟩
  | sealDeadMan => exact ⟨rfl, sweep_sealDeadMan now t⟩
  | expireDue => cases h

theorem grantStep_alike {op : GrantOp} (h : Alike now t t') (hop : notSweep (now, op) = true) :
    (grantStep t (now, op)).2 = (grantStep t' (now, op)).2 ∧
      Alike now (grantStep t (now, op)).1 (grantStep t' (now, op)).1 := by
  obtain ⟨han, ha⟩ := grantStep_sweep t hop
  obtain ⟨han', ha'⟩ := grantStep_sweep t' hop
  rw [h] at han ha
  exact ⟨han.trans han'.symm, ha.trans ha'.symm⟩

def InOrder (ops : List (Instant × GrantOp)) : Prop := ops.Pairwise fun a b => a.1 ≤ b.1

variable {a : Instant × GrantOp} {ops : List (Instant × GrantOp)}

theorem InOrder.head_le (h : InOrder (a :: ops)) : ∀ b ∈ ops, a.1 ≤ b.1 := (List.pairwise_cons.mp h).1

theorem InOrder.tail (h : InOrder (a :: ops)) : InOrder ops := (List.pairwise_cons.mp h).2

theorem answers_without_sweeps (t : GrantTable) (h : InOrder ops) :
    grantStep.outsAt notSweep t ops = grantStep.outs t (ops.filter notSweep) := by
  -- Along the run the two tables are alike at every instant still to come.
  let R (r : List (Instant × GrantOp)) (s t : GrantTable) : Prop := InOrder r ∧ ∀ a ∈ r, Alike a.1 s t
  have hd (s t : GrantTable) (a : Instant × GrantOp) (r : List (Instant × GrantOp)) (hR : R (a :: r) s t)
      (ha : notSweep a = false) : R r (grantStep s a).1 t := by
    obtain ⟨now, op⟩ := a
    obtain rfl : op = .expireDue := by simpa [notSweep] using ha
    refine ⟨hR.1.tail, fun b hb => ?_⟩
    exact ((alike_sweep now s).later (hR.1.head_le b hb)).symm.trans (hR.2 b (.tail _ hb))
  have hk (s t : GrantTable) (a : Instant × GrantOp) (r : List (Instant × GrantOp)) (hR : R (a :: r) s t)
      (ha : notSweep a = true) :
      R r (grantStep s a).1 (grantStep t a).1 ∧ (grantStep s a).2 = (grantStep t a).2 := by
    obtain ⟨han, hal⟩ := grantStep_alike (hR.2 a (.head _)) ha
    exact ⟨⟨hR.1.tail, fun b hb => hal.later (hR.1.head_le b hb)⟩, han⟩
  exact (Machine.exec_erase hd hk ops ⟨h, fun _ _ => rfl⟩).2

/-! ### The end of a row -/

theorem grantStep_evolves (t : GrantTable) (a : Instant × GrantOp) : t.Evolves (grantStep t a).1 := by
  obtain ⟨now, op⟩ := a
  cases op with
  | insert s =>
    simp only [grantStep]
    cases hi : t.insert s now with
    | ok m => exact insert_evolves hi
    | error e => exact .refl t
  | checkUse principal re r verb => exact (checkUse_relives t principal re r verb now).evolves
  | useGrant grant principal verb =>
    simp only [grantStep]
    cases t.checkUseGrant grant principal verb now with
    | ok al => exact (commitUse_relives t grant).evolves
    | error rea => exact .refl t
  | revoke grant => exact (revoke_relives t grant).evolves
  | revokePrincipal principal => exact (revokePrincipal_relives t principal).evolves
  | remove grant => exact remove_evolves t grant
  | sealDeadMan => exact sealDeadMan_evolves t
  | expireDue => exact (expireDue_relives t now).evolves
  | checkUseGrant | holdsVerb | anyLiveHolderOf | get | rows => exact .refl t

theorem grantRun_evolves {t : GrantTable} (ops : List (Instant × GrantOp)) : t.Evolves (grantStep.exec t ops) :=
  grantStep.exec_inv (P := fun t' => t.Evolves t') (fun t' a h => h.trans (grantStep_evolves t' a)) (.refl t) ops

/-- The row was minted and is not active any more, or is gone. -/
def Over (id : GrantId) (t : GrantTable) : Prop :=
  id < t.nextId ∧ ∀ e, t.entryOf id = some e → e.liveness ≠ .active

variable {id : GrantId}

theorem Over.evolves (h : Over id t) (hev : t.Evolves t') : Over id t' := by
  refine ⟨h.1.trans_le hev.nextId, fun e' he' ha => ?_⟩
  obtain ⟨e, he, hb⟩ := hev.old id e' he' h.1
  exact h.2 e he (hb.active ha)

theorem mem_expireDue (h : id ∈ (t.expireDue now).2) : ¬Over id t ∧ Over id (t.expireDue now).1 := by
  simp only [expireDue, List.mem_map, List.mem_filter, Bool.and_eq_true, decide_eq_true_eq] at h
  obtain ⟨⟨id, e⟩, ⟨hm, ha, hd⟩, rfl⟩ := h
  have he : t.entryOf id = some e := OrdMap.mem_entries_iff.mp hm
  have hl : id < t.nextId := lt_nextId he
  refine ⟨fun hover => hover.2 e he ha, hl, fun e' he' => ?_⟩
  change (t.sweep now).entryOf id = some e' at he'
  rw [entryOf_sweep, he, map_some, Entry.sweep, if_pos ⟨ha, hd⟩] at he'
  cases he'
  exact fun h => nomatch h

theorem nodup_expireDue (t : GrantTable) (now : Instant) : (t.expireDue now).2.Nodup := by
  refine List.Pairwise.map _ ?_ (t.entries.sorted.filter _)
  intro x y hx
  exact hx.ne

/-- Along a run no row is reported twice, and none that is already over. -/
theorem reported_once (t : GrantTable) (ops : List (Instant × GrantOp)) :
    ((grantStep.outs t ops).flatMap reported).Nodup ∧
      ∀ id ∈ (grantStep.outs t ops).flatMap reported, ¬Over id t := by
  induction ops generalizing t with
  | nil => exact ⟨List.nodup_nil, fun _ h => (nomatch h)⟩
  | cons a ops ih =>
    obtain ⟨hn, hover⟩ := ih (grantStep t a).1
    have hr : ∀ id ∈ (grantStep.outs (grantStep t a).1 ops).flatMap reported, ¬Over id t :=
      fun id hi h => hover id hi (h.evolves (grantStep_evolves t a))
    have hf : (grantStep t a).2.reported.Nodup ∧
        ∀ id ∈ (grantStep t a).2.reported, ¬Over id t ∧ Over id (grantStep t a).1 := by
      obtain ⟨now, op⟩ := a
      cases op with
      | expireDue => exact ⟨nodup_expireDue t now, fun id hi => mem_expireDue hi⟩
      | insert | useGrant =>
        simp only [grantStep]
        split <;> exact ⟨List.nodup_nil, fun _ h => (nomatch h)⟩
      | _ => exact ⟨List.nodup_nil, fun _ h => (nomatch h)⟩
    refine ⟨List.nodup_append.mpr ⟨hf.1, hn, ?_⟩, ?_⟩
    · rintro id hi _ hi' rfl
      exact hover id hi' (hf.2 id hi).2
    · intro id hi
      exact (List.mem_append.mp hi).elim (fun h => (hf.2 id h).1) (hr id)

theorem not_live_later {e' : Entry} (he : t.entryOf id = some e) (hd : ¬e.Live now) (hev : t.Evolves t')
    (he' : t'.entryOf id = some e') (hn : now ≤ now') : ¬e'.Live now' := by
  intro hl
  obtain ⟨e₀, he₀, hb⟩ := hev.old id e' he' (lt_nextId he)
  cases he.symm.trans he₀
  exact hd ((hb.live hl).of_le hn)

theorem checkUseGrant_error {r : RefusalReason} (h : t.checkUseGrant grant principal verb now = .error r)
    (hre : r ≠ .notGranted) : ∃ e, t.entryOf grant = some e ∧ ¬e.Live now := by
  unfold checkUseGrant at h
  split_ifs at h
  · cases h
    exact absurd rfl hre
  · cases he : t.entryOf grant with
    | none =>
      rw [he] at h
      cases h
      exact absurd rfl hre
    | some e =>
      refine ⟨e, rfl, fun hl => ?_⟩
      simp only [he] at h
      split_ifs at h
      · cases h
        exact hre rfl
      · cases hr : e.refusalFor verb now with
        | none => simp only [hr, reduceCtorEq] at h
        | some r' =>
          simp only [hr, Except.error.injEq] at h
          subst h
          -- a live row refuses only what it does not confer
          have hv : e.row.verbs.contains verb = false := by
            by_contra hv
            have hn := Entry.refusalFor_eq_none_iff.mpr ⟨Bool.not_eq_false _ ▸ hv, hl⟩
            rw [hn] at hr
            cases hr
          rw [Entry.refusalFor, hv] at hr
          exact hre (Option.some.inj hr).symm

/-- **The sweep is unobservable.** From any table, and in any run along a clock that does not
run backwards, every answer but those of the sweeps is that of the run without them. No row
is reported twice. A row that has refused as expired or revoked allows nothing from then on,
neither by its id nor in a search. -/
theorem sweep_unobservable (t : GrantTable) (ops : List (Instant × GrantOp)) (hclock : InOrder ops) :
    grantStep.outsAt notSweep t ops = grantStep.outs t (ops.filter notSweep) ∧
      ((grantStep.outs t ops).flatMap GrantAnswer.reported).Nodup ∧
      ∀ past more now now' grant principal verb reason, now ≤ now' →
        (grantStep.exec t past).checkUseGrant grant principal verb now = .error reason → reason ≠ .notGranted →
        let t' := grantStep.exec t (past ++ more)
        (∀ p' v' al, t'.checkUseGrant grant p' v' now' ≠ .ok al) ∧
          ∀ p' re r v' al,
            (t'.checkUse p' re r v' now').2 = .ok al → al.grantId ≠ grant := by
  refine ⟨answers_without_sweeps t hclock, (reported_once t ops).1, ?_⟩
  intro past more now now' grant principal verb reason hn hre hr t'
  obtain ⟨e, he, hd⟩ := checkUseGrant_error hre hr
  have hev : (grantStep.exec t past).Evolves t' := by
    rw [show t' = _ from grantStep.exec_append t past more]
    exact grantRun_evolves more
  have hd' (e' : Entry) (he' : t'.entryOf grant = some e') : ¬e'.Live now' :=
    not_live_later he hd hev he' hn
  constructor
  · intro p' v' al hok
    obtain ⟨-, e', he', -, -, hl, -⟩ := checkUseGrant_eq_ok_iff.mp hok
    exact hd' e' he' hl
  · rintro p' re r v' al hok rfl
    obtain ⟨e', he', -, ha⟩ := checkUse_ok hok
    exact hd' e' he' (Entry.refusalFor_eq_none_iff.mp ha).2

def shortLived : GrantSpec where
  principalId := ⟨"agent"⟩
  realmId := ⟨"work"⟩
  resourceRef := .wholeRealm
  verbs := .observe
  expiry := some 10
  maxEventRate := ⟨20, NonZeroU32.twenty⟩
  persistence := .whileRunning
  issuer := .humanConsent

/-- It is minted, asked for, swept, and asked for again. -/
def sweptRun : List (Instant × GrantOp) :=
  [(0, .insert shortLived), (5, .checkUseGrant 1 ⟨"agent"⟩ .observe), (10, .expireDue),
    (10, .checkUseGrant 1 ⟨"agent"⟩ .observe), (11, .rows), (12, .expireDue)]

theorem sweep_unobservable_sweptRun : InOrder sweptRun ∧
    grantStep.outsAt notSweep .new sweptRun = grantStep.outs .new (sweptRun.filter notSweep) ∧
    ((grantStep.outs .new sweptRun).flatMap GrantAnswer.reported).Nodup := by
  have hc : InOrder sweptRun := by
    unfold InOrder sweptRun
    simp
  obtain ⟨ha, hon, -⟩ := sweep_unobservable .new sweptRun hc
  exact ⟨hc, ha, hon⟩

end Vitrin
