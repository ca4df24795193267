import Vitrin.Core.Grants

/-!
# What a search of the grant table means

`GrantTable::check_use` asks whether a principal may do something under any of its rows.
One loop over the table picks the row that allows it, collects the refusals of those that do
not, and what is picked is spent if it was good for one use.

`checkUse_meaning` says what the answer is without the loop. The loop's invariants `Refused`
and `Chosen` say it of the rows seen so far.

A request for nothing is refused although every active row confers it (`checkUse_nothing`).
-/

namespace Vitrin

open Lib

/-- The row is the principal's, in the realm, over the resource. -/
structure Entry.Matches (e : Entry) (principal : PrincipalIdentity) (realm : RealmId) (resource : ResourceRef) :
    Prop where
  principalId : e.row.principalId = principal
  realmId : e.row.realmId = realm
  covers : e.row.resourceRef.covers resource = true

/-- The row confers the verbs and is active. -/
def Entry.Allows (e : Entry) (verb : Verb) (now : Instant) : Prop :=
  e.row.verbs.contains verb = true ∧ e.stateAt now = .active

variable {e : Entry}

theorem Entry.refusalFor_eq_none_iff_allows {verb : Verb} {now : Instant} :
    e.refusalFor verb now = none ↔ e.Allows verb now := by
  rw [refusalFor_eq_none_iff, Allows, stateAt_eq_active_iff]

/-- A row with this id and rung comes before the given one: a standing row before every
one-shot one, and a newer before an older one. -/
def PersistenceRung.Outranks (rung : PersistenceRung) (id : GrantId) (id' : GrantId) (e' : Entry) : Prop :=
  match rung with
  | .whileRunning => e'.row.persistence = .whileRunning → id' ≤ id
  | .once => e'.row.persistence = .once ∧ id' ≤ id

namespace RefusalReason

theorem rank_maxOpt {a b : RefusalReason} : (maxOpt (some a) b).rank = max a.rank b.rank := by
  rw [maxOpt]
  split_ifs with h
  · exact (max_eq_right h).symm
  · exact (max_eq_left (Nat.le_of_not_le h)).symm

theorem maxOpt_some_cases (a b : RefusalReason) : maxOpt (some a) b = a ∨ maxOpt (some a) b = b := by
  rw [maxOpt]
  split_ifs
  · exact .inr rfl
  · exact .inl rfl

end RefusalReason

namespace GrantTable

section Scan

variable (principal : PrincipalIdentity) (realm : RealmId) (resource : ResourceRef) (verb : Verb) (now : Instant)

/-- The strongest refusal among the matching rows of a list, if one of them refuses. -/
def Refused (seen : List (GrantId × Entry)) : Option RefusalReason → Prop
  | none => ∀ x ∈ seen, x.2.Matches principal realm resource → x.2.refusalFor verb now = none
  | some r => (∃ x ∈ seen, x.2.Matches principal realm resource ∧ x.2.refusalFor verb now = some r) ∧
      ∀ x ∈ seen, x.2.Matches principal realm resource → ∀ r', x.2.refusalFor verb now = some r' → r'.rank ≤ r.rank

/-- The row that is chosen among the matching ones of a list, if one of them allows the use. -/
def Chosen (seen : List (GrantId × Entry)) : Option (GrantId × PersistenceRung) → Prop
  | none => ∀ x ∈ seen, x.2.Matches principal realm resource → x.2.refusalFor verb now ≠ none
  | some (id, rung) =>
      (∃ e, (id, e) ∈ seen ∧ e.Matches principal realm resource ∧ e.refusalFor verb now = none ∧
        e.row.persistence = rung) ∧
      ∀ x ∈ seen, x.2.Matches principal realm resource → x.2.refusalFor verb now = none → rung.Outranks id x.1 x.2

variable {principal realm resource verb now} {x : GrantId × Entry}

theorem scanEntry_of_matches (h : x.2.Matches principal realm resource)
    (acc : Option RefusalReason × Option (GrantId × PersistenceRung)) :
    scanEntry principal realm resource verb now acc x = match x.2.refusalFor verb now with
      | some r => (some (RefusalReason.maxOpt acc.1 r), acc.2)
      | none => if replaces acc.2 x.2.row.persistence then (acc.1, some (x.1, x.2.row.persistence)) else acc := by
  refine if_neg ?_
  rintro (hn | hn | hn)
  · exact hn h.principalId
  · exact hn h.realmId
  · rw [h.covers] at hn
    cases hn

theorem scanEntry_of_not_matches (h : ¬x.2.Matches principal realm resource)
    (acc : Option RefusalReason × Option (GrantId × PersistenceRung)) :
    scanEntry principal realm resource verb now acc x = acc := by
  refine if_pos ?_
  by_contra ha
  simp only [not_or, not_not, Bool.not_eq_true', Bool.not_eq_false] at ha
  exact h ⟨ha.1, ha.2.1, ha.2.2⟩

theorem forall_mem_concat {α : Type} {P : α → Prop} {s : List α} {x : α} :
    (∀ y ∈ s ++ [x], P y) ↔ (∀ y ∈ s, P y) ∧ P x := by
  simp only [List.mem_append, List.mem_singleton, or_imp, forall_and, forall_eq]

variable {s : List (GrantId × Entry)} {ref : Option RefusalReason}

section

variable (h : Refused principal realm resource verb now s ref)

include h

theorem Refused.concat
    (hx : x.2.Matches principal realm resource → x.2.refusalFor verb now = none) :
    Refused principal realm resource verb now (s ++ [x]) ref := by
  cases ref with
  | none => exact forall_mem_concat.mpr ⟨h, hx⟩
  | some r =>
    obtain ⟨⟨y, hy, hr⟩, hma⟩ := h
    refine ⟨⟨y, List.mem_append_left _ hy, hr⟩, forall_mem_concat.mpr ⟨hma, ?_⟩⟩
    intro hm r' hr'
    rw [hx hm] at hr'
    cases hr'

theorem Refused.add {re : RefusalReason}
    (hm : x.2.Matches principal realm resource) (hx : x.2.refusalFor verb now = some re) :
    Refused principal realm resource verb now (s ++ [x]) (some (RefusalReason.maxOpt ref re)) := by
  have hl : x ∈ s ++ [x] := List.mem_append_right _ (.head _)
  cases ref with
  | none =>
    refine ⟨⟨x, hl, hm, hx⟩, forall_mem_concat.mpr ⟨?_, ?_⟩⟩
    · intro y hy hm' r' hr'
      rw [h y hy hm'] at hr'
      cases hr'
    · intro _ r' hr'
      exact (Option.some.inj (hx.symm.trans hr') ▸ Nat.le_refl _)
  | some r =>
    obtain ⟨⟨y, hy, hr⟩, hma⟩ := h
    constructor
    · -- the stronger of the two is still some row's
      obtain hold | hn := RefusalReason.maxOpt_some_cases r re
      · exact ⟨y, List.mem_append_left _ hy, hold.symm ▸ hr⟩
      · exact ⟨x, hl, hn.symm ▸ ⟨hm, hx⟩⟩
    · rw [RefusalReason.rank_maxOpt]
      refine forall_mem_concat.mpr ⟨?_, ?_⟩
      · intro z hz hm' r' hr'
        exact (hma z hz hm' r' hr').trans (le_max_left _ _)
      · intro _ r' hr'
        cases hx.symm.trans hr'
        exact le_max_right _ _

end

variable {acc : Option RefusalReason × Option (GrantId × PersistenceRung)}

theorem scanEntry_refused (h : Refused principal realm resource verb now s acc.1) :
    Refused principal realm resource verb now (s ++ [x]) (scanEntry principal realm resource verb now acc x).1 := by
  by_cases hm : x.2.Matches principal realm resource
  · rw [scanEntry_of_matches hm]
    cases hr : x.2.refusalFor verb now with
    | some r => exact h.add hm hr
    | none =>
      split_ifs
      · exact h.concat fun _ => hr
      · exact h.concat fun _ => hr
  · rw [scanEntry_of_not_matches hm]
    exact h.concat fun hm' => absurd hm' hm

variable {ch : Option (GrantId × PersistenceRung)}

section

variable (h : Chosen principal realm resource verb now s ch)

include h

theorem Chosen.concat
    (hx : x.2.Matches principal realm resource → x.2.refusalFor verb now = none → ∃ c ∈ ch, c.2.Outranks c.1 x.1 x.2) :
    Chosen principal realm resource verb now (s ++ [x]) ch := by
  cases ch with
  | none =>
    refine forall_mem_concat.mpr ⟨h, fun hm hr => ?_⟩
    obtain ⟨c, hc, -⟩ := hx hm hr
    cases hc
  | some c =>
    obtain ⟨⟨e, he, hc⟩, ht⟩ := h
    refine ⟨⟨e, List.mem_append_left _ he, hc⟩, forall_mem_concat.mpr ⟨ht, fun hm hr => ?_⟩⟩
    obtain ⟨c', hc', hou⟩ := hx hm hr
    cases hc'
    exact hou

/-- A row that is newer than those seen takes the place of the chosen one, if it may. -/
theorem Chosen.replace (hn : ∀ y ∈ s, y.1 < x.1)
    (hm : x.2.Matches principal realm resource) (hr : x.2.refusalFor verb now = none)
    (hre : replaces ch x.2.row.persistence = true) :
    Chosen principal realm resource verb now (s ++ [x]) (some (x.1, x.2.row.persistence)) := by
  have hl : x ∈ s ++ [x] := List.mem_append_right _ (.head _)
  refine ⟨⟨x.2, hl, hm, hr, rfl⟩, forall_mem_concat.mpr ⟨?_, ?_⟩⟩
  · intro y hy hym hyr
    cases hru : x.2.row.persistence with
    | whileRunning => exact fun _ => (hn y hy).le
    | once =>
      -- a one-shot row is chosen only where no standing row was
      refine ⟨?_, (hn y hy).le⟩
      cases ch with
      | none => exact absurd hyr (h y hy hym)
      | some c =>
        obtain ⟨id, r⟩ := c
        cases r with
        | once => exact (h.2 y hy hym hyr).1
        | whileRunning =>
          rw [hru] at hre
          cases hre
  · intro _ _
    cases hru : x.2.row.persistence with
    | whileRunning => exact fun _ => le_rfl
    | once => exact ⟨hru, le_rfl⟩

end

theorem scanEntry_chooses (h : Chosen principal realm resource verb now s acc.2) (hn : ∀ y ∈ s, y.1 < x.1) :
    Chosen principal realm resource verb now (s ++ [x]) (scanEntry principal realm resource verb now acc x).2 := by
  by_cases hm : x.2.Matches principal realm resource
  · rw [scanEntry_of_matches hm]
    cases hr : x.2.refusalFor verb now with
    | some r => exact h.concat fun _ hno => nomatch hr.symm.trans hno
    | none =>
      split_ifs with hre
      · exact h.replace hn hm hr hre
      · refine h.concat fun _ _ => ?_
        -- only a standing row is not replaced, and only by a one-shot one
        obtain ⟨ref, ch⟩ := acc
        match ch, hre with
        | none, hre => exact absurd rfl hre
        | some (id, .once), hre => exact absurd rfl hre
        | some (id, .whileRunning), hre =>
          refine ⟨(id, .whileRunning), rfl, fun hru => absurd ?_ hre⟩
          exact decide_eq_true hru
  · rw [scanEntry_of_not_matches hm]
    exact h.concat fun hm' => absurd hm' hm

/-- What the loop ends with, over rows in the order of their ids. -/
theorem foldl_scanEntry (hso : s.Pairwise fun x y => x.1 < y.1) : Refused principal realm resource verb now s
        (s.foldl (scanEntry principal realm resource verb now) (none, none)).1 ∧
      Chosen principal realm resource verb now s
        (s.foldl (scanEntry principal realm resource verb now) (none, none)).2 := by
  induction s using List.reverseRecOn with
  | nil => exact ⟨fun _ hx => (nomatch hx), fun _ hx => (nomatch hx)⟩
  | append_singleton s x ih =>
    obtain ⟨hs, -, hn⟩ := List.pairwise_append.mp hso
    obtain ⟨hr, hc⟩ := ih hs
    rw [List.foldl_append]
    exact ⟨scanEntry_refused hr, scanEntry_chooses hc fun y hy => hn y hy x (.head _)⟩

end Scan

/-! ### The answer -/

/-- A row of the table that the request matches. -/
def Covering (t : GrantTable) (principal : PrincipalIdentity) (realm : RealmId) (resource : ResourceRef)
    (id : GrantId) (e : Entry) : Prop :=
  t.entryOf id = some e ∧ e.Matches principal realm resource

/-- Only row `id` changes, and only by being spent if it is one-shot. -/
def SpendsOnly (t : GrantTable) (id : GrantId) (e : Entry) (t' : GrantTable) : Prop :=
  t'.nextId = t.nextId ∧ t'.deadManSealed = t.deadManSealed ∧ ∀ id', t'.entryOf id' =
    if id' = id ∧ e.row.persistence = .once then some { e with liveness := .spent } else t.entryOf id'

theorem setLiveness_spendsOnly {t : GrantTable} {id : GrantId} (he : t.entryOf id = some e)
    (hon : e.row.persistence = .once) : t.SpendsOnly id e (t.setLiveness id .spent) := by
  refine ⟨rfl, rfl, fun i' => ?_⟩
  rw [setLiveness, entryOf_updateLiveness]
  by_cases hi : i' = id
  · rw [if_pos ⟨hi, hon⟩, hi, he]
    simp
  · rw [if_neg fun h => hi h.1]
    simp [hi]

theorem spendsOnly_refl {t : GrantTable} {id : GrantId} (h : e.row.persistence ≠ .once) : t.SpendsOnly id e t :=
  ⟨rfl, rfl, fun _ => by rw [if_neg fun hi => h hi.2]⟩

/-- **What a search means.** A request that names no verb is refused as not granted. One that names a verb succeeds
exactly if a matching row is active and confers it, under the row that outranks the others. -/
theorem checkUse_meaning (t : GrantTable) (principal : PrincipalIdentity) (realm : RealmId) (resource : ResourceRef)
    (verb : Verb) (now : Instant) :
    (verb.bits = 0#32 → t.checkUse principal realm resource verb now = (t, .error .notGranted)) ∧
    (verb.bits ≠ 0#32 →
      ((∃ a, (t.checkUse principal realm resource verb now).2 = .ok a) ↔
        ∃ id e, t.Covering principal realm resource id e ∧ e.Allows verb now) ∧
      (∀ a, (t.checkUse principal realm resource verb now).2 = .ok a →
        ∃ e, t.Covering principal realm resource a.grantId e ∧ e.Allows verb now ∧
          a.maxEventRate = e.row.constraints.maxEventRate ∧
          (∀ id' e', t.Covering principal realm resource id' e' → e'.Allows verb now →
            e.row.persistence.Outranks a.grantId id' e') ∧
          t.SpendsOnly a.grantId e (t.checkUse principal realm resource verb now).1) ∧
      ∀ r, (t.checkUse principal realm resource verb now).2 = .error r →
        (t.checkUse principal realm resource verb now).1 = t ∧
          (∀ id e r', t.Covering principal realm resource id e → e.refusalFor verb now = some r' → r'.rank ≤ r.rank) ∧
          ((∃ id e, t.Covering principal realm resource id e ∧ e.refusalFor verb now = some r) ∨
            (∀ id e, ¬t.Covering principal realm resource id e) ∧ r = .notGranted)) := by
  refine ⟨fun hno => if_pos hno, fun hverb => ?_⟩
  obtain ⟨hre, hch⟩ := @foldl_scanEntry principal realm resource verb now _ t.entries.sorted
  rw [checkUse, if_neg hverb]
  generalize t.entries.entries.foldl (scanEntry principal realm resource verb now) (none, none) = found at *
  obtain ⟨ref, ch⟩ := found
  have hme {id : GrantId} {e : Entry} : (id, e) ∈ t.entries.entries ↔ t.entryOf id = some e := OrdMap.mem_entries_iff
  cases ch with
  | some c =>
    obtain ⟨id, ru⟩ := c
    obtain ⟨⟨e, he, hm, hr, rfl⟩, ht⟩ := hch
    rw [hme] at he
    have ha : e.Allows verb now := Entry.refusalFor_eq_none_iff_allows.mp hr
    simp only [he]
    refine ⟨iff_of_true ⟨_, rfl⟩ ⟨id, e, ⟨he, hm⟩, ha⟩, ?_, fun _ h => (nomatch h)⟩
    rintro a ⟨⟩
    refine ⟨e, ⟨he, hm⟩, ha, rfl, ?_, ?_⟩
    · intro id' e' hc ha'
      exact ht (id', e') (hme.mpr hc.1) hc.2 (Entry.refusalFor_eq_none_iff_allows.mpr ha')
    · split_ifs with hon
      · exact setLiveness_spendsOnly he hon
      · exact spendsOnly_refl hon
  | none =>
    have hn (id : GrantId) (e : Entry) (hc : t.Covering principal realm resource id e) :
        e.refusalFor verb now ≠ none := hch (id, e) (hme.mpr hc.1) hc.2
    refine ⟨iff_of_false (fun ⟨_, h⟩ => (nomatch h)) ?_, fun _ h => (nomatch h), ?_⟩
    · rintro ⟨id, e, hc, ha⟩
      exact hn id e hc (Entry.refusalFor_eq_none_iff_allows.mpr ha)
    rintro r ⟨⟩
    refine ⟨rfl, ?_⟩
    cases ref with
    | none =>
      -- every matching row refuses and none does, so there is none
      have hem (id : GrantId) (e : Entry) : ¬t.Covering principal realm resource id e := fun hc =>
        hn id e hc (hre (id, e) (hme.mpr hc.1) hc.2)
      exact ⟨fun id e r' hc => absurd hc (hem id e), .inr ⟨hem, rfl⟩⟩
    | some re =>
      obtain ⟨⟨x, hx, hm, hr⟩, hma⟩ := hre
      refine ⟨?_, .inl ⟨x.1, x.2, ⟨hme.mp hx, hm⟩, hr⟩⟩
      intro id e r' hc hr'
      exact hma (id, e) (hme.mpr hc.1) hc.2 r' hr'

/-- A spec for observing the realm `work`. -/
def observeSpec (persistence : PersistenceRung) : GrantSpec where
  principalId := ⟨"agent"⟩
  realmId := ⟨"work"⟩
  resourceRef := .wholeRealm
  verbs := .observe
  expiry := none
  maxEventRate := ⟨20, NonZeroU32.twenty⟩
  persistence
  issuer := .humanConsent

def minted (specs : List GrantSpec) : GrantTable :=
  specs.foldl (fun t spec => ((t.insert spec 0).toOption.map Prod.fst).getD t) .new

/-- A standing row is used, not the newer one-shot row. -/
theorem checkUse_meaning_standing : ∃ e, (minted [observeSpec .whileRunning, observeSpec .once]).SpendsOnly 1 e
      ((minted [observeSpec .whileRunning, observeSpec .once]).checkUse
        ⟨"agent"⟩ ⟨"work"⟩ .wholeRealm .observe 5).1 := by
  obtain ⟨-, hok, -⟩ := (checkUse_meaning (minted [observeSpec .whileRunning, observeSpec .once])
    ⟨"agent"⟩ ⟨"work"⟩ .wholeRealm .observe 5).2 (by decide)
  obtain ⟨e, -, -, -, -, hs⟩ := hok ⟨1, ⟨20, by decide⟩⟩ (by decide +kernel)
  exact ⟨e, hs⟩

/-- A request for nothing is refused, although an active row confers it. -/
theorem checkUse_nothing : (∃ id e, (minted [observeSpec .whileRunning]).Covering ⟨"agent"⟩ ⟨"work"⟩ .wholeRealm id e ∧
        e.Allows ⟨0, by decide⟩ 5) ∧
      ((minted [observeSpec .whileRunning]).checkUse ⟨"agent"⟩ ⟨"work"⟩ .wholeRealm ⟨0, by decide⟩ 5).2 =
        .error .notGranted := by
  have hro : ((minted [observeSpec .whileRunning]).entryOf 1).any (fun e => e.row.principalId = ⟨"agent"⟩ ∧
      e.row.realmId = ⟨"work"⟩ ∧ e.row.resourceRef.covers .wholeRealm ∧ e.row.verbs.contains ⟨0, by decide⟩ ∧
      e.stateAt 5 = .active) = true := by decide +kernel
  obtain ⟨e, he, hal⟩ := (Option.any_eq_true _ _).mp hro
  obtain ⟨hp, hr, hc, hv, ha⟩ := of_decide_eq_true hal
  exact ⟨⟨1, e, ⟨he, hp, hr, hc⟩, hv, ha⟩, by decide +kernel⟩

end GrantTable

end Vitrin
