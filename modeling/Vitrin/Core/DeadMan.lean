import Vitrin.Core.Attention
import Vitrin.Core.PetitionRuns

/-!
# The dead-man switch

When the human holds the dead-man chord, every authority in the session ends at once:
each principal's rows are revoked, the table is sealed so that anything minted later
is born revoked, and every pending petition is denied. The denials are handed back to
be delivered; nothing else is left to happen.

`DeadMan.apply` follows the source's order: attention and clipboard first, then the
rows principal by principal, the seal, and the loop that denies the oldest pending
petition until none is left. The loop is bounded by the number of pending petitions,
which `denyPending_eq` shows to be enough. The source sorts the principals before it
visits them; the order is not observable, so each distinct one is visited once.

What can happen afterwards is the machine `storeStep` over the two stores: admission
in either consent mode, every way a petition is resolved, the late insertion of a
grant decided before the trigger, uses, sweeps, revocations, removals and withdrawals,
at any instants and in any order.

`Ended` is the invariant: sealed, every row revoked, and no pending petition from
before the trigger. `apply_ended` establishes it, `storeStep_ended` keeps it, and
`deadMan_final` reads off that no use is ever allowed again.
-/

namespace Vitrin

open Lib

variable {grants : GrantTable}

namespace DeadMan

/-- Deny the oldest pending petition, again and again. -/
def denyPending : Nat → PetitionRegistry → List Resolution → PetitionRegistry × List Resolution
  | 0, petitions, denied => (petitions, denied)
  | fuel + 1, petitions, denied =>
    match petitions.frontPending with
    | none => (petitions, denied)
    | some petition =>
      match petitions.resolveHuman petition .deny with
      | (petitions', .ok resolution) => denyPending fuel petitions' (denied ++ [resolution])
      | (_, .error _) => (petitions, denied)

/-- What the switch did: the rows it revoked, ascending, and the denials to deliver. -/
structure Effect where
  revoked : List GrantId
  denied : List Resolution

structure Stores where
  grants : GrantTable
  petitions : PetitionRegistry
  attention : AttentionSignal
  clipboard : ClipboardSlot

def revokeAll (grants : GrantTable) : List PrincipalIdentity → GrantTable × List GrantId
  | [] => (grants, [])
  | principal :: principals =>
    let first := grants.revokePrincipal principal
    let rest := revokeAll first.1 principals
    (rest.1, first.2 ++ rest.2)

def apply (s : Stores) (now : Instant) : Stores × Effect :=
  let principals := ((s.grants.rows now).map (·.1.principalId)).dedup
  let revoked := revokeAll s.grants principals
  let denied := denyPending s.petitions.pending.size s.petitions []
  ({ grants := revoked.1.sealDeadMan
     petitions := denied.1
     attention := s.attention.clear
     clipboard := s.clipboard.clear.1 },
   { revoked := revoked.2.insertionSort (· ≤ ·), denied := denied.2 })

/-! ### The rows -/

def AllRevoked (grants : GrantTable) : Prop := ∀ id e, grants.entryOf id = some e → e.liveness = .revoked

theorem revokePrincipal_revoked {p : PrincipalIdentity} {id : GrantId} {e' : Entry}
    (h : (grants.revokePrincipal p).1.entryOf id = some e') (hp : e'.row.principalId = p) : e'.liveness = .revoked := by
  simp only [GrantTable.revokePrincipal, GrantTable.entryOf_updateLiveness, Option.map_eq_some_iff] at h
  obtain ⟨e, -, rfl⟩ := h
  by_cases hl : e.liveness = .revoked
  · simp [hl]
  · simp [show e.row.principalId = p from hp]

theorem revokeAll_relives (grants : GrantTable) (p : List PrincipalIdentity) :
    grants.Relives (revokeAll grants p).1 := by
  induction p generalizing grants with
  | nil => exact .refl grants
  | cons pr p ih => exact (grants.revokePrincipal_relives pr).trans (ih _)

/-- After the loop, the rows of every visited principal are revoked, and none is more alive than before. -/
theorem revokeAll_revoked {p : List PrincipalIdentity} {id : GrantId} {e' : Entry}
    (h : (revokeAll grants p).1.entryOf id = some e') :
    ∃ e, grants.entryOf id = some e ∧ e'.Below e ∧ (e.row.principalId ∈ p → e'.liveness = .revoked) := by
  induction p generalizing grants with
  | nil => exact ⟨e', h, .refl e', by simp⟩
  | cons pr p ih =>
    obtain ⟨e₁, h₁, hb, hm⟩ := ih h
    obtain ⟨e, he, hb₁⟩ := (grants.revokePrincipal_relives pr).below h₁
    refine ⟨e, he, hb₁.trans hb, fun hme => ?_⟩
    rcases List.mem_cons.mp hme with hp | hp
    · exact hb.revoked (revokePrincipal_revoked h₁ (hb₁.row ▸ hp))
    · exact hm (hb₁.row ▸ hp)

theorem apply_allRevoked (s : Stores) (now : Instant) : AllRevoked (apply s now).1.grants := by
  intro id e' h
  obtain ⟨e, he, -, hr⟩ := revokeAll_revoked h
  refine hr ?_
  rw [List.mem_dedup, List.mem_map]
  refine ⟨(e.row, e.stateAt now), ?_, rfl⟩
  exact List.mem_map.mpr ⟨(id, e), OrdMap.mem_entries_iff.mpr he, rfl⟩

/-! ### The petitions -/

def denialOf (p : PendingPetition) : Resolution where
  connection := p.connection
  grantWireId := p.grantWireId
  consentWireId := p.consentWireId
  emitClosed := true
  verdict := .declined .denied

variable {pe : PetitionRegistry}

/-- The loop empties the registry and hands back one denial for each petition, oldest first. -/
theorem denyPending_eq (l : List (PetitionId × PendingPetition)) (h : pe.pending.entries = l) (d : List Resolution) :
    (denyPending l.length pe d).1.pending.entries = [] ∧ pe.Evolves (denyPending l.length pe d).1 ∧
      (denyPending l.length pe d).2 = d ++ l.map fun x => denialOf x.2 := by
  induction l generalizing pe d with
  | nil => exact ⟨h, .refl pe, by simp [denyPending]⟩
  | cons x l ih =>
    obtain ⟨id, p⟩ := x
    have hf : pe.frontPending = some id := by
      simp [PetitionRegistry.frontPending, OrdMap.min?, h]
    have hg : pe.pending.get? id = some p := OrdMap.mem_entries_iff.mp (h ▸ (.head _))
    have hr : (pe.drop id).pending.entries = l := OrdMap.entries_erase_head h
    obtain ⟨h₁, h₂, h₃⟩ := ih hr (d ++ [denialOf p])
    simp only [List.length_cons, denyPending, hf, PetitionRegistry.resolveHuman_deny hg]
    exact ⟨h₁, (pe.drop_evolves id).trans h₂, by rw [denialOf] at h₃; rw [h₃]; simp [denialOf]⟩

theorem denyPending_nextConnectionId {f : Nat} {d : List Resolution} :
    (denyPending f pe d).1.nextConnectionId = pe.nextConnectionId := by
  fun_induction denyPending f pe d with
  | case1 | case2 | case4 => rfl
  | case3 f pe d id hf p' r hr ih =>
    rcases pe.resolveHuman_cases id .deny with ⟨e, he⟩ | ⟨p, r', -, he, -⟩
    · rw [he] at hr
      cases hr
    · rw [he] at hr
      cases hr
      exact ih

theorem apply_petitions (s : Stores) (now : Instant) :
    (apply s now).1.petitions.pending.entries = [] ∧ s.petitions.Evolves (apply s now).1.petitions ∧
      (apply s now).2.denied = s.petitions.pending.entries.map fun x => denialOf x.2 := by
  obtain ⟨he, hev, hd⟩ := denyPending_eq s.petitions.pending.entries rfl []
  exact ⟨he, hev, hd⟩

/-! ### Whatever happens next -/

end DeadMan

structure AuthorityStores where
  grants : GrantTable
  petitions : PetitionRegistry

/-- One operation on the stores of authority, with the instant it happens at. -/
inductive StoreOp where
  /-- An operation of the registry; under auto-approve an admission also resolves. -/
  | petition (op : PetitionOp)
  /-- A resolution, decided now or long ago, is delivered and its row minted. -/
  | insertRow (grant : ApprovedGrant) (now : Instant)
  | checkUse (principal : PrincipalIdentity) (realm : RealmId) (resource : ResourceRef) (verb : Verb) (now : Instant)
  | commitUse (grant : GrantId)
  | expireGrants (now : Instant)
  | revoke (grant : GrantId)
  | revokePrincipal (principal : PrincipalIdentity)
  | remove (grant : GrantId)

def storeStep : Machine AuthorityStores StoreOp Unit := fun s op =>
  (match op with
   | .petition op => { s with petitions := (petitionStep s.petitions op).1 }
   | .insertRow grant now => match grant.insertRow s.grants now with
     | .ok (grants, _) => { s with grants }
     | .error _ => s
   | .checkUse p realm resource verb now => { s with grants := (s.grants.checkUse p realm resource verb now).1 }
   | .commitUse id => { s with grants := (s.grants.commitUse id).1 }
   | .expireGrants now => { s with grants := (s.grants.expireDue now).1 }
   | .revoke id => { s with grants := (s.grants.revoke id).1 }
   | .revokePrincipal p => { s with grants := (s.grants.revokePrincipal p).1 }
   | .remove id => { s with grants := (s.grants.remove id).1 }, ())

theorem storeStep_evolves (s : AuthorityStores) (op : StoreOp) :
    s.grants.Evolves (storeStep s op).1.grants ∧ s.petitions.Evolves (storeStep s op).1.petitions := by
  cases op with
  | petition op => exact ⟨.refl _, petitionStep_evolves s.petitions op⟩
  | insertRow g now =>
    simp only [storeStep]
    split
    · rename_i hi
      exact ⟨GrantTable.insert_evolves hi, .refl _⟩
    · exact ⟨.refl _, .refl _⟩
  | checkUse p re r v now => exact ⟨(s.grants.checkUse_relives p re r v now).evolves, .refl _⟩
  | commitUse id => exact ⟨(s.grants.commitUse_relives id).evolves, .refl _⟩
  | expireGrants now => exact ⟨(s.grants.expireDue_relives now).evolves, .refl _⟩
  | revoke id => exact ⟨(s.grants.revoke_relives id).evolves, .refl _⟩
  | revokePrincipal p => exact ⟨(s.grants.revokePrincipal_relives p).evolves, .refl _⟩
  | remove id => exact ⟨s.grants.remove_evolves id, .refl _⟩

namespace DeadMan

/-- The state the switch leaves and nothing undoes: the table is sealed with every row revoked, and
no id below `bound` is pending. -/
structure Ended (bound : PetitionId) (s : AuthorityStores) : Prop where
  deadManSealed : s.grants.deadManSealed = true
  revoked : AllRevoked s.grants
  bound_le : bound ≤ s.petitions.nextPetitionId
  pending : ∀ id < bound, s.petitions.pending.get? id = none

theorem apply_ended (s : Stores) (now : Instant) :
    Ended s.petitions.nextPetitionId ⟨(apply s now).1.grants, (apply s now).1.petitions⟩ := by
  obtain ⟨he, hev, -⟩ := apply_petitions s now
  refine ⟨rfl, apply_allRevoked s now, hev.nextPetitionId, fun id _ => ?_⟩
  exact OrdMap.min?_eq_none (by simpa [OrdMap.min?] using he)

theorem storeStep_ended {b : PetitionId} (s : AuthorityStores) (op : StoreOp) (h : Ended b s) :
    Ended b (storeStep s op).1 := by
  obtain ⟨hg, hp⟩ := storeStep_evolves s op
  refine ⟨hg.deadManSealed h.deadManSealed, fun id e' he' => ?_, h.bound_le.trans hp.nextPetitionId,
    fun id hi => hp.get?_none (hi.trans_le h.bound_le) (h.pending id hi)⟩
  by_cases hi : id < s.grants.nextId
  · obtain ⟨e, he, hb⟩ := hg.old id e' he' hi
    exact hb.revoked (h.revoked id e he)
  · exact hg.new id e' he' (not_lt.mp hi) h.deadManSealed

theorem not_live_of_revoked {e : Entry} {now : Instant} (h : e.liveness = .revoked) : ¬ e.Live now :=
  fun hl => absurd (h.symm.trans hl.1) (by decide)

theorem AllRevoked.checkUseGrant (h : AllRevoked grants) (g : GrantId) (p : PrincipalIdentity) (v : Verb)
    (now : Instant) (a : Allowed) : grants.checkUseGrant g p v now ≠ .ok a := by
  intro hok
  obtain ⟨-, e, he, -, -, hl, -⟩ := GrantTable.checkUseGrant_eq_ok_iff.mp hok
  exact not_live_of_revoked (h g e he) hl

theorem AllRevoked.checkUse (h : AllRevoked grants) (p : PrincipalIdentity) (re : RealmId) (r : ResourceRef) (v : Verb)
    (now : Instant) (a : Allowed) : (grants.checkUse p re r v now).2 ≠ .ok a := by
  intro hok
  obtain ⟨e, he, -, hr⟩ := GrantTable.checkUse_ok hok
  exact not_live_of_revoked (h _ e he) (Entry.refusalFor_eq_none_iff.mp hr).2

/-- **The dead-man switch is final.** Apply it to any stores and then let anything at all happen to
them, in any order and at any instants. No use is allowed, by search or by handle, for any principal,
grant and verb set; and a petition that was pending when the switch fired was denied by it, is not
pending, and cannot be resolved: every attempt fails and changes nothing. -/
theorem deadMan_final (s : Stores) (now : Instant) (ops : List StoreOp) :
    let fired := apply s now
    let af := storeStep.exec ⟨fired.1.grants, fired.1.petitions⟩ ops
    (∀ pr re r v t a, (af.grants.checkUse pr re r v t).2 ≠ .ok a) ∧
    (∀ g pr v t a, af.grants.checkUseGrant g pr v t ≠ .ok a) ∧
    (∀ id p, s.petitions.pending.get? id = some p →
      denialOf p ∈ fired.2.denied ∧ af.petitions.pending.get? id = none ∧
      (∀ c, af.petitions.resolveHuman id c = (af.petitions, .error .notPending)) ∧
      (∀ d, af.petitions.resolveScripted id d = (af.petitions, .error .notPending))) ∧
    ∀ res ∈ fired.2.denied, res.verdict = .declined .denied := by
  intro fired af
  have ha : Ended s.petitions.nextPetitionId af :=
    Machine.exec_inv (fun s op h => storeStep_ended s op h) (apply_ended s now) ops
  have hd : fired.2.denied = s.petitions.pending.entries.map fun x => denialOf x.2 :=
    (apply_petitions s now).2.2
  refine ⟨ha.revoked.checkUse, ha.revoked.checkUseGrant, fun id p hp => ?_, fun res hr => ?_⟩
  · have hg := ha.pending id (s.petitions.minted id p hp)
    refine ⟨?_, hg, PetitionRegistry.resolveHuman_of_none hg, PetitionRegistry.resolveScripted_of_none hg⟩
    rw [hd]
    exact List.mem_map.mpr ⟨(id, p), OrdMap.mem_entries_iff.mpr hp, rfl⟩
  · rw [hd, List.mem_map] at hr
    obtain ⟨x, -, rfl⟩ := hr
    rfl

/-- With a usable row and a pending petition, the switch takes the row's use away for good, also after
a grant decided before the trigger is delivered late. -/
theorem deadMan_final_late_delivery :
    let s : Stores := ⟨Sample.table, Sample.registry, .new .super, ⟨none, none, 0⟩⟩
    let f := apply s 5
    let af := storeStep.exec ⟨f.1.grants, f.1.petitions⟩ [.insertRow Sample.approved 6, .expireGrants 7]
    (Sample.table.checkUseGrant 1 Sample.agent .observe 5).isOk = true ∧
    (af.grants.checkUseGrant 1 Sample.agent .observe 8).isOk = false ∧
    (af.grants.checkUseGrant 2 Sample.agent .observe 8).isOk = false ∧
    af.petitions.pending.get? 1 = none := by
  intro s f af
  obtain ⟨-, hu, hp, -⟩ := deadMan_final s 5 [.insertRow Sample.approved 6, .expireGrants 7]
  have hr : ∀ g, (af.grants.checkUseGrant g Sample.agent .observe 8).isOk = false := fun g => by
    cases h : af.grants.checkUseGrant g Sample.agent .observe 8 with
    | error e => rfl
    | ok a => exact absurd h (hu g Sample.agent .observe 8 a)
  exact ⟨by decide, hr 1, hr 2, (hp 1 Sample.pending rfl).2.1⟩

end DeadMan

end Vitrin
