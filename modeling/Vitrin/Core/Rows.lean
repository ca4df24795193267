import Vitrin.Core.Mediation

/-!
# One row across a step

Authority is judged against a row of the grant table, and what was judged is acted on
later. This module says what a step of the connections and stores can do in between to
one given row.

`Entry.Stays` compares a row before and after: it is the same row with the same
lifetime, and either nothing happened to it or, being one-shot, it was spent.
`PrincipalSystem.Spares` lists the steps that may do worse to a row: the two
revocations, the dead-man switch, the sweep that marks what has expired, and the end of
the connection a handle of which names the row.

* `systemStep_grants`: along every step the table moves on: ids are not used again,
  rows keep their terms and never come back to life, and a row that is spared stands.
* `admits_of_call`: an ask for a file that the chokepoint lets through was made under a
  live row that confers the verb, and says that it spent the row exactly if it did.
-/

namespace Vitrin

open Lib PrincipalSystem GrantTable

/-! ### A row that stays -/

/-- The row is left as it was, or was one-shot and has been spent. -/
structure Entry.Stays (e e' : Entry) : Prop where
  row : e'.row = e.row
  deadline : e'.deadline = e.deadline
  liveness : e'.liveness = e.liveness ∨ e.row.persistence = .once ∧ e.liveness = .active ∧ e'.liveness = .spent

namespace Entry.Stays

theorem refl (e : Entry) : e.Stays e := ⟨rfl, rfl, .inl rfl⟩

theorem trans {e e' e'' : Entry} (h : e.Stays e') (h' : e'.Stays e'') : e.Stays e'' := by
  refine ⟨h'.row.trans h.row, h'.deadline.trans h.deadline, ?_⟩
  rcases h.liveness with hl | ⟨hon, ha, hs⟩
  · rcases h'.liveness with hl' | ⟨ho', ha', hs'⟩
    · exact .inl (hl'.trans hl)
    · exact .inr ⟨h.row ▸ ho', hl ▸ ha', hs'⟩
  · rcases h'.liveness with hl' | ⟨-, ha', -⟩
    · exact .inr ⟨hon, ha, hl'.trans hs⟩
    · exact absurd (hs.symm.trans ha') (by decide)

end Entry.Stays

variable {now : Instant} {grant : GrantId}

namespace GrantTable

/-- Row `id` of `t`, if there is one, stays in `t'`. -/
def Stays (id : GrantId) (t t' : GrantTable) : Prop :=
  ∀ e, t.entryOf id = some e → ∃ e', t'.entryOf id = some e' ∧ e.Stays e'

/-- The rows of `t` are those of `t'` that were minted before. -/
structure Adds (t t' : GrantTable) : Prop where
  nextId : t.nextId ≤ t'.nextId
  old : ∀ id < t.nextId, t'.entryOf id = t.entryOf id

section Stays

variable {id : GrantId} {t t' t'' : GrantTable}

theorem Stays.of_eq (h : t'.entryOf id = t.entryOf id) : Stays id t t' := fun e he => ⟨e, h.trans he, .refl e⟩

theorem Stays.refl (id : GrantId) (t : GrantTable) : Stays id t t := .of_eq rfl

theorem Stays.trans (h : Stays id t t') (h' : Stays id t' t'') : Stays id t t'' := by
  intro e he
  obtain ⟨e', he', hs⟩ := h e he
  obtain ⟨e'', he'', hs'⟩ := h' e' he'
  exact ⟨e'', he'', hs.trans hs'⟩

theorem Adds.refl (t : GrantTable) : t.Adds t := ⟨le_rfl, fun _ _ => rfl⟩

theorem Adds.trans (h : t.Adds t') (h' : t'.Adds t'') : t.Adds t'' :=
  ⟨h.nextId.trans h'.nextId, fun id hi => (h'.old id (hi.trans_le h.nextId)).trans (h.old id hi)⟩

theorem Adds.stays (h : t.Adds t') (id : GrantId) : Stays id t t' :=
  fun e he => ⟨e, (h.old id (lt_nextId he)).trans he, .refl e⟩

theorem insert_adds {sp : GrantSpec} {i : Instant} {m : GrantId} (h : t.insert sp i = .ok (t', m)) : t.Adds t' := by
  obtain ⟨-, n, rfl⟩ := insert_eq_ok h
  exact ⟨Nat.le_succ _, fun id hi => by rw [entryOf_push, if_neg hi.ne]⟩

theorem commitUse_stays (t : GrantTable) (grant id : GrantId) : Stays id t (t.commitUse grant).1 := by
  intro e he
  rw [entryOf_commitUse]
  split_ifs
  · by_cases hs : e.row.persistence = .once ∧ e.liveness = .active
    · rw [he, Option.map_some, if_pos hs]
      exact ⟨_, rfl, ⟨rfl, rfl, .inr ⟨hs.1, hs.2, rfl⟩⟩⟩
    · exact ⟨e, by rw [he, Option.map_some, if_neg hs], .refl e⟩
  · exact ⟨e, he, .refl e⟩

theorem updateLiveness_stays {f : GrantId → Entry → Liveness}
    (h : ∀ e, t.entryOf id = some e → f id e = e.liveness) : Stays id t (t.updateLiveness f) := by
  intro e he
  rw [entryOf_updateLiveness, he, Option.map_some]
  exact ⟨_, rfl, ⟨rfl, rfl, .inl (h e he)⟩⟩

theorem expireDue_stays (h : (t.entryOf id).all fun e => !e.deadlinePassed now) : Stays id t (t.expireDue now).1 := by
  refine updateLiveness_stays fun e he => if_neg ?_
  simp only [he, Option.all_some, Bool.not_eq_true'] at h
  simp [h]

theorem revoke_stays (h : grant ≠ id) : Stays id t (t.revoke grant).1 := by
  unfold revoke
  split
  · split_ifs
    · exact updateLiveness_stays fun e _ => if_neg h.symm
    · exact .refl id t
  · exact .refl id t

theorem revokePrincipal_stays {p : PrincipalIdentity}
    (h : (t.entryOf id).all fun e => e.row.principalId ≠ p) : Stays id t (t.revokePrincipal p).1 := by
  refine updateLiveness_stays fun e he => if_neg ?_
  simp only [he, Option.all_some, decide_eq_true_eq] at h
  simp [h]

end Stays

end GrantTable

theorem removeRows_evolves {g : GrantTable} {o : List (WireId × ObjectKind)} : g.Evolves (removeRows g o) := by
  fun_induction removeRows g o with
  | case1 g => exact .refl g
  | case2 g w id o ih => exact (g.remove_evolves id).trans ih
  | case3 g x o hn ih => exact ih

/-! ### What a turn does to the rows -/

namespace Turn

variable {t t' : Turn} {ctx : ServerCtx} {msg : Message}

theorem Settles.grants {r : Resolution} (h : Settles now r t t') :
    t.grants.Evolves t'.grants ∧ t.grants.Adds t'.grants := by
  cases h with
  | granted w hv hi => exact ⟨insert_evolves hi, insert_adds hi⟩
  | declined w hv => exact ⟨.refl _, .refl _⟩

theorem Act.grants (h : t.Act ctx msg t') : t.grants.Evolves t'.grants ∧ t.grants.Adds t'.grants := by
  cases h with
  | settle hb hc hi hr ha hs => exact hs.grants
  | _ => exact ⟨.refl _, .refl _⟩

theorem Acts.grants (h : Acts ctx msg t t') : t.grants.Evolves t'.grants ∧ t.grants.Adds t'.grants := by
  induction h with
  | refl => exact ⟨.refl _, .refl _⟩
  | tail _ ha ih => exact ⟨ih.1.trans ha.grants.1, ih.2.trans ha.grants.2⟩

theorem Uses.grants (h : t.Uses ctx msg t') (id : GrantId) :
    t.grants.Evolves t'.grants ∧ GrantTable.Stays id t.grants t'.grants := by
  cases h with
  | intro hb hob hk hi =>
    rename_i f grant k i
    refine ⟨Chokepoint.enforceUse_relives.evolves, ?_⟩
    simp only [absorb]
    rcases t.enforced_cases ctx msg.objectId grant i k with ⟨-, hs⟩ | ⟨r, e, c, ht⟩
    · rw [hs]
      exact .refl id _
    · rw [ht.grants]
      exact t.grants.commitUse_stays r id

theorem Served.grants (h : Served ctx msg t t') (id : GrantId) :
    t.grants.Evolves t'.grants ∧ GrantTable.Stays id t.grants t'.grants := by
  rcases h with ha | ⟨t₁, hu, ha⟩
  · exact ⟨ha.grants.1, ha.grants.2.stays id⟩
  · exact ⟨(hu.grants id).1.trans ha.grants.1, (hu.grants id).2.trans (ha.grants.2.stays id)⟩

theorem deliverResolution_grants (t : Turn) (r : Resolution) (now : Instant) :
    t.grants.Evolves (t.deliverResolution r now).1.grants ∧ t.grants.Adds (t.deliverResolution r now).1.grants := by
  rcases t.deliverResolution_cases r now with ⟨p, w, -, h⟩ | ⟨-, hs⟩
  · rw [h]
    exact ⟨.refl _, .refl _⟩
  · exact hs.grants

end Turn

/-! ### What a step does to the rows -/

variable {s : PrincipalSystem}

namespace PrincipalSystem

/-- A handle of the connection names the row. -/
def names (s : PrincipalSystem) (c : ConnectionId) (id : GrantId) : Bool :=
  (s.conns.get? c).any fun conn => conn.server.objects.entries.any fun x => x.2 = .grant (.resolved (some id))

/-- The step does not revoke or remove row `id`, nor mark it expired. -/
def Spares (s : PrincipalSystem) (id : GrantId) : SystemOp → Prop
  | .revoke grant => grant ≠ id
  | .revokePrincipal principal => (s.grants.entryOf id).all fun e => e.row.principalId ≠ principal
  | .expireGrants now => (s.grants.entryOf id).all fun e => !e.deadlinePassed now
  | .deadMan _ => False
  | .teardown c => s.names c id = false
  | _ => True

instance (s : PrincipalSystem) (id : GrantId) : (op : SystemOp) → Decidable (s.Spares id op)
  | .revoke _ => inferInstanceAs (Decidable (_ ≠ _))
  | .revokePrincipal _ | .expireGrants _ | .teardown _ => inferInstanceAs (Decidable (_ = _))
  | .deadMan _ => .isFalse not_false
  | .connect _ | .message _ _ _ _ | .resolveHuman _ _ | .resolveScripted _ _ | .expirePetitions _ | .promptShown _
  | .promptHidden _ | .deliver _ _ _ _ | .attention _ => .isTrue trivial

end PrincipalSystem

/-- **What a step does to the rows**: the table moves on, and a row that the step spares is left standing. -/
theorem systemStep_grants (h : s.Inv) (op : SystemOp) (id : GrantId) :
    s.grants.Evolves (systemStep s op).1.grants ∧
      (s.Spares id op → GrantTable.Stays id s.grants (systemStep s op).1.grants) := by
  cases op with
  | message c ctx msg w =>
    simp only [systemStep]
    split
    · exact ⟨.refl _, fun _ => .refl id _⟩
    · rename_i co hc
      have hs : Turn.Served ctx msg (s.turn co.server w) _ := Turn.handleMessage_served (h.conns c co hc).below
      exact ⟨(hs.grants id).1, fun _ => (hs.grants id).2⟩
  | deliver c i now w =>
    simp only [systemStep]
    split
    · rename_i co r _ _
      have hr := (s.turn co.server w).deliverResolution_grants r now
      exact ⟨hr.1, fun _ => hr.2.stays id⟩
    · exact ⟨.refl _, fun _ => .refl id _⟩
  | expireGrants now => exact ⟨(s.grants.expireDue_relives now).evolves, expireDue_stays⟩
  | revoke grant => exact ⟨(s.grants.revoke_relives grant).evolves, revoke_stays⟩
  | revokePrincipal p => exact ⟨(s.grants.revokePrincipal_relives p).evolves, revokePrincipal_stays⟩
  | deadMan now =>
    exact ⟨(DeadMan.revokeAll_relives s.grants _).evolves.trans (sealDeadMan_evolves _), fun hs => hs.elim⟩
  | teardown c =>
    cases hc : s.conns.get? c with
    | none =>
      simp only [systemStep, hc]
      exact ⟨.refl _, fun _ => .refl id _⟩
    | some co =>
      simp only [systemStep, hc]
      refine ⟨removeRows_evolves, fun hn => .of_eq (entryOf_removeRows_of_not_mem _ fun w hm => ?_)⟩
      simp only [Spares, names, hc, Option.any_some, List.any_eq_false] at hn
      exact absurd (hn _ hm) (by simp)
  | _ => exact ⟨.refl _, fun _ => .refl id _⟩

/-! ### The row an ask for a file is made under -/

/-- The chokepoint let an ask for a file through, from `s` to `s'`: the row was live and confers it, and
the ask says that it spent the row exactly if it did. -/
structure PrincipalSystem.Admits (s s' : PrincipalSystem) (now : Instant) (ask : DesignateAsk) (e : Entry) : Prop where
  entry : s.grants.entryOf ask.grant = some e
  live : e.Live now
  verb : e.row.verbs.contains .designateFile = true
  principal : e.row.principalId = ask.principal
  spentOnce : ask.spentOnce = decide (e.row.persistence = .once)
  after : s'.grants.entryOf ask.grant = some (if ask.spentOnce then { e with liveness := .spent } else e)

variable {ask : DesignateAsk}

theorem Chokepoint.perform_designate {r : UseRequest} {e : UseEnv} {so c : Bool}
    (h : .designate ask ∈ (perform r e grant so c now).calls) :
    r.kind = .designate ask.ask ∧ ask.grant = grant ∧ ask.principal = r.principal ∧ ask.spentOnce = so := by
  cases hk : r.kind with
  | designate a =>
    simp only [perform, hk] at h
    split at h
    · cases h
    · split at h <;>
      · cases List.mem_singleton.mp h
        exact ⟨rfl, rfl, rfl, rfl⟩
  | _ =>
    -- the other kinds hand their sink something else
    simp only [perform, hk] at h
    repeat' split at h
    all_goals simp at h

theorem GrantTable.commitUse_spends {t : GrantTable} {e : Entry} (he : t.entryOf grant = some e)
    (ha : e.liveness = .active) : (t.commitUse grant).2 = decide (e.row.persistence = .once) := by
  unfold commitUse
  simp only [he, ha, and_true]
  split_ifs with hon <;> simp [hon]

theorem Turn.enforced_admits {t : Turn} {ctx : ServerCtx} {f grant : WireId} {i : PrincipalIdentity}
    {k : UseKind} (h : .designate ask ∈ (t.enforced ctx f grant i k).calls) :
    ∃ e, t.grants.entryOf ask.grant = some e ∧ e.Live ctx.now ∧ e.row.verbs.contains .designateFile = true ∧
      e.row.principalId = ask.principal ∧ ask.spentOnce = decide (e.row.persistence = .once) ∧
      (t.enforced ctx f grant i k).grants.entryOf ask.grant =
        some (if ask.spentOnce then { e with liveness := .spent } else e) := by
  rcases t.enforced_cases ctx f grant i k with ⟨hn, -⟩ | ⟨r, e, c, ht⟩
  · rw [hn] at h
    cases h
  · rw [ht.calls] at h
    obtain ⟨hk, rfl, ha, hs⟩ := Chokepoint.perform_designate h
    have hon := hs.trans (commitUse_spends ht.entry ht.live.1)
    have hv := ht.verb
    rw [show k = .designate ask.ask from hk] at hv
    refine ⟨e, ht.entry, ht.live, hv, ht.principal.trans ha.symm, hon, ?_⟩
    rw [ht.grants, entryOf_commitUse, if_pos rfl, ht.entry, Option.map_some, hon]
    simp [ht.live.1]

theorem admits_of_call (h : s.Inv) {c : ConnectionId} {ctx : ServerCtx} {msg : Message} {w : Wire}
    (hca : .designate ask ∈ (systemStep s (.message c ctx msg w)).2.calls) :
    ∃ e, s.Admits (systemStep s (.message c ctx msg w)).1 ctx.now ask e := by
  cases hc : s.conns.get? c with
  | none => simp [systemStep, hc] at hca
  | some co =>
    simp only [systemStep, hc] at hca ⊢
    have hs : Turn.Served ctx msg (s.turn co.server w) _ := Turn.handleMessage_served (h.conns c co hc).below
    rcases hs with ha | ⟨t₁, hu, ha⟩
    · rw [ha.calls] at hca
      cases hca
    · rw [ha.calls] at hca
      cases hu with
      | intro hb hob hk hi =>
        obtain ⟨e, he, hl, hv, hp, hsp, haf⟩ :=
          Turn.enforced_admits (t := s.turn co.server w) (by simpa [Turn.absorb, turn] using hca)
        -- what is served after the use only adds rows
        exact ⟨e, he, hl, hv, hp, hsp, (ha.grants.2.old _ (lt_nextId haf)).trans haf⟩

end Vitrin
