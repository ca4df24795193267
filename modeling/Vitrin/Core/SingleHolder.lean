import Vitrin.Core.Connections

/-!
# One holder of the layout

The verb that arranges the output is exclusive: a petition that names it is declined
while some live row confers it or another petition that names it waits. The check is
made at admission only; what makes it hold for ever is that a decision's row appears
in the round its petition disappears in.

The runs here are those of `systemStep` in which decisions and expiries are delivered
at once, as the session does it, and time does not go back. A `Round` is one thing the
session does at one instant; `Round.ops` is what it amounts to as a sequence of steps
of the larger system, so everything proved there holds here too.

`Single` counts live rows and waiting petitions. It is kept by each act of a message
and by each delivery, and so by each round (`round_single`); `one_holder` says it of
every run.
-/

namespace Vitrin

open Lib PrincipalSystem

/-! ### Rounds -/

inductive RoundOp where
  | connect (peer : PeerCred)
  | message (conn : ConnectionId) (ctx : ServerCtx) (msg : Message) (wire : Wire)
  /-- A human decision is drained from the queue and delivered. -/
  | decide (petition : PetitionId) (choice : Choice) (wire : Wire)
  | expirePetitions (wires : Nat → Wire)
  | promptShown (petition : PetitionId)
  | promptHidden (petition : PetitionId)
  | expireGrants
  | revoke (grant : GrantId)
  | revokePrincipal (principal : PrincipalIdentity)
  | deadMan (wires : Nat → Wire)
  | attention (signal : AttentionSignal)
  | teardown (conn : ConnectionId)

structure Round where
  now : Instant
  op : RoundOp

/-- Deliver resolutions, each to the connection it is for; they have been issued from `start` on. -/
def deliveries (start : Nat) (now : Instant) (wires : Nat → Wire) (resolutions : List Resolution) : List SystemOp :=
  resolutions.mapIdx fun i r => .deliver r.connection (start + i) now (wires i)

def Round.ops (round : Round) (s : PrincipalSystem) : List SystemOp := match round.op with
  | .connect peer => [.connect peer]
  | .message c ctx msg wire => [.message c { ctx with now := round.now } msg wire]
  | .decide petition choice wire =>
    .resolveHuman petition choice ::
      deliveries s.issued.length round.now (fun _ => wire)
        (s.petitions.resolveHuman petition choice).2.toOption.toList
  | .expirePetitions wires =>
    .expirePetitions round.now ::
      deliveries s.issued.length round.now wires (s.petitions.expireDue round.now).2
  | .promptShown petition => [.promptShown petition]
  | .promptHidden petition => [.promptHidden petition]
  | .expireGrants => [.expireGrants round.now]
  | .revoke grant => [.revoke grant]
  | .revokePrincipal principal => [.revokePrincipal principal]
  | .deadMan wires =>
    .deadMan round.now :: deliveries s.issued.length round.now wires (DeadMan.apply s.stores round.now).2.denied
  | .attention signal => [.attention signal]
  | .teardown c => [.teardown c]

structure Clocked where
  system : PrincipalSystem
  clock : Instant

def roundStep : Machine Clocked Round Unit := fun s round =>
  (⟨systemStep.exec s.system (round.ops s.system), round.now⟩, ())

/-! ### Counting -/

/-- The rows that confer the exclusive layout verb and are live. -/
def GrantTable.liveArrange (g : GrantTable) (now : Instant) : Nat :=
  g.entries.count fun _ e => e.row.verbs.contains .layoutArrange && e.stateAt now = .active

def PetitionRegistry.pendingArrange (r : PetitionRegistry) : Nat :=
  r.pending.count fun _ p => p.requested.verbs.contains .layoutArrange

/-- At most one live row or pending petition. -/
def Single (g : GrantTable) (r : PetitionRegistry) (now : Instant) : Prop := g.liveArrange now + r.pendingArrange ≤ 1

variable {g : GrantTable} {now : Instant}

theorem liveArrange_eq_zero (h : g.anyLiveHolderOf .layoutArrange now = false) : g.liveArrange now = 0 := by
  refine OrdMap.count_eq_zero.mpr fun id e he => ?_
  rw [GrantTable.anyLiveHolderOf, List.any_eq_false] at h
  simpa using h (id, e) (OrdMap.mem_entries_iff.mpr he)

variable {r : PetitionRegistry}

theorem pendingArrange_eq_zero (h : r.layoutArrangePending = false) : r.pendingArrange = 0 :=
  OrdMap.count_eq_zero.mpr fun _ _ hp => PetitionRegistry.layoutArrangePending_eq_false h hp

variable {g' : GrantTable}

theorem liveArrange_mono {n' : Instant} (hl : now ≤ n')
    (h : ∀ id e', g'.entryOf id = some e' → ∃ e, g.entryOf id = some e ∧ e'.Below e) :
    g'.liveArrange n' ≤ g.liveArrange now := by
  refine OrdMap.count_le_of_forall fun id e' he' hp => ?_
  obtain ⟨e, he, hb⟩ := h id e' he'
  simp only [Bool.and_eq_true, decide_eq_true_eq, Entry.stateAt_eq_active_iff] at hp ⊢
  exact ⟨e, he, hb.row ▸ hp.1, (hb.live hp.2).of_le hl⟩

theorem liveArrange_relives (h : g.Relives g') (now : Instant) : g'.liveArrange now ≤ g.liveArrange now :=
  liveArrange_mono le_rfl fun _ _ he' => h.below he'

variable {r' : PetitionRegistry}

/-- Petitions that leave or only change whether they are shown. -/
theorem pendingArrange_mono
    (h : ∀ id p', r'.pending.get? id = some p' → ∃ p, r.pending.get? id = some p ∧ p'.requested = p.requested) :
    r'.pendingArrange ≤ r.pendingArrange := by
  refine OrdMap.count_le_of_forall fun id p' hp' hc => ?_
  obtain ⟨p, hp, hr⟩ := h id p' hp'
  exact ⟨p, hp, hr ▸ hc⟩

theorem pendingArrange_setShown (r : PetitionRegistry) (pe : PetitionId) (s : Bool) :
    (r.setShown pe s).pendingArrange ≤ r.pendingArrange := by
  refine pendingArrange_mono fun id p hp => ?_
  rw [PetitionRegistry.get?_setShown] at hp
  split at hp
  · obtain ⟨p₀, hp₀, rfl⟩ := Option.map_eq_some_iff.mp hp
    exact ⟨p₀, hp₀, rfl⟩
  · exact ⟨p, hp, rfl⟩

theorem Single.mono {n' : Instant} (h : Single g r now) (hg : g'.liveArrange n' ≤ g.liveArrange now)
    (hr : r'.pendingArrange ≤ r.pendingArrange) : Single g' r' n' :=
  (Nat.add_le_add hg hr).trans h

/-- A minted row adds at most itself, and nothing if it does not confer the verb. -/
theorem liveArrange_insertRow {a : ApprovedGrant} {id : GrantId} (h : a.insertRow g now = .ok (g', id)) :
    g'.liveArrange now ≤ g.liveArrange now + if a.effective.verbs.contains .layoutArrange then 1 else 0 := by
  obtain ⟨rfl, n, rfl⟩ := GrantTable.insert_eq_ok h
  unfold GrantTable.liveArrange
  rw [GrantTable.push, OrdMap.count_insert_fresh g.entryOf_nextId]
  refine Nat.add_le_add_left ?_ _
  have hl : ∀ l : Bool, (if (a.effective.verbs.contains .layoutArrange && l) = true then 1 else 0) ≤
      if a.effective.verbs.contains .layoutArrange = true then 1 else 0 := by
    intro l
    cases a.effective.verbs.contains .layoutArrange <;> cases l <;> simp
  exact hl _

/-- Taking a petition out makes room for a row it asked for. -/
theorem pendingArrange_drop {id : PetitionId} {p : PendingPetition} (h : r.pending.get? id = some p) :
    (r.drop id).pendingArrange + (if p.requested.verbs.contains .layoutArrange then 1 else 0) = r.pendingArrange :=
  OrdMap.count_erase_add h _

/-! ### What keeps it -/

section Turn

variable {t t' : Turn} {ctx : ServerCtx} {msg : Message}

/-- A petition for the exclusive verb that passes the checks finds no live row and no other petition. -/
theorem exclusive_of_admissible {re : PetitionRequest} {rea : RealmId} {ru : PersistenceRung}
    (h : t.petitions.Admissible re ctx.realms (t.grants.anyLiveHolderOf .layoutArrange ctx.now) rea ru)
    (hv : re.verbs.contains .layoutArrange = true) :
    t.grants.liveArrange ctx.now = 0 ∧ t.petitions.pendingArrange = 0 := by
  obtain ⟨hh, hp⟩ := h.layout hv
  exact ⟨liveArrange_eq_zero hh, pendingArrange_eq_zero hp⟩

theorem Act.single (hac : t.Act ctx msg t') (h : Single t.grants t.petitions ctx.now) :
    Single t'.grants t'.petitions ctx.now := by
  cases hac with
  | grow | bind => exact h
  | park w hb hc hi hph =>
    rename_i re p
    show Single t.grants (t.admitted ctx re).1 ctx.now
    rcases t.admitted_parks ctx re with he | ⟨rea, ru, ha, he⟩
    · rw [he]
      exact h
    · rw [he]
      have hpu : (t.petitions.push (t.petitions.pendingOf re ctx.now ctx.realms rea ru)).pendingArrange =
          t.petitions.pendingArrange + if re.verbs.contains .layoutArrange then 1 else 0 :=
        OrdMap.count_insert_fresh t.petitions.get?_nextPetitionId _ _
      unfold Single at h ⊢
      rw [hpu]
      split
      · rename_i hv
        obtain ⟨hl, hp⟩ := exclusive_of_admissible ha hv
        omega
      · exact h
  | settle hb hc hi hre haw hs =>
    obtain ⟨hsa, han⟩ := Turn.admitted_resolves hre
    rw [hsa] at hs
    cases hs with
    | declined w hve => exact h
    | granted w hve hin =>
      rcases han with ⟨o, hd⟩ | ⟨rea, ru, ha, hg⟩
      · cases hve.symm.trans hd
      · cases hve.symm.trans hg
        have hr := liveArrange_insertRow hin
        unfold Single at h ⊢
        split at hr
        · rename_i hv
          obtain ⟨hl, hp⟩ := exclusive_of_admissible ha hv
          simp only at hr ⊢
          omega
        · exact (Nat.add_le_add_right hr _).trans h

theorem Acts.single (hac : Turn.Acts ctx msg t t') (h : Single t.grants t.petitions ctx.now) :
    Single t'.grants t'.petitions ctx.now := by
  induction hac with
  | refl => exact h
  | tail _ ha ih => exact Act.single ha ih

theorem Served.single (hs : Turn.Served ctx msg t t') (h : Single t.grants t.petitions ctx.now) :
    Single t'.grants t'.petitions ctx.now := by
  rcases hs with ha | ⟨t₁, hu, ha⟩
  · exact Acts.single ha h
  · refine Acts.single ha ?_
    cases hu with
    | intro hb hob hk hi => exact h.mono (liveArrange_relives Chokepoint.enforceUse_relives _) le_rfl

end Turn

theorem deliver_stores (s : PrincipalSystem) (c : ConnectionId) (i : Nat) (now : Instant) (w : Wire) :
    let s' := (systemStep s (.deliver c i now w)).1
    s'.petitions = s.petitions ∧ s'.issued = s.issued ∧
      (s'.grants = s.grants ∨ ∃ r a id, s.issued[i]? = some r ∧ r.verdict = .granted a ∧
        a.insertRow s.grants now = .ok (s'.grants, id)) := by
  simp only [systemStep]
  split
  · rename_i co r hc hr
    rcases (s.turn co.server w).deliverResolution_cases r now with ⟨p, w', -, he⟩ | ⟨-, hs⟩
    · rw [he]
      exact ⟨rfl, rfl, .inl rfl⟩
    · generalize ((s.turn co.server w).deliverResolution r now).1 = t' at hs
      cases hs with
      | granted w' hv hi => exact ⟨rfl, rfl, .inr ⟨r, _, _, hr, hv, hi⟩⟩
      | declined w' hv => exact ⟨rfl, rfl, .inl rfl⟩
  · exact ⟨rfl, rfl, .inl rfl⟩

theorem deliveries_declined (s : PrincipalSystem) (st : Nat) (now : Instant) (wi : Nat → Wire)
    (rs : List Resolution) (h : ∀ i r, st ≤ i → s.issued[i]? = some r → ∀ g, r.verdict ≠ .granted g) :
    (systemStep.exec s (deliveries st now wi rs)).petitions = s.petitions ∧
      (systemStep.exec s (deliveries st now wi rs)).grants = s.grants := by
  -- the same, for any list of deliveries from `start` on
  suffices ha : ∀ (ops : List SystemOp) (s : PrincipalSystem),
      (∀ i r, st ≤ i → s.issued[i]? = some r → ∀ g, r.verdict ≠ .granted g) →
      (∀ op ∈ ops, ∃ c i w, op = .deliver c i now w ∧ st ≤ i) →
      (systemStep.exec s ops).petitions = s.petitions ∧ (systemStep.exec s ops).grants = s.grants by
    refine ha _ s h fun op hop => ?_
    obtain ⟨i, hi, rfl⟩ := List.mem_mapIdx.mp hop
    exact ⟨_, _, _, rfl, Nat.le_add_right ..⟩
  intro ops
  induction ops with
  | nil => exact fun s _ _ => ⟨rfl, rfl⟩
  | cons op ops ih =>
    intro s hd hops
    obtain ⟨c, i, w, rfl, hi⟩ := hops _ (.head _)
    obtain ⟨hp, his, hg⟩ := deliver_stores s c i now w
    have hs : (systemStep s (.deliver c i now w)).1.grants = s.grants := by
      rcases hg with hs | ⟨r, a, id, hr, hv, -⟩
      · exact hs
      · exact absurd hv (hd i r hi hr a)
    obtain ⟨hp', hg'⟩ := ih (systemStep s (.deliver c i now w)).1 (by rw [his]; exact hd)
      fun op hop => hops op (.tail _ hop)
    exact ⟨hp'.trans hp, hg'.trans hs⟩

theorem declined_from {iss m : List Resolution} (h : ∀ r ∈ m, ∀ g, r.verdict ≠ .granted g) (i : Nat)
    (r : Resolution) (hi : iss.length ≤ i) (hr : (iss ++ m)[i]? = some r) : ∀ g, r.verdict ≠ .granted g := by
  rw [List.getElem?_append_right hi] at hr
  exact h r (List.mem_of_getElem? hr)

theorem removeRows_below {o : List (WireId × ObjectKind)} {id : GrantId} {e' : Entry}
    (h : (removeRows g o).entryOf id = some e') : ∃ e, g.entryOf id = some e ∧ e'.Below e := by
  by_cases hm : ∃ w, (w, .grant (.resolved (some id))) ∈ o
  · obtain ⟨w, hm⟩ := hm
    exact nomatch (entryOf_removeRows_of_mem g hm).symm.trans h
  · rw [entryOf_removeRows_of_not_mem g fun w hw => hm ⟨w, hw⟩] at h
    exact ⟨e', h, .refl e'⟩

theorem decide_single {s : PrincipalSystem} {pe : PetitionId} {c : Choice} {w : Wire}
    (h : Single s.grants s.petitions now) :
    let s' := systemStep.exec s (.resolveHuman pe c :: deliveries s.issued.length now (fun _ => w)
      (s.petitions.resolveHuman pe c).2.toOption.toList)
    Single s'.grants s'.petitions now := by
  intro s'
  rcases s.petitions.resolveHuman_cases pe c with ⟨e, he⟩ | ⟨p, r, hp, he, hd⟩
  · simp only [s', he, Machine.exec_cons, systemStep]
    exact h
  · set s₁ : PrincipalSystem := { s with petitions := s.petitions.drop pe, issued := s.issued ++ [r] } with hs₁
    have hst : (systemStep s (.resolveHuman pe c)).1 = s₁ := by
      simp only [systemStep, he]
      rfl
    have hs' : s' = (systemStep s₁ (.deliver r.connection s.issued.length now w)).1 := by
      simp only [s', he, Machine.exec_cons, hst]
      rfl
    obtain ⟨hpe, -, hg⟩ := deliver_stores s₁ r.connection s.issued.length now w
    have hdr := pendingArrange_drop hp
    rw [hs']
    unfold Single at h ⊢
    rw [hpe]
    rcases hg with hs | ⟨r', a, id, hr', hv, hi⟩
    · rw [hs]
      show s.grants.liveArrange now + (s.petitions.drop pe).pendingArrange ≤ 1
      omega
    · obtain rfl : r = r' := by simpa [hs₁] using hr'
      have hr := liveArrange_insertRow hi
      have hsu := (hd.granted a hv).2.2.verbs
      show _ + (s.petitions.drop pe).pendingArrange ≤ 1
      have hl : (if a.effective.verbs.contains .layoutArrange then 1 else 0) ≤
          if p.requested.verbs.contains .layoutArrange then 1 else 0 := by
        split
        · rename_i hc
          rw [if_pos (Verb.contains_trans hsu hc)]
        · exact Nat.zero_le _
      have hro' : _ ≤ s.grants.liveArrange now + _ := hr
      omega

theorem round_single (s : Clocked) (ro : Round) (hcl : s.clock ≤ ro.now) (hi : s.system.Inv)
    (h : Single s.system.grants s.system.petitions s.clock) :
    Single (roundStep s ro).1.system.grants (roundStep s ro).1.system.petitions (roundStep s ro).1.clock := by
  obtain ⟨s, cl⟩ := s
  obtain ⟨now, op⟩ := ro
  -- time goes on first
  replace h : Single s.grants s.petitions now := h.mono (liveArrange_mono hcl fun _ e he => ⟨e, he, .refl e⟩) le_rfl
  show Single (systemStep.exec s (Round.ops ⟨now, op⟩ s)).grants
    (systemStep.exec s (Round.ops ⟨now, op⟩ s)).petitions now
  cases op with
  | connect | attention => exact h
  | message c ctx msg wi =>
    simp only [Round.ops, Machine.exec_cons, systemStep]
    split
    · exact h
    · rename_i co hc
      have hs : Turn.Served { ctx with now } msg (s.turn co.server wi) _ :=
        Turn.handleMessage_served (hi.conns c co hc).below
      exact Served.single hs h
  | decide pe ch wi => exact decide_single h
  | expirePetitions w =>
    have hd := deliveries_declined (systemStep s (.expirePetitions now)).1 s.issued.length now w
      (s.petitions.expireDue now).2 (declined_from fun r hr g hg => by
        rw [PetitionRegistry.expireDue_declined hr] at hg
        cases hg)
    simp only [Round.ops, Machine.exec_cons]
    rw [hd.1, hd.2]
    exact h.mono le_rfl (pendingArrange_mono fun id p hp => ⟨p, (PetitionRegistry.get?_expireDue.mp hp).1, rfl⟩)
  | promptShown pe => exact h.mono le_rfl (pendingArrange_setShown s.petitions pe true)
  | promptHidden pe => exact h.mono le_rfl (pendingArrange_setShown s.petitions pe false)
  | expireGrants => exact h.mono (liveArrange_relives (s.grants.expireDue_relives now) now) le_rfl
  | revoke gr => exact h.mono (liveArrange_relives (s.grants.revoke_relives gr) now) le_rfl
  | revokePrincipal pr => exact h.mono (liveArrange_relives (s.grants.revokePrincipal_relives pr) now) le_rfl
  | deadMan w =>
    obtain ⟨hem, -, hde⟩ := DeadMan.apply_petitions s.stores now
    have hn : ∀ id, (DeadMan.apply s.stores now).1.petitions.pending.get? id = none :=
      fun _ => OrdMap.min?_eq_none (by simpa [OrdMap.min?] using hem)
    have hd := deliveries_declined (systemStep s (.deadMan now)).1 s.issued.length now w
      (DeadMan.apply s.stores now).2.denied (declined_from fun r hr g hg => by
        rw [hde, List.mem_map] at hr
        obtain ⟨x, -, rfl⟩ := hr
        cases hg)
    simp only [Round.ops, Machine.exec_cons]
    rw [hd.1, hd.2]
    refine h.mono (liveArrange_mono le_rfl fun id e' he' => ?_) (pendingArrange_mono fun id p hp => ?_)
    · exact (DeadMan.revokeAll_relives ..).below he'
    · exact absurd ((hn id).symm.trans hp) (Option.some_ne_none p).symm
  | teardown c =>
    simp only [Round.ops, Machine.exec_cons, systemStep]
    split
    · exact h
    · refine h.mono (liveArrange_mono le_rfl fun id e' he' => removeRows_below he')
        (pendingArrange_mono fun id p hp => ?_)
      exact ⟨p, (PetitionRegistry.get?_withdrawConnection.mp hp).1, rfl⟩

/-- **The layout has one holder.** In every run of rounds with a clock that does not go back, of any connections'
messages in either consent mode, of human decisions delivered in the round they are drained in, of timeouts,
revocations, expiries and teardowns: the live rows that confer the exclusive layout verb and the pending petitions
that name it are together at most one, now and at any later instant until the next round. -/
theorem one_holder (policy : ConsentPolicy) (config : PetitionConfig) (chord : AttentionChord) (start : Instant)
    (rounds : List Round)
    (hclock : roundStep.Along (fun s round => s.clock ≤ round.now) ⟨.new policy config chord, start⟩ rounds) :
    let s := roundStep.exec ⟨.new policy config chord, start⟩ rounds
    ∀ now, s.clock ≤ now → s.system.grants.liveArrange now + s.system.petitions.pendingArrange ≤ 1 := by
  intro s now hn
  have h : s.system.Inv ∧ Single s.system.grants s.system.petitions s.clock := by
    refine Machine.exec_along
      (P := fun s : Clocked => s.system.Inv ∧ Single s.system.grants s.system.petitions s.clock)
      (fun s round hl hs => ⟨?_, round_single s round hl hs.1 hs.2⟩) ?_ hclock
    · exact Machine.exec_inv systemStep_inv hs.1 _
    · exact ⟨.new policy config chord, Nat.zero_le 1⟩
  exact h.2.mono (liveArrange_mono hn fun _ e he => ⟨e, he, .refl e⟩) le_rfl

namespace Sample

def requestArrange : Message where
  objectId := 3
  opcode := 0
  decode
    | .requestGrant => .ok (⟨4, 5, 6, 7, 8, "", .layoutArrange, 0, 0, .whileRunning, 0⟩ : RequestGrant)
    | _ => .error undecodable

/-- Two agents petition to arrange the output, and the human allows the first. -/
def arranging : List Round :=
  [⟨0, .connect ⟨none, 1000, 1000⟩⟩, ⟨0, .connect ⟨none, 1000, 1000⟩⟩,
    ⟨1, .message 1 ctx hello ⟨[], []⟩⟩, ⟨1, .message 1 ctx getRealm ⟨[], []⟩⟩,
    ⟨2, .message 1 ctx requestArrange ⟨[], []⟩⟩,
    ⟨3, .message 2 ctx hello ⟨[], []⟩⟩, ⟨3, .message 2 ctx getRealm ⟨[], []⟩⟩,
    ⟨4, .message 2 ctx requestArrange ⟨[], []⟩⟩,
    ⟨5, .decide 1 (.allow .whileRunning) ⟨[], []⟩⟩]

end Sample

open Sample in
/-- The first agent holds the layout, and nobody else does or waits for it. -/
theorem one_holder_allowed :
    (roundStep.exec ⟨.new .interactive .default .super, 0⟩ arranging).system.grants.liveArrange 5 = 1 ∧
    (roundStep.exec ⟨.new .interactive .default .super, 0⟩ arranging).system.petitions.pendingArrange = 0 := by
  have hl : (roundStep.exec ⟨.new .interactive .default .super, 0⟩ arranging).system.grants.liveArrange 5 = 1 := by
    decide
  have hon := one_holder .interactive .default .super 0 arranging (by decide) 5 (by decide)
  exact ⟨hl, by omega⟩

end Vitrin
