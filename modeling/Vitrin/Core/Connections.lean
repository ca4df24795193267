import Vitrin.Core.Acts
import Vitrin.Core.DeadMan

/-!
# All connections together

Any number of agents, each on its own connection, against one registry of petitions
and one table of grants. Their messages, the decisions on their petitions, the
deliveries of those decisions and the ends of the connections interleave in any way.

`PrincipalSystem` is the stores, the connections that ever were, and every resolution
the registry ever handed out. `systemStep` is one thing that happens. A resolution
can be delivered at any time after it was issued, to any connection, any number of
times; a connection that has been torn down stays in the picture, so that what arrives
late can still be tried on it. Messages are arbitrary and are served in an arbitrary
environment.

`AuthorityView` is what the connections amount to as far as authority goes: the row
each handle names, the identity each connection is bound to, and which are gone.

`Covers` says that the rows of a table are exactly what the handles of the connections
that are left name, each by one handle, for the right principal. It is kept by every
step (`systemStep_inv`), so it holds in every state of every run
(`rows_are_live_handles`).
-/

namespace Vitrin

open Lib PrincipalServer OrdMap PetitionRegistry GrantTable DeadMan

/-! ### The system -/

structure Conn where
  server : PrincipalServer
  tornDown : Bool

/-- The stores, the connections, and the resolutions handed out so far. -/
structure PrincipalSystem where
  petitions : PetitionRegistry
  grants : GrantTable
  attention : AttentionSignal
  clipboard : ClipboardSlot
  conns : OrdMap ConnectionId Conn
  issued : List Resolution

inductive SystemOp where
  | connect (peer : PeerCred)
  | message (conn : ConnectionId) (ctx : ServerCtx) (msg : Message) (wire : Wire)
  | resolveHuman (petition : PetitionId) (choice : Choice)
  | resolveScripted (petition : PetitionId) (decision : ScriptedDecision)
  | expirePetitions (now : Instant)
  | promptShown (petition : PetitionId)
  | promptHidden (petition : PetitionId)
  | deliver (conn : ConnectionId) (index : Nat) (now : Instant) (wire : Wire)
  | expireGrants (now : Instant)
  | revoke (grant : GrantId)
  | revokePrincipal (principal : PrincipalIdentity)
  | deadMan (now : Instant)
  /-- The human pressed for attention, or a window opened. -/
  | attention (signal : AttentionSignal)
  | teardown (conn : ConnectionId)

/-- What is seen of a step: the calls of effect sinks, and how a message was answered. -/
structure SystemOut where
  calls : List SinkCall
  result : Option (Except PrincipalFault Unit)

namespace PrincipalSystem

def new (policy : ConsentPolicy) (config : PetitionConfig) (chord : AttentionChord) : PrincipalSystem where
  petitions := .new policy config
  grants := .new
  attention := .new chord
  clipboard := .new
  conns := .empty
  issued := []

def turn (s : PrincipalSystem) (server : PrincipalServer) (wire : Wire) : Turn :=
  ⟨server, s.petitions, s.grants, s.attention, wire, []⟩

/-- Take over what a turn on a connection left behind. -/
def absorb (s : PrincipalSystem) (c : ConnectionId) (tornDown : Bool) (t : Turn) : PrincipalSystem :=
  { s with
    petitions := t.petitions
    grants := t.grants
    attention := t.attention
    conns := s.conns.insert c ⟨t.server, tornDown⟩ }

/-- The stores, as the dead-man switch sees them. -/
def stores (s : PrincipalSystem) : DeadMan.Stores := ⟨s.grants, s.petitions, s.attention, s.clipboard⟩

end PrincipalSystem

open PrincipalSystem

def systemStep : Machine PrincipalSystem SystemOp SystemOut := fun s op =>
  let unseen (s : PrincipalSystem) : PrincipalSystem × SystemOut := (s, ⟨[], none⟩)
  match op with
  | .connect peer =>
    let registered := s.petitions.registerConnection
    unseen { s with
      petitions := registered.1
      conns := s.conns.insert registered.2 ⟨.new peer registered.2, false⟩ }
  | .message c ctx msg wire => match s.conns.get? c with
    | none => unseen s
    | some conn =>
      let served := (s.turn conn.server wire).handleMessage ctx msg
      (s.absorb c conn.tornDown served.1, ⟨served.1.calls, some served.2⟩)
  | .resolveHuman petition choice =>
    let decided := s.petitions.resolveHuman petition choice
    unseen { s with petitions := decided.1, issued := s.issued ++ decided.2.toOption.toList }
  | .resolveScripted petition decision =>
    let decided := s.petitions.resolveScripted petition decision
    unseen { s with petitions := decided.1, issued := s.issued ++ decided.2.toOption.toList }
  | .expirePetitions now =>
    let expired := s.petitions.expireDue now
    unseen { s with petitions := expired.1, issued := s.issued ++ expired.2 }
  | .promptShown petition => unseen { s with petitions := (s.petitions.markPromptShown petition).1 }
  | .promptHidden petition => unseen { s with petitions := (s.petitions.markPromptHidden petition).1 }
  | .deliver c index now wire => match s.conns.get? c, s.issued[index]? with
    | some conn, some resolution =>
      unseen (s.absorb c conn.tornDown ((s.turn conn.server wire).deliverResolution resolution now).1)
    | _, _ => unseen s
  | .expireGrants now => unseen { s with grants := (s.grants.expireDue now).1 }
  | .revoke grant => unseen { s with grants := (s.grants.revoke grant).1 }
  | .revokePrincipal principal => unseen { s with grants := (s.grants.revokePrincipal principal).1 }
  | .deadMan now =>
    let fired := DeadMan.apply s.stores now
    unseen { s with
      petitions := fired.1.petitions
      grants := fired.1.grants
      attention := fired.1.attention
      clipboard := fired.1.clipboard
      issued := s.issued ++ fired.2.denied }
  | .attention signal => unseen { s with attention := signal }
  | .teardown c => match s.conns.get? c with
    | none => unseen s
    | some conn =>
      let ended := conn.server.teardown s.petitions s.grants
      unseen { s with
        petitions := ended.2.1
        grants := ended.2.2
        conns := s.conns.insert c ⟨ended.1, true⟩ }

/-! ### What the connections amount to -/

/-- The row each handle names, the identity each connection is bound to, and which have been torn down. -/
@[ext]
structure AuthorityView where
  handle : ConnectionId → WireId → Option GrantId
  identity : ConnectionId → Option PrincipalIdentity
  torn : ConnectionId → Bool

def PrincipalSystem.view (s : PrincipalSystem) : AuthorityView where
  handle c w := (s.conns.get? c).bind (·.server.grantRowId w)
  identity c := (s.conns.get? c).bind (·.server.identity)
  torn c := (s.conns.get? c).any (·.tornDown)

variable {c : ConnectionId} {id : GrantId} {w : WireId}

namespace AuthorityView

/-- The rows of a table are what the handles of the connections that are left name. -/
structure Covers (v : AuthorityView) (g : GrantTable) : Prop where
  rows : ∀ id e, g.entryOf id = some e → ∃ c w, v.handle c w = some id ∧ v.torn c = false
  /-- A handle that is left names a row, and the row is its connection's. -/
  named : ∀ c w id, v.handle c w = some id → v.torn c = false →
    ∃ e, g.entryOf id = some e ∧ v.identity c = some e.row.principalId
  /-- A handle of a connection that is gone names a row that is gone, under an id that will not be minted again. -/
  gone : ∀ c w id, v.handle c w = some id → v.torn c = true → g.entryOf id = none ∧ id < g.nextId
  unique : ∀ c w c' w' id, v.handle c w = some id → v.handle c' w' = some id → c = c' ∧ w = w'

def set (v : AuthorityView) (c : ConnectionId) (server : PrincipalServer) (torn : Bool) : AuthorityView where
  handle := Function.update v.handle c server.grantRowId
  identity := Function.update v.identity c server.identity
  torn := Function.update v.torn c torn

namespace Covers

variable {v : AuthorityView} {g g' : GrantTable}

variable (h : v.Covers g)

include h

theorem lt_nextId (hn : v.handle c w = some id) : id < g.nextId := by
  cases ht : v.torn c with
  | true => exact (h.gone c w id hn ht).2
  | false =>
    obtain ⟨e, he, -⟩ := h.named c w id hn ht
    exact GrantTable.lt_nextId he

/-- Rows that only move between states stay covered. -/
theorem relives (hr : g.Relives g') : v.Covers g' where
  rows id e' he' := by
    obtain ⟨e, he, -⟩ := hr.below he'
    exact h.rows id e he
  named c w id hn ht := by
    obtain ⟨e, he, hi⟩ := h.named c w id hn ht
    have hre := hr.entries id
    rw [he] at hre
    cases hr' : g'.entryOf id with
    | none =>
      rw [hr'] at hre
      cases hre
    | some e' =>
      rw [hr'] at hre
      cases hre with
      | some hb => exact ⟨e', rfl, hb.row ▸ hi⟩
  gone c w id hn ht := by
    obtain ⟨he, hl⟩ := h.gone c w id hn ht
    have hre := hr.entries id
    rw [he] at hre
    cases hr' : g'.entryOf id with
    | none => exact ⟨rfl, hr.nextId ▸ hl⟩
    | some e' =>
      rw [hr'] at hre
      cases hre
  unique := h.unique

/-- Binding a connection that was not bound: it had no handle that named anything. -/
theorem bind (hi : v.identity c = none) (i : PrincipalIdentity) :
    ({ v with identity := Function.update v.identity c (some i) } : AuthorityView).Covers g where
  rows := h.rows
  named c' w id hn ht := by
    obtain ⟨e, he, hi'⟩ := h.named c' w id hn ht
    have hne : c' ≠ c := by
      rintro rfl
      cases hi.symm.trans hi'
    exact ⟨e, he, by simpa [Function.update_of_ne hne] using hi'⟩
  gone := h.gone
  unique := h.unique

theorem mint {e : Entry} (hk : e.row.grantId = g.nextId) (ht : v.torn c = false)
    (hno : v.handle c w = none) (hi : v.identity c = some e.row.principalId) :
    ({ v with handle := Function.update v.handle c (Function.update (v.handle c) w (some g.nextId)) } :
      AuthorityView).Covers (g.push e hk) := by
  -- what a handle of the new view names: the new row at `(c, w)`, and elsewhere what it named before
  have hca : ∀ c' w' id, Function.update v.handle c (Function.update (v.handle c) w (some g.nextId)) c' w' = some id →
      (c' = c ∧ w' = w ∧ id = g.nextId) ∨ (v.handle c' w' = some id ∧ id < g.nextId) := by
    intro c' w' id hn
    by_cases hc : c' = c
    · subst hc
      rw [Function.update_self] at hn
      by_cases hw : w' = w
      · subst hw
        rw [Function.update_self] at hn
        exact .inl ⟨rfl, rfl, (Option.some.inj hn).symm⟩
      · rw [Function.update_of_ne hw] at hn
        exact .inr ⟨hn, h.lt_nextId hn⟩
    · rw [Function.update_of_ne hc] at hn
      exact .inr ⟨hn, h.lt_nextId hn⟩
  have hold : ∀ c' w' id, v.handle c' w' = some id →
      Function.update v.handle c (Function.update (v.handle c) w (some g.nextId)) c' w' = some id := by
    intro c' w' id hn
    by_cases hc : c' = c
    · subst hc
      have hw : w' ≠ w := by
        rintro rfl
        cases hno.symm.trans hn
      simpa [Function.update_of_ne hw] using hn
    · simpa [Function.update_of_ne hc] using hn
  have he : ∀ id, id < g.nextId → (g.push e hk).entryOf id = g.entryOf id := fun id hl => by
    rw [entryOf_push, if_neg hl.ne]
  refine ⟨fun id e' he' => ?_, fun c' w' id hn ht' => ?_, fun c' w' id hn ht' => ?_, fun c' w' c'' w'' id hn hn' => ?_⟩
  · rw [entryOf_push] at he'
    split at he'
    · rename_i hi'
      exact ⟨c, w, by simp [hi'], ht⟩
    · obtain ⟨c', w', hn, ht'⟩ := h.rows id e' he'
      exact ⟨c', w', hold c' w' id hn, ht'⟩
  · rcases hca c' w' id hn with ⟨rfl, rfl, rfl⟩ | ⟨hn, hl⟩
    · exact ⟨e, by rw [entryOf_push, if_pos rfl], hi⟩
    · rw [he id hl]
      exact h.named c' w' id hn ht'
  · rcases hca c' w' id hn with ⟨rfl, rfl, rfl⟩ | ⟨hn, hl⟩
    · exact absurd (ht.symm.trans ht') (by decide)
    · rw [he id hl]
      exact ⟨(h.gone c' w' id hn ht').1, hl.trans (Nat.lt_succ_self _)⟩
  · rcases hca c' w' id hn with ⟨rfl, rfl, hi₁⟩ | ⟨hn₁, hl₁⟩
    · rcases hca c'' w'' id hn' with ⟨rfl, rfl, -⟩ | ⟨-, hl₂⟩
      · exact ⟨rfl, rfl⟩
      · exact absurd hi₁ hl₂.ne
    · rcases hca c'' w'' id hn' with ⟨-, -, hi₂⟩ | ⟨hn₂, -⟩
      · exact absurd hi₂ hl₁.ne
      · exact h.unique c' w' c'' w'' id hn₁ hn₂

/-- A connection is torn down, and the rows its handles name are removed. -/
theorem teardown (hnex : g'.nextId = g.nextId)
    (hr : ∀ w id, v.handle c w = some id → g'.entryOf id = none)
    (hk : ∀ id, (∀ w, v.handle c w ≠ some id) → g'.entryOf id = g.entryOf id) :
    ({ v with torn := Function.update v.torn c true } : AuthorityView).Covers g' := by
  have hot : ∀ c' w id, v.handle c' w = some id → c' ≠ c → g'.entryOf id = g.entryOf id :=
    fun c' w id hn hne => hk id fun w' hn' => hne (h.unique c' w c w' id hn hn').1
  refine ⟨fun id e he => ?_, fun c' w id hn ht => ?_, fun c' w id hn ht => ?_, h.unique⟩
  · have hno : ∀ w, v.handle c w ≠ some id := fun w hn => nomatch (hr w id hn).symm.trans he
    rw [hk id hno] at he
    obtain ⟨c', w, hn, ht⟩ := h.rows id e he
    have hne : c' ≠ c := by
      rintro rfl
      exact hno w hn
    exact ⟨c', w, hn, by simpa [Function.update_of_ne hne] using ht⟩
  · have hne : c' ≠ c := by
      rintro rfl
      simp at ht
    rw [hot c' w id hn hne]
    exact h.named c' w id hn (by simpa [Function.update_of_ne hne] using ht)
  · refine ⟨?_, hnex ▸ h.lt_nextId hn⟩
    by_cases hne : c' = c
    · subst hne
      exact hr w id hn
    · rw [hot c' w id hn hne]
      exact (h.gone c' w id hn (by simpa [Function.update_of_ne hne] using ht)).1

end Covers

end AuthorityView

theorem PrincipalSystem.view_insert (s : PrincipalSystem) (c : ConnectionId) (con : Conn) :
    ({ s with conns := s.conns.insert c con } : PrincipalSystem).view = s.view.set c con.server con.tornDown := by
  apply AuthorityView.ext
  all_goals
    funext c'
    by_cases hc : c' = c
    · subst hc
      simp [view, AuthorityView.set]
    · simp [view, AuthorityView.set, Function.update_of_ne hc, get?_insert_of_ne hc]

/-! ### Handles of a server -/

variable {msg : Message}

namespace PrincipalServer

variable {s : PrincipalServer}

theorem grantRowId_eq_some : s.grantRowId w = some id ↔ s.objects.get? w = some (.grant (.resolved (some id))) := by
  unfold grantRowId
  split
  · rename_i r h
    simp [h]
  · rename_i hn
    constructor
    · intro h
      cases h
    · intro h
      exact absurd h (hn (some id))

/-- Minting objects changes no handle's row. -/
theorem Grows.grantRowId {s' : PrincipalServer} (h : s.Grows msg s') : s'.grantRowId = s.grantRowId := by
  funext w
  refine Option.ext fun id => ?_
  rw [grantRowId_eq_some, grantRowId_eq_some]
  constructor
  · intro hg
    rcases h.new w _ hg with hg | ⟨-, -, hf⟩
    · exact hg
    · exact hf.elim
  · exact h.old w _

theorem grantRowId_addObject {r : Option GrantId} :
    (s.addObject w (.grant (.resolved r))).grantRowId = Function.update s.grantRowId w r := by
  funext w'
  by_cases hw : w' = w
  · subst hw
    simp [grantRowId, addObject]
  · simp [grantRowId, addObject, Function.update_of_ne hw, get?_insert_of_ne hw]

end PrincipalServer

theorem removeRows_nextId {grants : GrantTable} {o : List (WireId × ObjectKind)} :
    (removeRows grants o).nextId = grants.nextId := by
  fun_induction removeRows grants o with
  | case1 grants => rfl
  | case2 grants w id o ih | case3 grants x o hn ih => exact ih

variable {grants : GrantTable}

theorem entryOf_removeRows_of_none (h : grants.entryOf id = none) (o : List (WireId × ObjectKind)) :
    (removeRows grants o).entryOf id = none := by
  fun_induction removeRows grants o with
  | case1 grants => exact h
  | case2 grants w i' o ih =>
    refine ih ?_
    rw [entryOf_remove]
    split
    · rfl
    · exact h
  | case3 grants x o hn ih => exact ih h

variable {o : List (WireId × ObjectKind)}

theorem entryOf_removeRows_of_mem (grants : GrantTable) (h : (w, .grant (.resolved (some id))) ∈ o) :
    (removeRows grants o).entryOf id = none := by
  fun_induction removeRows grants o with
  | case1 grants => cases h
  | case2 grants w' i' o ih =>
    rcases List.mem_cons.mp h with he | hm
    · cases he
      refine entryOf_removeRows_of_none ?_ o
      rw [entryOf_remove, if_pos rfl]
    · exact ih hm
  | case3 grants x o hn ih =>
    rcases List.mem_cons.mp h with rfl | hm
    · exact absurd rfl (hn w id)
    · exact ih hm

theorem entryOf_removeRows_of_not_mem (grants : GrantTable) (h : ∀ w, (w, .grant (.resolved (some id))) ∉ o) :
    (removeRows grants o).entryOf id = grants.entryOf id := by
  fun_induction removeRows grants o with
  | case1 grants => rfl
  | case2 grants w' i' o ih =>
    have hn : id ≠ i' := by
      rintro rfl
      exact h w' (.head _)
    rw [ih fun w hm => h w (.tail _ hm), entryOf_remove, if_neg hn]
  | case3 grants x o hno ih => exact ih fun w hm => h w (.tail _ hm)

/-! ### The invariant -/

structure Conn.Ok (conn : Conn) (c bound : ConnectionId) : Prop where
  connection : conn.server.connection = c
  minted : c < bound
  below : conn.server.Below
  unbound : conn.server.phase = .connected → conn.server.identity = none
  torn : conn.tornDown = true → conn.server.phase = .dead

variable {s : PrincipalSystem}

namespace PrincipalSystem

/-- The rows are what the handles left name, and every petition that is pending or was granted is its
connection's. -/
structure Inv (s : PrincipalSystem) : Prop where
  conns : ∀ c conn, s.conns.get? c = some conn → conn.Ok c s.petitions.nextConnectionId
  covers : s.view.Covers s.grants
  pending : ∀ id p, s.petitions.pending.get? id = some p →
    s.view.identity p.connection = some p.identity ∧ s.view.torn p.connection = false
  issued : ∀ r ∈ s.issued, ∀ g, r.verdict = .granted g → s.view.identity r.connection = some g.identity

variable {torn : Bool}

theorem view_absorb {t : Turn} : (s.absorb c torn t).view = s.view.set c t.server torn :=
  view_insert ({ s with petitions := t.petitions, grants := t.grants, attention := t.attention }) c ⟨t.server, torn⟩

variable {co : Conn} {ctx : ServerCtx}

section Absorb

variable {t t' : Turn}

variable (h : (s.absorb c torn t).Inv)

include h

theorem Inv.ok : Conn.Ok ⟨t.server, torn⟩ c t.petitions.nextConnectionId :=
  h.conns c _ get?_insert_self

section

variable (hok : Conn.Ok ⟨t'.server, torn⟩ c t.petitions.nextConnectionId)

include hok

theorem Inv.conns_absorb
    {c' : ConnectionId}
    (hg : (s.absorb c torn t').conns.get? c' = some co) : co.Ok c' t.petitions.nextConnectionId := by
  have hg' : (s.conns.insert c ⟨t'.server, torn⟩).get? c' = some co := hg
  by_cases hc : c' = c
  · subst hc
    obtain rfl := Option.some.inj (get?_insert_self.symm.trans hg')
    exact hok
  · rw [get?_insert_of_ne hc] at hg'
    exact h.conns c' co (by simpa [absorb, get?_insert_of_ne hc] using hg')

/-- A turn that keeps what is seen of its connection, and the rows up to their states, keeps the invariant;
a petition it files must be its own. -/
theorem Inv.keep
    (hvi : s.view.set c t'.server torn = s.view.set c t.server torn) (hgr : t.grants.Relives t'.grants)
    (hn : t'.petitions.nextConnectionId = t.petitions.nextConnectionId)
    (hpe : ∀ id p, t'.petitions.pending.get? id = some p → t.petitions.pending.get? id = some p ∨
      (torn = false ∧ p.connection = c ∧ t.server.identity = some p.identity)) : (s.absorb c torn t').Inv := by
  have hv : (s.absorb c torn t').view = (s.absorb c torn t).view := by rw [view_absorb, view_absorb, hvi]
  refine ⟨fun c' co hge => ?_, hv ▸ h.covers.relives hgr, fun id p hp => ?_,
    fun r hr g hg => hv ▸ h.issued r hr g hg⟩
  · show co.Ok c' t'.petitions.nextConnectionId
    rw [hn]
    exact h.conns_absorb hok hge
  · rw [hv]
    rcases hpe id p hp with hp | ⟨rfl, rfl, hi⟩
    · exact h.pending id p hp
    · rw [view_absorb]
      simp [AuthorityView.set, hi]

end

/-- Only the phase, towards the end, and the wire move. -/
theorem Inv.fade {phase : Phase} (wire : Wire)
    (hph : phase = t.server.phase ∨ phase = .dead) :
    (s.absorb c torn { t with server := { t.server with phase }, wire }).Inv := by
  refine h.keep ⟨h.ok.connection, h.ok.minted, h.ok.below, fun hc => ?_, fun ht => ?_⟩ rfl (.refl _) rfl
    fun id p hp => .inl hp
  · rcases hph with hs | hd
    · exact h.ok.unbound (hs.symm.trans hc)
    · exact absurd (hd.symm.trans hc) (by decide)
  · rcases hph with hs | hd
    · exact hs.trans (h.ok.torn ht)
    · exact hd

/-- A delivered resolution that grants this connection's own petition keeps the invariant. -/
theorem Inv.settles {r : Resolution} {now : Instant} (ha : t.Awaits r)
    (how : ∀ g, r.verdict = .granted g → t.server.identity = some g.identity) (hse : t.Settles now r t') :
    (s.absorb c torn t').Inv := by
  have hl : torn = false := by
    cases torn with
    | false => rfl
    | true => exact absurd (ha.bound.symm.trans (h.ok.torn rfl)) (by decide)
  have hr : t.server.grantRowId r.grantWireId = none := by
    simp [grantRowId, ha.pending]
  -- the server with its handle resolved is as good as it was
  have hok : ∀ ro, Conn.Ok ⟨t.server.addObject r.grantWireId (.grant (.resolved ro)), torn⟩ c
      t.petitions.nextConnectionId := by
    intro ro
    refine ⟨h.ok.connection, h.ok.minted, fun id k hge => ?_, h.ok.unbound, h.ok.torn⟩
    by_cases hid : id = r.grantWireId
    · subst hid
      exact h.ok.below _ _ ha.pending
    · exact h.ok.below id k (by simpa [addObject, get?_insert_of_ne hid] using hge)
  cases hse with
  | declined wi hv =>
    refine h.keep (hok none) ?_ (.refl _) rfl fun id p hp => .inl hp
    have hs : Function.update t.server.grantRowId r.grantWireId none = t.server.grantRowId :=
      Function.update_eq_self_iff.mpr hr.symm
    simp only [AuthorityView.set, grantRowId_addObject, hs]
    rfl
  | granted wi hv hin =>
    rename_i a grants id
    obtain ⟨rfl, n, rfl⟩ := insert_eq_ok hin
    have hvi : s.view.set c (t.server.addObject r.grantWireId (.grant (.resolved (some t.grants.nextId)))) torn =
        { (s.absorb c torn t).view with
          handle := Function.update (s.absorb c torn t).view.handle c
            (Function.update ((s.absorb c torn t).view.handle c) r.grantWireId (some t.grants.nextId)) } := by
      rw [view_absorb]
      simp only [AuthorityView.set, grantRowId_addObject, Function.update_self, Function.update_idem]
      rfl
    have hide : (s.absorb c torn t).view.identity c = some a.identity := by
      rw [view_absorb]
      simpa [AuthorityView.set] using how a hv
    refine ⟨fun c' co hge => h.conns_absorb (hok _) hge, ?_, fun id p hp => ?_, fun r' hr' g hg => ?_⟩
    · rw [view_absorb]
      rw [hvi]
      refine h.covers.mint (t.grants.mintEntry_grantId ..) ?_ ?_ hide
      · rw [view_absorb]
        simpa [AuthorityView.set] using hl
      · rw [view_absorb]
        simpa [AuthorityView.set] using hr
    · have hp' := h.pending id p hp
      rw [view_absorb] at hp' ⊢
      exact hp'
    · have hi := h.issued r' hr' g hg
      rw [view_absorb] at hi ⊢
      exact hi

theorem Inv.act (ha : t.Act ctx msg t') : (s.absorb c torn t').Inv := by
  -- a connection that was torn down is dead, so only the first kind of act is left to it
  have hl : t.server.phase ≠ .dead → torn = false := fun hph => by
    cases torn with
    | false => rfl
    | true => exact absurd (h.ok.torn rfl) hph
  cases ha with
  | grow wi hgr =>
    refine h.keep ⟨hgr.connection.trans h.ok.connection, h.ok.minted, fun id k hge => ?_, fun hph => ?_,
      fun ht => ?_⟩ ?_ (.refl _) rfl fun id p hp => .inl hp
    · rcases hgr.new id k hge with hge | ⟨-, hle, -⟩
      · exact (h.ok.below id k hge).trans hgr.watermark
      · exact hle
    · rcases hgr.phase with hs | hd
      · exact hgr.identity.trans (h.ok.unbound (hs.symm.trans hph))
      · exact absurd (hd.symm.trans hph) (by decide)
    · rcases hgr.phase with hs | hd
      · exact hs.trans (h.ok.torn ht)
      · exact hd
    · simp [AuthorityView.set, hgr.grantRowId, hgr.identity]
  | bind wi hph hob hh hver =>
    rename_i hello i
    have hno := h.ok.unbound hph
    have hto := hl (by rw [hph]; decide)
    have hv : s.view.set c { t.server with
          principalId := some hello.principal
          phase := .bound
          identity := some i } torn =
        { (s.absorb c torn t).view with
          identity := Function.update (s.absorb c torn t).view.identity c (some i) } := by
      rw [view_absorb]
      simp only [AuthorityView.set, Function.update_idem]
      rfl
    have hu : (s.absorb c torn t).view.identity c = none := by
      rw [view_absorb]
      simpa [AuthorityView.set] using hno
    -- whoever is bound already is another connection
    have hot : ∀ c' i', (s.absorb c torn t).view.identity c' = some i' →
        Function.update (s.absorb c torn t).view.identity c (some i) c' = some i' := by
      intro c' i' hi
      have hn : c' ≠ c := by
        rintro rfl
        cases hu.symm.trans hi
      rw [Function.update_of_ne hn, hi]
    have hok : Conn.Ok ⟨{ t.server with
        principalId := some hello.principal
        phase := .bound
        identity := some i }, torn⟩ c t.petitions.nextConnectionId := by
      refine ⟨h.ok.connection, h.ok.minted, h.ok.below, fun hc => ?_, fun ht => ?_⟩
      · cases hc
      · rw [hto] at ht
        cases ht
    refine ⟨fun c' co hge => h.conns_absorb hok hge, ?_, fun id p hp => ?_, fun r hr g hg => ?_⟩
    · rw [view_absorb]
      rw [hv]
      exact h.covers.bind hu i
    · obtain ⟨hi, ht⟩ := h.pending id p hp
      rw [view_absorb]
      rw [hv]
      exact ⟨hot _ _ hi, ht⟩
    · rw [view_absorb]
      rw [hv]
      exact hot _ _ (h.issued r hr g hg)
  | park wi hb hco hi hph =>
    rename_i re ph
    have hto := hl (by rw [hb]; decide)
    refine h.keep ⟨h.ok.connection, h.ok.minted, h.ok.below, fun hc => ?_, fun ht => ?_⟩ rfl (.refl _) ?_
      fun id p hp => ?_
    · rcases hph with hs | hd
      · exact absurd (hb.symm.trans (hs.symm.trans hc)) (by decide)
      · exact absurd (hd.symm.trans hc) (by decide)
    · rw [hto] at ht
      cases ht
    · show (t.admitted ctx re).1.nextConnectionId = _
      rcases t.admitted_parks ctx re with he | ⟨rea, ru, -, he⟩
      · rw [he]
      · rw [he]
        rfl
    · have hp' : (t.admitted ctx re).1.pending.get? id = some p := hp
      rcases t.admitted_parks ctx re with he | ⟨rea, ru, -, he⟩
      · rw [he] at hp'
        exact .inl hp'
      · rw [he, get?_push] at hp'
        split at hp'
        · cases hp'
          exact .inr ⟨hto, hco.trans h.ok.connection, hi⟩
        · exact .inl hp'
  | settle hb hco hi hre haw hse =>
    obtain ⟨hs, hve⟩ := Turn.admitted_resolves hre
    rw [hs] at hse
    refine h.settles haw (fun g hg => ?_) hse
    rcases hve with ⟨o, hde⟩ | ⟨rea, ru, -, hgra⟩
    · cases hg.symm.trans hde
    · cases hg.symm.trans hgra
      exact hi

theorem Inv.uses (hu : t.Uses ctx msg t') : (s.absorb c torn t').Inv := by
  cases hu with
  | intro hb hob hk hi =>
    refine h.keep ⟨h.ok.connection, h.ok.minted, h.ok.below, h.ok.unbound, h.ok.torn⟩ rfl ?_ rfl
      fun id p hp => .inl hp
    exact Chokepoint.enforceUse_relives

end Absorb

theorem absorb_turn (hc : s.conns.get? c = some co) (wi : Wire) : s.absorb c co.tornDown (s.turn co.server wi) = s := by
  have hs : s.conns.insert c co = s.conns := by
    refine ext_get? fun c' => ?_
    rw [get?_insert]
    split
    · rename_i h
      rw [h, hc]
    · rfl
  show ({ s with conns := s.conns.insert c co } : PrincipalSystem) = s
  rw [hs]

theorem Inv.acts {t t' : Turn} (h : (s.absorb c torn t).Inv) (hac : Turn.Acts ctx msg t t') :
    (s.absorb c torn t').Inv := by
  induction hac with
  | refl => exact h
  | tail _ ha ih => exact ih.act ha

theorem Inv.served {t t' : Turn} (h : (s.absorb c torn t).Inv) (hs : Turn.Served ctx msg t t') :
    (s.absorb c torn t').Inv := by
  rcases hs with ha | ⟨t₁, hu, ha⟩
  · exact h.acts ha
  · exact (h.uses hu).acts ha

section Stores

variable (h : s.Inv)

include h

/-- Petitions leave the registry or change whether they are shown; what is handed out decides one of them. -/
theorem Inv.registry (petitions : PetitionRegistry) (more : List Resolution)
    (hn : petitions.nextConnectionId = s.petitions.nextConnectionId)
    (hpe : ∀ id p, petitions.pending.get? id = some p → ∃ p₀, s.petitions.pending.get? id = some p₀ ∧
      p.connection = p₀.connection ∧ p.identity = p₀.identity)
    (hm : ∀ r ∈ more, ∀ g, r.verdict = .granted g → ∃ id p, s.petitions.pending.get? id = some p ∧ r.Decides p) :
    ({ s with petitions, issued := s.issued ++ more } : PrincipalSystem).Inv := by
  refine ⟨fun c co hge => ?_, h.covers, fun id p hp => ?_, fun r hr g hg => ?_⟩
  · show co.Ok c petitions.nextConnectionId
    rw [hn]
    exact h.conns c co hge
  · obtain ⟨p₀, hp₀, hc, hi⟩ := hpe id p hp
    rw [hc, hi]
    exact h.pending id p₀ hp₀
  · rcases List.mem_append.mp hr with hr | hr
    · exact h.issued r hr g hg
    · obtain ⟨id, p, hp, hd⟩ := hm r hr g hg
      rw [hd.connection, (hd.granted g hg).1]
      exact (h.pending id p hp).1

theorem Inv.decided {id : PetitionId} {p : PendingPetition} {r : Resolution}
    (hp : s.petitions.pending.get? id = some p) (hd : r.Decides p) :
    ({ s with petitions := s.petitions.drop id, issued := s.issued ++ [r] } : PrincipalSystem).Inv := by
  refine h.registry _ _ rfl (fun id' p' hp' => ⟨p', (get?_drop.mp hp').2, rfl, rfl⟩) ?_
  intro r' hr' g hg
  obtain rfl := List.mem_singleton.mp hr'
  exact ⟨id, p, hp, hd⟩

theorem Inv.undecided : ({ s with petitions := s.petitions, issued := s.issued ++ [] } : PrincipalSystem).Inv :=
  h.registry _ _ rfl (fun _ p hp => ⟨p, hp, rfl, rfl⟩) (by simp)

theorem Inv.setShown (petition : PetitionId) (shown : Bool) :
    ({ s with petitions := s.petitions.setShown petition shown } : PrincipalSystem).Inv := by
  have hr := h.registry (s.petitions.setShown petition shown) [] rfl ?_ (by simp)
  · simpa using hr
  · intro id p hp
    rw [get?_setShown] at hp
    split at hp
    · obtain ⟨p₀, hp₀, rfl⟩ := Option.map_eq_some_iff.mp hp
      exact ⟨p₀, hp₀, rfl, rfl⟩
    · exact ⟨p, hp, rfl, rfl⟩

theorem Inv.relives (hr : s.grants.Relives grants) : ({ s with grants } : PrincipalSystem).Inv :=
  ⟨h.conns, h.covers.relives hr, h.pending, h.issued⟩

theorem Inv.deadMan (now : Instant) : ({ s with
      petitions := (apply s.stores now).1.petitions
      grants := (apply s.stores now).1.grants
      attention := (apply s.stores now).1.attention
      clipboard := (apply s.stores now).1.clipboard
      issued := s.issued ++ (apply s.stores now).2.denied } : PrincipalSystem).Inv := by
  obtain ⟨he, hev, hd⟩ := apply_petitions s.stores now
  have hc := h.covers.relives (revokeAll_relives s.grants
    ((s.grants.rows now).map (·.1.principalId)).dedup)
  have hn : ∀ id, (apply s.stores now).1.petitions.pending.get? id = none :=
    fun _ => min?_eq_none (by simpa [min?] using he)
  have hre := h.registry (apply s.stores now).1.petitions
    (apply s.stores now).2.denied denyPending_nextConnectionId
    (fun id p hp => by simp [hn] at hp) ?_
  · exact ⟨hre.conns, ⟨hc.rows, hc.named, hc.gone, hc.unique⟩, hre.pending, hre.issued⟩
  · intro r hr g hg
    rw [hd, List.mem_map] at hr
    obtain ⟨x, -, rfl⟩ := hr
    cases hg

theorem Inv.connect (pe : PeerCred) : ({ s with
      petitions := s.petitions.registerConnection.1
      conns := s.conns.insert s.petitions.nextConnectionId ⟨.new pe s.petitions.nextConnectionId, false⟩ } :
      PrincipalSystem).Inv := by
  have hf : s.conns.get? s.petitions.nextConnectionId = none := by
    cases hge : s.conns.get? s.petitions.nextConnectionId with
    | none => rfl
    | some co => exact absurd (h.conns _ co hge).minted (lt_irrefl _)
  have hn : ∀ w, (PrincipalServer.new pe s.petitions.nextConnectionId).grantRowId w = none := fun w => by
    simp [PrincipalServer.grantRowId, PrincipalServer.new]
  have hvi : s.view.set s.petitions.nextConnectionId (.new pe s.petitions.nextConnectionId) false = s.view := by
    apply AuthorityView.ext
    · refine Function.update_eq_self_iff.mpr (funext fun w => ?_)
      simp [hn, view, hf]
    · refine Function.update_eq_self_iff.mpr ?_
      simp [PrincipalServer.new, view, hf]
    · refine Function.update_eq_self_iff.mpr ?_
      simp [view, hf]
  have hv := (view_insert s s.petitions.nextConnectionId ⟨.new pe s.petitions.nextConnectionId, false⟩).trans hvi
  refine ⟨fun c co hge => ?_, ?_, fun id p hp => ?_, fun r hr g hg => ?_⟩
  · have hg' : (s.conns.insert s.petitions.nextConnectionId _).get? c = some co := hge
    by_cases hc : c = s.petitions.nextConnectionId
    · subst hc
      obtain rfl := Option.some.inj (get?_insert_self.symm.trans hg')
      refine ⟨rfl, Nat.lt_succ_self _, fun id k hge => ?_, fun _ => rfl, fun ht => nomatch ht⟩
      simp [PrincipalServer.new] at hge
    · rw [get?_insert_of_ne hc] at hg'
      have hok := h.conns c co hg'
      exact ⟨hok.connection, hok.minted.trans (Nat.lt_succ_self _), hok.below, hok.unbound, hok.torn⟩
  · exact hv.symm ▸ h.covers
  · exact hv.symm ▸ h.pending id p hp
  · exact hv.symm ▸ h.issued r hr g hg

theorem Inv.teardown (hc : s.conns.get? c = some co) : ({ s with
      petitions := (s.petitions.withdrawConnection co.server.connection).1
      grants := removeRows s.grants co.server.objects.entries
      conns := s.conns.insert c ⟨{ co.server with phase := .dead }, true⟩ } : PrincipalSystem).Inv := by
  have hok := h.conns c co hc
  have hh : ∀ w id, s.view.handle c w = some id ↔
      (w, .grant (.resolved (some id))) ∈ co.server.objects.entries := fun w id => by
    rw [mem_entries_iff, ← grantRowId_eq_some]
    simp [view, hc]
  have hvi : s.view.set c { co.server with phase := .dead } true =
      { s.view with torn := Function.update s.view.torn c true } := by
    apply AuthorityView.ext
    · refine Function.update_eq_self_iff.mpr (funext fun w => ?_)
      simp [view, hc, grantRowId]
    · refine Function.update_eq_self_iff.mpr ?_
      simp [view, hc]
    · rfl
  have hv := (view_insert s c ⟨{ co.server with phase := .dead }, true⟩).trans hvi
  refine ⟨fun c' co' hge => ?_, ?_, fun id p hp => ?_, fun r hr g hg => ?_⟩
  · have hg' : (s.conns.insert c ⟨{ co.server with phase := .dead }, true⟩).get? c' = some co' := hge
    by_cases hc' : c' = c
    · subst hc'
      obtain rfl := Option.some.inj (get?_insert_self.symm.trans hg')
      exact ⟨hok.connection, hok.minted, hok.below, (fun hp => nomatch hp), fun _ => rfl⟩
    · rw [get?_insert_of_ne hc'] at hg'
      exact h.conns c' co' hg'
  · refine hv.symm ▸ h.covers.teardown removeRows_nextId (fun w id hn => ?_) fun id hno => ?_
    · exact entryOf_removeRows_of_mem _ ((hh w id).mp hn)
    · exact entryOf_removeRows_of_not_mem _ fun w hm => hno w ((hh w id).mpr hm)
  · obtain ⟨hp, hne⟩ := get?_withdrawConnection.mp hp
    rw [hok.connection] at hne
    obtain ⟨hi, ht⟩ := h.pending id p hp
    refine hv.symm ▸ ⟨hi, ?_⟩
    simpa [Function.update_of_ne hne] using ht
  · exact hv.symm ▸ h.issued r hr g hg

end Stores

end PrincipalSystem

theorem systemStep_inv (s : PrincipalSystem) (op : SystemOp) (h : s.Inv) : (systemStep s op).1.Inv := by
  cases op with
  | connect peer => exact h.connect peer
  | message c ctx msg wire =>
    simp only [systemStep]
    split
    · exact h
    · rename_i conn hc
      have hs : (s.absorb c conn.tornDown (s.turn conn.server wire)).Inv := (absorb_turn hc wire).symm ▸ h
      exact hs.served (Turn.handleMessage_served (h.conns c conn hc).below)
  | resolveHuman petition choice =>
    rcases s.petitions.resolveHuman_cases petition choice with ⟨err, he⟩ | ⟨p, r, hp, he, hd⟩
    all_goals simp only [systemStep, he]
    · exact h.undecided
    · exact h.decided hp hd
  | resolveScripted petition decision =>
    rcases s.petitions.resolveScripted_cases petition decision with ⟨err, he⟩ | ⟨p, r, hp, he, hd⟩
    all_goals simp only [systemStep, he]
    · exact h.undecided
    · exact h.decided hp hd
  | expirePetitions now =>
    refine h.registry _ _ rfl (fun id p hp => ⟨p, (get?_expireDue.mp hp).1, rfl, rfl⟩) ?_
    intro r hr g hg
    rw [expireDue_declined hr] at hg
    cases hg
  | promptShown petition => exact h.setShown petition true
  | promptHidden petition => exact h.setShown petition false
  | deliver c index now wire =>
    simp only [systemStep]
    split
    · rename_i conn r hc hr
      have hs : (s.absorb c conn.tornDown (s.turn conn.server wire)).Inv := (absorb_turn hc wire).symm ▸ h
      have hok := h.conns c conn hc
      rcases (s.turn conn.server wire).deliverResolution_cases r now with
        ⟨phase, wire', hph, he⟩ | ⟨ha, hse⟩
      · rw [he]
        exact hs.fade wire' hph
      · refine hs.settles ha (fun g hg => ?_) hse
        have how := h.issued r (List.mem_of_getElem? hr) g hg
        rw [ha.connection, show (s.turn conn.server wire).server.connection = c from hok.connection] at how
        simpa [view, turn, hc] using how
    · exact h
  | expireGrants now => exact h.relives (s.grants.expireDue_relives now)
  | revoke grant => exact h.relives (s.grants.revoke_relives grant)
  | revokePrincipal principal => exact h.relives (s.grants.revokePrincipal_relives principal)
  | deadMan now => exact h.deadMan now
  | attention signal => exact ⟨h.conns, h.covers, h.pending, h.issued⟩
  | teardown c =>
    simp only [systemStep]
    split
    · exact h
    · rename_i conn hc
      exact h.teardown hc

theorem PrincipalSystem.Inv.new (po : ConsentPolicy) (co : PetitionConfig) (ch : AttentionChord) :
    (PrincipalSystem.new po co ch).Inv := by
  refine ⟨fun c con hg => ?_, ⟨fun id e he => ?_, fun c w id hn => ?_, fun c w id hn => ?_,
    fun c w c' w' id hn => ?_⟩, fun id p hp => ?_, fun r hr => ?_⟩
  · simp [PrincipalSystem.new] at hg
  · simp [PrincipalSystem.new, GrantTable.new, GrantTable.entryOf] at he
  iterate 3 simp [PrincipalSystem.new, view] at hn
  · simp [PrincipalSystem.new, PetitionRegistry.new] at hp
  · simp [PrincipalSystem.new] at hr

theorem systemStep_torn (h : s.Inv) (op : SystemOp) (ht : s.view.torn c = true) :
    (systemStep s op).1.view.torn c = true := by
  have ha : ∀ c' con t, s.conns.get? c' = some con → (s.absorb c' con.tornDown t).view.torn c = true := by
    intro c' con t hc'
    rw [view_absorb]
    by_cases hc : c = c'
    · subst hc
      simpa [AuthorityView.set, view, hc'] using ht
    · simpa [AuthorityView.set, Function.update_of_ne hc] using ht
  cases op with
  | connect p =>
    have hn : c ≠ s.petitions.nextConnectionId := by
      rintro rfl
      cases hg : s.conns.get? s.petitions.nextConnectionId with
      | none => simp [view, hg] at ht
      | some con => exact absurd (h.conns _ con hg).minted (lt_irrefl _)
    simpa [systemStep, view, registerConnection, get?_insert_of_ne hn] using ht
  | message c' ctx msg wi =>
    simp only [systemStep]
    split
    · exact ht
    · rename_i con hc'
      exact ha c' con _ hc'
  | deliver c' i now wi =>
    simp only [systemStep]
    split
    · rename_i con r hc' hr
      exact ha c' con _ hc'
    · exact ht
  | teardown c' =>
    simp only [systemStep]
    split
    · exact ht
    · by_cases hc : c = c'
      · subst hc
        simp [view]
      · simpa [view, get?_insert_of_ne hc] using ht
  | resolveHuman | resolveScripted | expirePetitions | promptShown | promptHidden | expireGrants | revoke
  | revokePrincipal | deadMan | attention => exact ht

/-- **Authority is exactly what the handles of living connections name.** In every state of every run, from
nothing, of any connections' messages, of decisions on their petitions, of deliveries in any order, to any
connection and any number of times, and of teardowns: the rows of the table are the ids that resolved handles
of connections not torn down name; no row is named by two handles; the row a handle names is held by the
identity its connection was verified to be. And once a connection is torn down, then whatever happens later,
no row its handles name exists and no petition of its is pending. -/
theorem rows_are_live_handles (policy : ConsentPolicy) (config : PetitionConfig) (chord : AttentionChord)
    (ops : List SystemOp) :
    let s := systemStep.exec (.new policy config chord) ops
    (∀ id, (∃ e, s.grants.entryOf id = some e) ↔ ∃ c w, s.view.handle c w = some id ∧ s.view.torn c = false) ∧
    (∀ id c w c' w', s.view.handle c w = some id → s.view.handle c' w' = some id → c = c' ∧ w = w') ∧
    (∀ c w id e, s.view.handle c w = some id → s.view.torn c = false → s.grants.entryOf id = some e →
      s.view.identity c = some e.row.principalId) ∧
    (∀ c, s.view.torn c = true → ∀ l,
      let s' := systemStep.exec s l
      (∀ w id, s'.view.handle c w = some id → s'.grants.entryOf id = none) ∧
      (∀ id p, s'.petitions.pending.get? id = some p → p.connection ≠ c)) := by
  intro s
  have h : s.Inv := Machine.exec_inv systemStep_inv (.new policy config chord) ops
  refine ⟨fun id => ⟨?_, ?_⟩, fun id c w c' w' => h.covers.unique c w c' w' id, fun c w id e hn ht he => ?_, ?_⟩
  · rintro ⟨e, he⟩
    exact h.covers.rows id e he
  · rintro ⟨c, w, hn, ht⟩
    obtain ⟨e, he, -⟩ := h.covers.named c w id hn ht
    exact ⟨e, he⟩
  · obtain ⟨e', he', hi⟩ := h.covers.named c w id hn ht
    cases he.symm.trans he'
    exact hi
  · intro c ht l s'
    have h' : s'.Inv ∧ s'.view.torn c = true :=
      Machine.exec_inv (P := fun s => s.Inv ∧ s.view.torn c = true)
        (fun s op hs => ⟨systemStep_inv s op hs.1, systemStep_torn hs.1 op hs.2⟩) ⟨h, ht⟩ l
    refine ⟨fun w id hn => (h'.1.covers.gone c w id hn h'.2).1, fun id p hp hc => ?_⟩
    obtain ⟨-, hl⟩ := h'.1.pending id p hp
    rw [hc, h'.2] at hl
    cases hl

namespace Sample

def undecodable : DecodeError := ⟨.invalidArgument, "another request's body"⟩

def hello : Message where
  objectId := 1
  opcode := 0
  decode
    | .hello => .ok (⟨2, 2, "vitrin://local/agent/demo", "static-token", "secret"⟩ : Hello)
    | _ => .error undecodable

def getRealm : Message where
  objectId := 2
  opcode := 0
  decode
    | .getRealm => .ok ((3, "realm-0") : WireId × String)
    | _ => .error undecodable

/-- A petition to watch the realm: handle 4, consent 5, facets 6 to 8. -/
def requestGrant : Message where
  objectId := 3
  opcode := 0
  decode
    | .requestGrant => .ok (⟨4, 5, 6, 7, 8, "", .observe, 0, 0, .whileRunning, 0⟩ : RequestGrant)
    | _ => .error undecodable

/-- A core that knows the sample realm and believes every credential. -/
def ctx : ServerCtx where
  verify _ := .bound agent
  realms := realms
  now := 0
  realmView _ := some ⟨[1, 2, 3, 255], 1, 1⟩
  realmIsLive _ := true
  physicalRealm := none
  presence := .new
  launch _ := .error .internal
  designate _ := .error .unavailable
  memfd := true

/-- One agent connects, says hello and petitions. -/
def petitioning : List SystemOp :=
  [.connect ⟨none, 1000, 1000⟩, .message 1 ctx hello ⟨[], []⟩, .message 1 ctx getRealm ⟨[], []⟩,
    .message 1 ctx requestGrant ⟨[], []⟩]

end Sample

open Sample in
/-- Under auto-approve the petition is granted: handle 4 of connection 1 names row 1, which is the agent's. -/
theorem rows_are_live_handles_granted : let s := systemStep.exec (.new .autoApprove .default .super) petitioning
    s.view.handle 1 4 = some 1 ∧ (∃ e, s.grants.entryOf 1 = some e ∧ s.view.identity 1 = some e.row.principalId) ∧
    ∀ w id, (systemStep.exec s [.teardown 1]).view.handle 1 w = some id →
      (systemStep.exec s [.teardown 1]).grants.entryOf id = none := by
  intro s
  have hn : s.view.handle 1 4 = some 1 := by decide
  have hl : s.view.torn 1 = false := by decide
  have ht : (systemStep.exec s [.teardown 1]).view.torn 1 = true := by decide
  obtain ⟨hr, -, how, -⟩ := rows_are_live_handles .autoApprove .default .super petitioning
  obtain ⟨-, -, -, hg⟩ := rows_are_live_handles .autoApprove .default .super (petitioning ++ [.teardown 1])
  obtain ⟨e, he⟩ := (hr 1).mpr ⟨1, 4, hn, hl⟩
  exact ⟨hn, ⟨e, he, how 1 4 1 e hn hl he⟩, (hg 1 ht []).1⟩

end Vitrin
