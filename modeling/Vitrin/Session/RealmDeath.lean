import Vitrin.Realm.Lifecycle
import Vitrin.Session.Terminals

/-!
# Designations and the death of their realm

A designation is addressed to a realm: the ticket says which, and so does the descriptor
that waits to be handed over. When the realm dies neither may stay, for a later process
under the same name must not be handed what the human chose for this one.

`deathStep` puts a realm's observers (`Realm/Lifecycle`) beside the session. The end of the
connection is dispatched only while the core holds the connection, and runs `closeRealm`.
An exit that a child signal announces runs the latched teardown alone, and so does the
core's shutdown; both give the connection up.

Over every order of the observers the two tables are what they were, but for what is
addressed to the realm if the first observer was the connection (`deathStep_tables`). So
other realms' designations are never touched, and the dead realm's are let go of on that one
path only (`realm_death_forgets`, `reaped_realm_keeps_designations`).
-/

namespace Vitrin

open Lib

variable {H : Type}

structure RealmSession (H : Type) where
  session : Session
  realm : RealmRun H

def LifeOp.throughConnection : LifeOp → Bool
  | .eof .. | .fault .. => true
  | _ => false

/-- An observer of a realm's death in the session; what the client's sockets accept comes with it. -/
def deathStep : Machine (RealmSession H) (LifeOp × (DesignationId → Bool)) (List Terminal) := fun x a =>
  let realm := (lifeStep x.realm a.1).1
  let id := x.realm.life.realmId
  match a.1 with
  | .eof .. | .fault .. =>
    -- A connection that was given up has no events.
    if x.realm.life.hangup then
      let closed := x.session.closeRealm id a.2
      (⟨closed.1, realm⟩, closed.2)
    else (x, [])
  | .poll _ => (⟨if realm.life.death.isSome then x.session.reapRealm id else x.session, realm⟩, [])
  | .shutdown _ => (⟨{ x.session with realms := .empty }, realm⟩, [])
  | .commit .. => (⟨x.session, realm⟩, [])

namespace Session

/-- A ticket or a descriptor is addressed to the realm. -/
def Names (s : Session) (realm : RealmId) : Prop :=
  (∃ id t, s.ledger.tickets.get? id = some t ∧ t.realm = realm) ∨
  ∃ id e, s.deliveries.held.get? id = some e ∧ e.realm = realm

/-- From one session to another the tables are the same, or all that was addressed to the realm is gone from them. -/
structure Lets (s s' : Session) (realm : RealmId) (gone : Bool) : Prop where
  tickets : s'.ledger.tickets = if gone then s.ledger.tickets.filter fun _ t => t.realm ≠ realm else s.ledger.tickets
  held : s'.deliveries.held = if gone then s.deliveries.held.filter fun _ e => e.realm ≠ realm else s.deliveries.held

theorem Lets.refl (s : Session) (r : RealmId) : s.Lets s r false := ⟨rfl, rfl⟩

theorem Lets.trans {s s' s'' : Session} {r : RealmId} {g g' : Bool} (h : s.Lets s' r g)
    (h' : s'.Lets s'' r g') (hon : g = false ∨ g' = false) : s.Lets s'' r (g || g') := by
  obtain ⟨ht, hh⟩ := h
  obtain ⟨ht', hh'⟩ := h'
  obtain rfl | rfl := hon <;> exact ⟨by simpa [ht] using ht', by simpa [hh] using hh'⟩

theorem Lets.others {s s' : Session} {r : RealmId} {g : Bool} (h : s.Lets s' r g) :
    (∀ id t, t.realm ≠ r → (s'.ledger.tickets.get? id = some t ↔ s.ledger.tickets.get? id = some t)) ∧
    ∀ id e, e.realm ≠ r → (s'.deliveries.held.get? id = some e ↔ s.deliveries.held.get? id = some e) := by
  constructor
  · intro id t ht
    rw [h.tickets]
    cases g <;> simp [OrdMap.get?_filter_eq_some, ht]
  · intro id e he
    rw [h.held]
    cases g <;> simp [OrdMap.get?_filter_eq_some, he]

theorem Lets.names_iff {s s' : Session} {r : RealmId} {g : Bool} (h : s.Lets s' r g) :
    s'.Names r ↔ s.Names r ∧ g = false := by
  cases g with
  | false => simp [Names, h.tickets, h.held]
  | true =>
    simp only [Names, h.tickets, h.held, if_true, OrdMap.get?_filter_eq_some, Bool.true_eq_false, and_false, iff_false]
    rintro (⟨id, t, ⟨-, hk⟩, ht⟩ | ⟨id, e, ⟨-, hk⟩, he⟩)
    · exact of_decide_eq_true hk ht
    · exact of_decide_eq_true hk he

end Session

/-! ### A step -/

section Step

variable {x : RealmSession H} {a : LifeOp × (DesignationId → Bool)}

/-- A realm keeps its name and stays sound, and is dead afterwards if it was or the observer fires. -/
theorem deathStep_realm (hs : x.realm.Sound) (a : LifeOp × (DesignationId → Bool)) :
    (deathStep x a).1.realm.life.realmId = x.realm.life.realmId ∧ (deathStep x a).1.realm.Sound ∧
      (deathStep x a).1.realm.life.death.isSome = (x.realm.life.death.isSome || a.1.Fires) := by
  have ha := lifeStep_advances x.realm a.1
  have hst : (lifeStep x.realm a.1).1.life.death.isSome = (x.realm.life.death.isSome || a.1.Fires) := by
    cases hf : a.1.Fires with
    | true => rw [lifeStep_dead hs hf, Bool.or_true]
    | false => rw [lifeStep_quiet hf, Bool.or_false]
  have hal := And.intro ha.subject.1 (And.intro (ha.sound hs) hst)
  -- Without the connection the realm is dead, so an event of it would change nothing.
  have hg (hangup : ¬ x.realm.life.hangup = true) : x.realm.life.death.isSome = true := by
    rw [Option.isSome_iff_ne_none]
    intro hali
    exact hangup (hs.alive hali).2
  obtain ⟨op, ac⟩ := a
  cases op with
  | eof wait sent | fault wait sent =>
    simp only [deathStep]
    split
    · exact hal
    · exact ⟨rfl, hs, by simp [hg ‹_›]⟩
  | poll | shutdown | commit => exact hal

/-- The tables lose something only to the connection of a realm that lives. -/
theorem deathStep_lets (hs : x.realm.Sound) (a : LifeOp × (DesignationId → Bool)) :
    x.session.Lets (deathStep x a).1.session x.realm.life.realmId
      (x.realm.life.death.isNone && a.1.throughConnection) := by
  have hh : x.realm.life.hangup = x.realm.life.death.isNone := by
    cases hd : x.realm.life.death with
    | none => exact (hs.alive hd).2
    | some c => exact (hs.dead (by rw [hd]; rfl)).hangup
  obtain ⟨op, ac⟩ := a
  cases op with
  | eof w sent | fault w sent =>
    simp only [deathStep, hh]
    cases x.realm.life.death.isNone <;> exact ⟨rfl, rfl⟩
  | poll w =>
    simp only [deathStep, LifeOp.throughConnection, Bool.and_false]
    split <;> exact ⟨rfl, rfl⟩
  | shutdown | commit => simpa only [LifeOp.throughConnection, Bool.and_false] using ⟨rfl, rfl⟩

end Step

/-! ### Runs -/

def firstObserver (ops : List (LifeOp × (DesignationId → Bool))) : Option LifeOp :=
  (ops.map (·.1)).find? LifeOp.Fires

variable {p : List (LifeOp × (DesignationId → Bool))}

theorem firstObserver_concat {a : LifeOp × (DesignationId → Bool)} :
    firstObserver (p ++ [a]) = (firstObserver p).or (if a.1.Fires then some a.1 else none) := by
  simp [firstObserver]

/-- After these observers the realm is the one it was and is dead if one fired, and the tables lost what is addressed to
it if the first that fired was the connection. -/
structure Buried (s : Session) (realm : RealmId) (past : List (LifeOp × (DesignationId → Bool))) (x : RealmSession H) :
    Prop where
  subject : x.realm.life.realmId = realm
  sound : x.realm.Sound
  dead : x.realm.life.death.isSome = (firstObserver past).isSome
  lets : s.Lets x.session realm ((firstObserver past).any LifeOp.throughConnection)

theorem Buried.step {s : Session} {r : RealmId} {x : RealmSession H} (h : Buried s r p x)
    (a : LifeOp × (DesignationId → Bool)) : Buried s r (p ++ [a]) (deathStep x a).1 := by
  obtain ⟨hs, hso, hde⟩ := deathStep_realm h.sound a
  have hl := deathStep_lets h.sound a
  rw [h.subject] at hs hl
  refine ⟨hs, hso, ?_, ?_⟩
  · rw [hde, h.dead, firstObserver_concat]
    cases firstObserver p <;> cases a.1.Fires <;> rfl
  · have hd : x.realm.life.death.isNone = (firstObserver p).isNone := by
      rw [← Option.not_isSome, ← Option.not_isSome, h.dead]
    have ha := h.lets.trans hl (by
      rw [hd]
      cases firstObserver p with
      | none => exact .inl rfl
      | some op => exact .inr rfl)
    rw [firstObserver_concat]
    rw [hd] at ha
    cases hf : firstObserver p with
    | some op => simpa [hf] using ha
    | none =>
      cases hfi : a.1.Fires with
      | true => simpa [hf] using ha
      | false =>
        have ht : a.1.throughConnection = false := by
          cases hop : a.1 <;> simp_all [LifeOp.Fires, LifeOp.throughConnection]
        simpa [hf, ht] using ha

/-- What the observers of a realm's death leave of the two tables, in whatever order they come. -/
theorem deathStep_tables (s : Session) (r : RealmId) (pi : Nat) (t : RealmTeardown H)
    (ops : List (LifeOp × (DesignationId → Bool))) :
    s.Lets (deathStep.exec ⟨s, ⟨.adopt r pi, t⟩⟩ ops).session r
      ((firstObserver ops).any LifeOp.throughConnection) := by
  have hb := Machine.exec_past (M := deathStep) (P := Buried s r)
    (s := (⟨s, ⟨.adopt r pi, t⟩⟩ : RealmSession H)) ⟨rfl, adopt_sound r pi t, rfl, .refl s r⟩
    (fun p a h => h.step a) ops
  exact hb.lets

/-- **Which designations a realm's death forgets.** In every session, and whatever the observers of the realm's death
and their order: a ticket or a descriptor is addressed to the realm afterwards exactly when one was and the connection
was not the first to be noticed, and what is addressed to other realms is unchanged. -/
theorem realm_death_forgets (s : Session) (realm : RealmId) (pid : Nat) (t : RealmTeardown H)
    (ops : List (LifeOp × (DesignationId → Bool))) :
    let after := (deathStep.exec ⟨s, ⟨.adopt realm pid, t⟩⟩ ops).session
    (after.Names realm ↔ s.Names realm ∧ (firstObserver ops).any LifeOp.throughConnection = false) ∧
    (∀ id t, t.realm ≠ realm → (after.ledger.tickets.get? id = some t ↔ s.ledger.tickets.get? id = some t)) ∧
    ∀ id e, e.realm ≠ realm → (after.deliveries.held.get? id = some e ↔ s.deliveries.held.get? id = some e) := by
  intro after
  have hl : s.Lets after realm _ := deathStep_tables s realm pid t ops
  exact ⟨hl.names_iff, hl.others⟩

namespace Sample

/-- The sample realm's shim, and nothing else it left. -/
def spawned : RealmRun Unit := ⟨.adopt realm 100, ⟨.new, .new (), ⟨none, none, 0⟩, .empty, realms, []⟩⟩

/-- The process is found to have exited before its connection is seen to end. -/
def reapedFirst : List (LifeOp × (DesignationId → Bool)) :=
  [(.poll (.exited (.exited 1)), fun _ => true), (.eof .running true, fun _ => true)]

def takenDown : List (LifeOp × (DesignationId → Bool)) :=
  [(.shutdown ⟨[], true, [], true, some (.signaled 9)⟩, fun _ => true)]

end Sample

open Sample in
/-- The sample agent's ask is open when its realm's connection ends: it is let go of. -/
theorem realm_death_forgets_closed :
    let asked := (sessionStep painter).exec session (prepared ++ [sends requestFile])
    asked.ledger.isOpen 1 = true ∧
    ¬ (deathStep.exec ⟨asked, spawned⟩ [(.eof .running true, fun _ => true)]).session.Names realm := by
  intro asked
  obtain ⟨hn, -⟩ := realm_death_forgets asked realm 100 spawned.teardown [(.eof .running true, fun _ => true)]
  refine ⟨by decide, ?_⟩
  intro ha
  exact absurd (hn.1 ha).2 (by decide)

open Sample in
/-- The sample agent's ask is open, or the file chosen for it waits to be handed over, when its realm's process is
reaped or the realm is taken down: it stays, and the end of the connection is not seen any more. -/
theorem reaped_realm_keeps_designations :
    let M := sessionStep painter
    let ask := M.exec session (prepared ++ [sends requestFile])
    let o := M.exec session (prepared ++ sends requestFile :: chosen)
    ∀ ops ∈ [reapedFirst, takenDown],
      ((deathStep.exec ⟨ask, spawned⟩ ops).session.ledger.tickets.get? 1).map (·.realm) = some realm ∧
      ((deathStep.exec ⟨o, spawned⟩ ops).session.deliveries.held.get? 1).map (·.realm) = some realm := by
  intro M ask o ops hops
  have hf : (firstObserver ops).any LifeOp.throughConnection = false := by
    revert ops
    decide
  have ha := (deathStep_tables ask realm 100 spawned.teardown ops).tickets
  have hop := (deathStep_tables o realm 100 spawned.teardown ops).held
  rw [hf] at ha hop
  simp only [spawned] at ha hop ⊢
  rw [ha, hop]
  decide

end Vitrin
