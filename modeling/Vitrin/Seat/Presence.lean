import Vitrin.Seat.Pairing

/-!
# The human's present hand

An agent is refused a realm while the human's hand is on it. What the core knows of that
hand is the presence map the router feeds: the buttons that are down in a realm and when
the human was last seen there. Here is what a run of the seat does to it.

`seatStep` is the router taking a call, with the two acts of the session that are not
calls of the router's: the physical seat is suspended, which drains the presses of the
bound realm (`suspendPhysicalSeat`), and it is resumed.

`Hand` is what presence rests on: the realm that is bound and the map. Every act does to
it what `Hand.after` says, whatever the hook thinks of the event (`seatStep_hand`), so
that the results are about runs of `Hand` alone.

An act that binds the human's input elsewhere and one that forgets a realm leave nothing
of what the human did there (`presence_of_present_hand`). A suspension does so only if the
realm was not the human's at that moment, for it drains the presses and keeps the entry.
-/

namespace Vitrin

open Lib InputRouter

/-! ### The acts -/

/-- The seat is taken away: what the human holds in the bound realm is let go of. -/
def suspendPhysicalSeat {H : Type} (r : InputRouter H) : InputRouter H × List SeatDelivery :=
  match r.bound with
  | none => (r, [])
  | some bound =>
    let keys := r.releasePhysicalKeys bound
    let buttons := keys.1.releasePhysicalButtons bound
    let gesture := buttons.1.endPhysicalGesture bound
    (gesture.1, keys.2 ++ buttons.2 ++ gesture.2)

/-- What happens at the seat. A resumption restarts the guard of a consent card and is nothing to the router. -/
inductive SeatOp where
  | router (op : RouterOp)
  | suspend (now : Instant)
  | resume (now : Instant)

namespace SeatOp

def clock : SeatOp → Option Instant
  | .router (.routePhysical _ _ _ now) | .router (.routeEmulated _ _ _ _ now) | .suspend now | .resume now => some now
  | .router _ => none

def isEmulated : SeatOp → Bool
  | .router (.routeEmulated _ _ _ _ _) => true
  | _ => false

/-- Something pressed, let go of or moved, by anyone. -/
def isEvent : SeatOp → Bool
  | .router (.routePhysical _ _ _ _) | .router (.routeEmulated _ _ _ _ _) => true
  | _ => false

/-- The act takes the human's input away from the realm. -/
def TakesFrom (bound : Option RealmId) (realm : RealmId) : SeatOp → Prop
  | .router (.bindTo winning) => bound = some realm ∧ winning ≠ realm
  | .router (.resetFor gone _) => gone = realm
  | .suspend _ => bound = some realm
  | _ => False

end SeatOp

/-- The router over one act at the seat; what a suspension delivers. -/
def seatStep {H : Type} (hook : PreemptionHook H) : Machine (InputRouter H) SeatOp (List SeatDelivery)
  | r, .router op => (op.run hook r, [])
  | r, .suspend _ => suspendPhysicalSeat r
  | r, .resume _ => (r, [])

/-! ### What presence rests on -/

/-- The realm that is bound, and the human's hand realm by realm. -/
structure Hand where
  bound : Option RealmId
  presence : PhysicalPresenceMap

/-- The human's hand on one realm. -/
def PhysicalPresenceMap.on (m : PhysicalPresenceMap) (realm : RealmId) : PhysicalPresence :=
  (m.perRealm.get? realm).getD .new

namespace Hand

def after (h : Hand) : SeatOp → Hand
  | .router (.routePhysical kind _ _ now) => { h with presence := h.presence.note h.bound .physical kind now }
  | .router (.bindTo realm) =>
    if h.bound = some realm then h
    else ⟨some realm, h.bound.elim h.presence h.presence.forget⟩
  | .router (.resetFor realm _) =>
    ⟨if h.bound = some realm then none else h.bound, h.presence.forget realm⟩
  | _ => h

def step : Machine Hand SeatOp Unit := fun h op => (h.after op, ())

end Hand

def InputRouter.hand {H : Type} (r : InputRouter H) : Hand := ⟨r.bound, r.presence⟩

section Router

variable {H : Type} (hook : PreemptionHook H) (r : InputRouter H)

theorem InputRouter.hand_record (re : Option RealmId) (f : Bool) (i : SeatInput) : (r.record re f i).hand = r.hand := by
  unfold record
  split <;> rfl

/-- An event is noted before the hook judges it, and its delivery leaves the hand alone. -/
theorem InputRouter.hand_routeInto (re : Option RealmId) (i : SeatInput) (t : SeatTarget) (l : Bool) (now : Instant) :
    (r.routeInto hook re i t l now).1.hand =
      ⟨r.bound, r.presence.note re i.origin i.kind now⟩ := by
  simp only [routeInto]
  generalize (decide (i.origin = .physical) && _ && re.isSome && l) = frozen
  have ht : ((r.record re frozen i).tap hook re i now).1.hand =
      ⟨r.bound, r.presence.note re i.origin i.kind now⟩ := by
    have hr : (r.record re frozen i).hand = r.hand := r.hand_record re frozen i
    have hb : (r.record re frozen i).bound = r.bound := congrArg Hand.bound hr
    have hp : (r.record re frozen i).presence = r.presence := congrArg Hand.presence hr
    simp [tap, hand, hb, hp]
  generalize (r.record re frozen i).tap hook re i now = tapped at ht ⊢
  obtain ⟨r', g⟩ := tapped
  cases g <;> cases re
  case consume.some re =>
    dsimp only
    split
    · exact ht
    · exact ht
  all_goals exact ht

theorem InputRouter.hand_drain (re : RealmId) (f : RealmSeat → RealmSeat × List SeatDelivery) :
    (r.drain re f).1.hand = r.hand := by
  unfold drain
  split <;> rfl

theorem InputRouter.hand_drains (re : RealmId) :
    (((r.releasePhysicalKeys re).1.releasePhysicalButtons re).1.endPhysicalGesture re).1.hand = r.hand := by
  rw [endPhysicalGesture, hand_drain, releasePhysicalButtons, hand_drain, releasePhysicalKeys, hand_drain]

theorem InputRouter.hand_bindTo (re : RealmId) : (r.bindTo re).1.hand = r.hand.after (.router (.bindTo re)) := by
  obtain ⟨hook, pr, b, s⟩ := r
  by_cases hb : b = some re
  · rw [bindTo, if_pos hb]
    exact (if_pos hb).symm
  · cases b with
    | none => rfl
    | some l =>
      have hd := (⟨hook, pr, some re, s⟩ : InputRouter H).hand_drains l
      rw [bindTo, if_neg hb]
      refine Eq.trans ?_ (if_neg hb).symm
      exact congrArg (fun h : Hand => (⟨h.bound, h.presence.forget l⟩ : Hand)) hd

theorem hand_suspendPhysicalSeat : (suspendPhysicalSeat r).1.hand = r.hand := by
  unfold suspendPhysicalSeat
  cases r.bound with
  | none => rfl
  | some b => exact r.hand_drains b

/-- An act does to the hand what the hand alone determines: the hook and the seats have no part in it. -/
theorem seatStep_hand {op : SeatOp} : (seatStep hook r op).1.hand = r.hand.after op := by
  cases op with
  | suspend now => exact hand_suspendPhysicalSeat r
  | resume now => rfl
  | router op =>
    cases op with
    | routePhysical k t l now => exact r.hand_routeInto hook r.bound ⟨.physical, k⟩ t l now
    | routeEmulated re k t l now => exact (r.hand_routeInto hook (some re) (.emulated k) t l now).trans rfl
    | bindTo re => exact r.hand_bindTo re
    | releasePhysicalKeys re | releasePhysicalButtons re | endPhysicalGesture re => exact r.hand_drain re _
    | resetFor re ha => rfl

theorem seatStep_exec_hand (ops : List SeatOp) : ((seatStep hook).exec r ops).hand = Hand.step.exec r.hand ops := by
  induction ops generalizing r with
  | nil => rfl
  | cons op ops ih =>
    rw [Machine.exec_cons, Machine.exec_cons, ih, seatStep_hand]
    rfl

end Router

/-! ### One realm's hand -/

namespace PhysicalPresenceMap

variable (m : PhysicalPresenceMap)

theorem ownsTarget_some (re : RealmId) (now : Instant) : m.ownsTarget (some re) now = (m.on re).ownsTarget now := by
  rw [ownsTarget, on, Option.bind_some]
  cases m.perRealm.get? re <;> rfl

theorem on_note (re a : RealmId) (k : SeatInputKind) (now : Instant) :
    (m.note (some a) .physical k now).on re =
      if re = a then (m.on re).note .physical k now else m.on re := by
  simp only [note, on, ne_eq, not_true_eq_false, if_false, OrdMap.get?_insert]
  split_ifs with h
  · rw [h]
    rfl
  · rfl

theorem on_forget (re g : RealmId) : (m.forget g).on re = if re = g then .new else m.on re := by
  simp only [forget, on, OrdMap.get?_erase]
  split_ifs <;> rfl

end PhysicalPresenceMap

variable {now : Instant}

namespace PhysicalPresence

/-- Nothing of the hand is left at `now`: the realm is not the human's, and no button is down without a time. -/
def Spent (p : PhysicalPresence) (now : Instant) : Prop :=
  p.ownsTarget now = false ∧ (p.lastActivity = none → p.heldButtons = [])

variable {p : PhysicalPresence}

/-- What keeps a realm the human's: a button that is down for at most the ceiling, or a touch within the window. -/
theorem ownsTarget_eq_false :
    p.ownsTarget now = false ↔ ∀ t, p.lastActivity = some t →
      physicalHoldWindow ≤ now - t ∧ (p.heldButtons = [] ∨ physicalHoldCeiling ≤ now - t) := by
  obtain ⟨held, l⟩ := p
  cases l with
  | none => simp [ownsTarget]
  | some t =>
    simp only [ownsTarget, Option.any_some, Bool.or_eq_false_iff, Bool.and_eq_false_iff, decide_eq_false_iff_not,
      not_lt, Bool.not_eq_false', List.isEmpty_iff, Option.some.injEq, forall_eq']
    exact and_comm

theorem Spent.mono {l : Instant} (h : p.Spent now) (hl : now ≤ l) : p.Spent l := by
  refine ⟨ownsTarget_eq_false.mpr fun t ht => ?_, h.2⟩
  obtain ⟨hw, hh⟩ := ownsTarget_eq_false.mp h.1 t ht
  have hs : now - t ≤ l - t := Nat.sub_le_sub_right hl t
  exact ⟨hw.trans hs, hh.imp_right fun hc => hc.trans hs⟩

theorem spent_new (now : Instant) : PhysicalPresence.new.Spent now := ⟨rfl, fun _ => rfl⟩

/-- The first event after a hand is spent finds nothing of it: it is recorded as on a realm never touched. -/
theorem Spent.note (h : p.Spent now) (k : SeatInputKind) :
    p.note .physical k now = PhysicalPresence.new.note .physical k now := by
  have hh : (if p.lastActivity.any fun t => physicalHoldCeiling ≤ now - t then [] else p.heldButtons) = [] := by
    split_ifs with hc
    · rfl
    · cases hl : p.lastActivity with
      | none => exact h.2 hl
      | some t =>
        rw [hl, Option.any_some, decide_eq_true_iff] at hc
        exact (ownsTarget_eq_false.mp h.1 t hl).2.resolve_right hc
  simp only [PhysicalPresence.note, hh]
  rfl

end PhysicalPresence

/-! ### Runs of the hand -/

open Hand (after)

namespace Hand

/-- Only the bound realm has an entry, and an entry has a time. -/
structure Present (h : Hand) : Prop where
  only : ∀ realm, (h.presence.perRealm.get? realm).isSome → h.bound = some realm
  timed : ∀ realm, (h.presence.on realm).lastActivity = none → (h.presence.on realm).heldButtons = []

theorem present_new : Present ⟨none, .new⟩ where
  only _ h := by cases h
  timed _ _ := rfl

variable {m : PhysicalPresenceMap}

theorem isSome_forget {re g : RealmId} (h : ((m.forget g).perRealm.get? re).isSome) :
    re ≠ g ∧ (m.perRealm.get? re).isSome := by
  simp only [PhysicalPresenceMap.forget, OrdMap.get?_erase] at h
  split_ifs at h with hg
  · cases h
  · exact ⟨hg, h⟩

theorem timed_forget {g : RealmId} (h : ∀ re, (m.on re).lastActivity = none → (m.on re).heldButtons = [])
    (re : RealmId) :
    ((m.forget g).on re).lastActivity = none → ((m.forget g).on re).heldButtons = [] := by
  rw [m.on_forget]
  split_ifs
  · exact fun _ => rfl
  · exact h re

variable {h : Hand}

theorem Present.after (hp : h.Present) (op : SeatOp) : (h.after op).Present := by
  obtain ⟨b, pr⟩ := h
  cases op with
  | suspend | resume => exact hp
  | router op =>
    cases op with
    | routePhysical k t l now =>
      cases b with
      | none => exact hp
      | some a =>
        refine ⟨fun re hs => ?_, fun re => ?_⟩
        · simp only [after, PhysicalPresenceMap.note, ne_eq, not_true_eq_false, if_false,
            OrdMap.get?_insert] at hs
          split_ifs at hs with heq
          · exact congrArg some heq.symm
          · exact hp.only re hs
        · simp only [after, pr.on_note]
          split_ifs
          · exact fun hno => by cases hno
          · exact hp.timed re
    | bindTo re =>
      simp only [after]
      split_ifs with hb
      · exact hp
      · cases b with
        | none => exact ⟨fun o hs => absurd (hp.only o hs) (by simp), hp.timed⟩
        | some lo =>
          -- The only realm with an entry is the one that loses the human's input.
          refine ⟨fun o hs => ?_, timed_forget hp.timed⟩
          obtain ⟨hn, he⟩ := isSome_forget hs
          exact absurd (Option.some.inj (hp.only o he)).symm hn
    | resetFor re ha =>
      refine ⟨fun o hs => ?_, timed_forget hp.timed⟩
      obtain ⟨hn, he⟩ := isSome_forget hs
      have hb : b = some o := hp.only o he
      have hot : b ≠ some re := fun e => hn (Option.some.inj (hb.symm.trans e))
      exact (if_neg hot).trans hb
    | routeEmulated | releasePhysicalKeys | releasePhysicalButtons | endPhysicalGesture => exact hp

theorem Present.exec (hp : h.Present) (ops : List SeatOp) : (step.exec h ops).Present :=
  step.exec_inv (fun _ op hp => hp.after op) hp ops

/-- The hand is as the run without the acts left out leaves it, when each of those leaves the hand alone. -/
theorem exec_filter {p : SeatOp → Bool} (hi : ∀ (h : Hand) (op : SeatOp), p op = false → h.after op = h)
    (h : Hand) (ops : List SeatOp) : step.exec h ops = step.exec h (ops.filter p) :=
  (step.exec_erase (R := fun _ s t => s = t) (p := p)
    (fun s t op _ he hp => (hi s op hp).trans he) (fun s t op _ he _ => by subst he; exact ⟨rfl, rfl⟩)
    ops rfl).1

theorem bound_exec_filter (h h' : Hand) (hb : h.bound = h'.bound) (ops : List SeatOp) :
    (step.exec h ops).bound = (step.exec h' (ops.filter fun op => !op.isEvent)).bound := by
  refine (step.exec_erase (R := fun _ s t => s.bound = t.bound) (fun s t op _ he hp => ?_)
    (fun s t op _ he _ => ⟨?_, rfl⟩) ops hb).1
  · rcases op with op | now | now
    · cases op <;> first | exact he | cases hp
    · cases hp
    · cases hp
  · rcases op with op | now | now
    · cases op <;> simp only [step, after, he]
      split_ifs <;> simp_all
    · exact he
    · exact he

/-- Two hands that answer alike for a realm from `now` on: the realm's entries are the same, or both are spent. -/
structure Alike (realm : RealmId) (now : Instant) (h h' : Hand) : Prop where
  bound : h.bound = h'.bound
  hand : h.presence.on realm = h'.presence.on realm ∨
    (h.presence.on realm).Spent now ∧ (h'.presence.on realm).Spent now

variable {h' : Hand}

theorem Alike.after {re : RealmId} (ha : Alike re now h h') {op : SeatOp}
    (hc : ∀ t, op.clock = some t → now ≤ t) : Alike re now (h.after op) (h'.after op) := by
  obtain ⟨b, pr⟩ := h
  obtain ⟨b', p'⟩ := h'
  obtain ⟨rfl, hh⟩ := ha
  -- A realm that is forgotten in both has the same entry in both.
  have hf (g : RealmId) : (pr.forget g).on re = (p'.forget g).on re ∨
      ((pr.forget g).on re).Spent now ∧ ((p'.forget g).on re).Spent now := by
    rw [pr.on_forget, p'.on_forget]
    split_ifs
    · exact .inl rfl
    · exact hh
  cases op with
  | suspend | resume => exact ⟨rfl, hh⟩
  | router op =>
    cases op with
    | routePhysical k ta lo t =>
      cases b with
      | none => exact ⟨rfl, hh⟩
      | some a =>
        refine ⟨rfl, ?_⟩
        simp only [after, pr.on_note, p'.on_note]
        split_ifs
        · rcases hh with he | ⟨hs, hs'⟩
          · exact .inl (by rw [he])
          · have hl : now ≤ t := hc t rfl
            exact .inl (((hs.mono hl).note k).trans ((hs'.mono hl).note k).symm)
        · exact hh
    | bindTo w =>
      simp only [after]
      split_ifs
      · exact ⟨rfl, hh⟩
      · cases b with
        | none => exact ⟨rfl, hh⟩
        | some l => exact ⟨rfl, hf l⟩
    | resetFor g had => exact ⟨rfl, hf g⟩
    | routeEmulated | releasePhysicalKeys | releasePhysicalButtons | endPhysicalGesture => exact ⟨rfl, hh⟩

theorem Alike.exec {re : RealmId} (ha : Alike re now h h') {ops : List SeatOp}
    (hc : ∀ op ∈ ops, ∀ t, op.clock = some t → now ≤ t) : Alike re now (step.exec h ops) (step.exec h' ops) := by
  induction ops generalizing h h' with
  | nil => exact ha
  | cons op ops ih => exact ih (ha.after (hc op (.head _))) fun o' hm => hc o' (List.mem_cons_of_mem op hm)

theorem Alike.ownsTarget {re : RealmId} {l : Instant} (ha : Alike re now h h') (hl : now ≤ l) :
    h.presence.ownsTarget (some re) l = h'.presence.ownsTarget (some re) l := by
  rw [h.presence.ownsTarget_some, h'.presence.ownsTarget_some]
  rcases ha.hand with he | ⟨hs, hs'⟩
  · rw [he]
  · rw [(hs.mono hl).1, (hs'.mono hl).1]

theorem on_exec_filter (re : RealmId) (ops : List SeatOp) (hn : h.presence.on re = .new) :
    (step.exec h (ops.filter fun op => !op.isEvent)).presence.on re = .new := by
  refine step.exec_along (P := fun h => h.presence.on re = .new) (G := fun _ op => op.isEvent = false)
    (fun s op hop hs => ?_) hn ((step.along_iff _ _ _).mpr fun pa op res he => ?_)
  · rcases op with op | now | now
    · cases op with
      | routePhysical => cases hop
      | bindTo w =>
        simp only [step, after]
        split_ifs
        · exact hs
        · cases s.bound with
          | none => exact hs
          | some l =>
            rw [Option.elim_some, s.presence.on_forget]
            split_ifs
            · rfl
            · exact hs
      | resetFor g ha =>
        simp only [step, after, s.presence.on_forget]
        split_ifs
        · rfl
        · exact hs
      | _ => exact hs
    · exact hs
    · exact hs
  · have hm : op ∈ ops.filter fun op => !op.isEvent := he ▸ by simp
    simpa using (List.mem_filter.mp hm).2

end Hand

/-! ### The result -/

/-- When nothing of the human's hand outlives the act: always, but for a suspension, which must find the bound realm
not the human's. The acts that follow and the question are not earlier than the suspension. -/
def SeatOp.Parts (h : Hand) (rest : List SeatOp) (now : Instant) : SeatOp → Prop
  | .suspend t => h.presence.ownsTarget h.bound t = false ∧ t ≤ now ∧ ∀ op ∈ rest, ∀ u, op.clock = some u → t ≤ u
  | _ => True

namespace Hand

/-- The act leaves of the realm's hand what it would leave had nothing been pressed or moved before. -/
theorem alike_of_parts {ops res : List SeatOp} {a : SeatOp} {re : RealmId}
    (ht : a.TakesFrom (step.exec ⟨none, .new⟩ ops).bound re) (hp : a.Parts (step.exec ⟨none, .new⟩ ops) res now) :
    ∃ s, s ≤ now ∧ (∀ op ∈ res, ∀ t, op.clock = some t → s ≤ t) ∧ Alike re s ((step.exec ⟨none, .new⟩ ops).after a)
        ((step.exec ⟨none, .new⟩ (ops.filter fun op => !op.isEvent)).after a) := by
  have hb := bound_exec_filter ⟨none, .new⟩ ⟨none, .new⟩ rfl ops
  have hu := on_exec_filter re ops (h := ⟨none, .new⟩) rfl
  have hti := (present_new.exec ops).timed re
  generalize step.exec ⟨none, .new⟩ (ops.filter fun op => !op.isEvent) = h' at hb hu ⊢
  generalize step.exec ⟨none, .new⟩ ops = h at hb hti ht hp ⊢
  obtain ⟨b, pr⟩ := h
  obtain ⟨b', p'⟩ := h'
  cases hb
  rcases a with op | t | t
  · cases op with
    | bindTo w =>
      obtain ⟨rfl, hn⟩ := ht
      have hm : some re ≠ some w := fun e => hn (Option.some.inj e).symm
      refine ⟨0, Nat.zero_le now, fun _ _ t _ => Nat.zero_le t, ?_⟩
      simp only [after, if_neg hm]
      refine ⟨rfl, .inl ?_⟩
      rw [Option.elim_some, Option.elim_some, pr.on_forget, p'.on_forget, if_pos rfl, if_pos rfl]
    | resetFor g ha =>
      cases ht
      refine ⟨0, Nat.zero_le now, fun _ _ t _ => Nat.zero_le t, rfl, .inl ?_⟩
      simp [after, pr.on_forget, p'.on_forget]
    | _ => cases ht
  · -- The entry survives the suspension; it is spent by then, so that it answers like none.
    cases ht
    obtain ⟨how, hl, hc⟩ := hp
    rw [pr.ownsTarget_some] at how
    exact ⟨t, hl, hc, rfl, .inr ⟨⟨how, hti⟩, hu ▸ PhysicalPresence.spent_new t⟩⟩
  · cases ht

end Hand

/-- **Presence is of the present hand.** In every run of the seat only the bound realm has a presence entry, and no
answer depends on an agent's event. After an act that takes the human's input away from a realm the answers for it are
those of the run in which nothing was pressed or moved before: for a suspension of the seat, if the realm was not the
human's when it came. -/
theorem presence_of_present_hand {H : Type} (hook : PreemptionHook H) (start : H) (ops : List SeatOp) :
    let router (ops : List SeatOp) := (seatStep hook).exec (.new start) ops
    (∀ re, ((router ops).presence.perRealm.get? re).isSome → (router ops).bound = some re) ∧
    (∀ re now, (router ops).presence.ownsTarget re now =
      (router (ops.filter fun op => !op.isEmulated)).presence.ownsTarget re now) ∧
    ∀ pa a res re now, ops = pa ++ a :: res → a.TakesFrom (router pa).bound re →
      a.Parts (router pa).hand res now →
      (router ops).presence.ownsTarget (some re) now =
        (router (pa.filter (fun op => !op.isEvent) ++ a :: res)).presence.ownsTarget (some re) now := by
  intro router
  have hh (ops : List SeatOp) : (router ops).hand = Hand.step.exec ⟨none, .new⟩ ops :=
    seatStep_exec_hand hook (.new start) ops
  have hp (ops : List SeatOp) : (router ops).presence = (Hand.step.exec ⟨none, .new⟩ ops).presence :=
    congrArg Hand.presence (hh ops)
  refine ⟨fun re hs => ?_, fun re now => ?_, ?_⟩
  · have hpr := Hand.present_new.exec ops
    rw [← hh] at hpr
    exact hpr.only re hs
  · rw [hp, hp]
    refine congrArg (fun h : Hand => h.presence.ownsTarget re now) (Hand.exec_filter (fun h op hop => ?_) _ ops)
    rcases op with op | t | t
    · cases op <;> first | rfl | cases hop
    · rfl
    · rfl
  · rintro pa a res re now rfl ht hpa
    rw [show (router pa).bound = (router pa).hand.bound from rfl, hh] at ht
    rw [hh] at hpa
    obtain ⟨s, hl, hc, ha⟩ := Hand.alike_of_parts ht hpa
    rw [hp, hp, Machine.exec_append, Machine.exec_append]
    exact (ha.exec hc).ownsTarget hl

namespace Sample

/-- The human presses a button in the sample realm, the seat is suspended, and comes back. -/
def clicksAndLeaves : List SeatOp :=
  [.router (.bindTo realm), .router (human (.motion (.finite 50) (.finite 50))),
    .router (human (.button 272 .pressed)), .suspend (millis 100), .resume (secs 10)]

/-- The human is gone for more than a minute before the seat is suspended. -/
def leavesLate : List SeatOp :=
  [.router (.bindTo realm), .router (human (.button 272 .pressed)), .suspend (secs 61), .resume (secs 70)]

end Sample

open Sample in
/-- A suspension drains the button and keeps the hand: ten seconds later, with the seat back and nothing pressed, the
realm is still the human's on account of it. -/
theorem hand_outlives_suspension :
    let router (ops : List SeatOp) := (seatStep swallowing).exec (.new ()) ops
    SeatOp.TakesFrom (router (clicksAndLeaves.take 3)).bound realm (.suspend (millis 100)) ∧
    ((router (clicksAndLeaves.take 3)).seat realm).physical = [.button 272] ∧
    ((router clicksAndLeaves).seat realm).physical = [] ∧
    (router clicksAndLeaves).presence.ownsTarget (some realm) (secs 10) = true ∧
    (router (clicksAndLeaves.take 1 ++ clicksAndLeaves.drop 3)).presence.ownsTarget (some realm) (secs 10) = false :=
  ⟨rfl, by decide +kernel, by decide +kernel, by decide +kernel, by decide +kernel⟩

open Sample in
/-- A hand that is a minute old by the time of the suspension is nothing afterwards. -/
theorem presence_of_present_hand_late :
    ((seatStep swallowing).exec (.new ()) leavesLate).presence.ownsTarget (some realm) (secs 70) = false := by
  obtain ⟨-, -, h⟩ := presence_of_present_hand swallowing () leavesLate
  refine (h (leavesLate.take 2) (.suspend (secs 61)) [.resume (secs 70)] realm (secs 70) rfl rfl
    ⟨by decide +kernel, by decide, ?_⟩).trans (by decide +kernel)
  rintro op hop t ht
  cases List.mem_singleton.mp hop
  cases ht
  decide

end Vitrin
