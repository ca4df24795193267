import Vitrin.Core.Rows
import Vitrin.Session.Terminals

/-!
# Descriptors on their way

A chosen file is opened in the turn in which the human confirms, and handed over in
turns that come later: the agent's copy when its connection is woken, the realm's when
its shim's is. A socket that is full takes nothing even then; the frame is parked in the
connection's send queue, with the descriptor, and goes out when the socket can be
written. The grant is judged once, when the human confirms.

`Wires` is the session with the frames its sockets have not taken. A turn that writes
(`reply`, which is `send_or_queue`) puts its frame behind those parked for the same
receiver; of these the socket takes as many as the label says. So does a socket that
becomes writable (`flush_send_queue`). What is parked on a connection is dropped with it.
Only frames with a descriptor are followed. The output of a step is what left in it, and
a label carries the instant of its step.

A descriptor that is on its way, or leaves, was on its way before, or is that of a ticket
opened in this step (`wireStep_copies`, `wireStep_left`). When it leaves its row is live if
no step before took the row away or came after its lifetime (`descriptor_on_live_row`), and
need not be otherwise (`descriptor_on_dead_row`).
-/

namespace Vitrin

open Lib Session

/-! ### State -/

/-- Who a copy of a descriptor is written to. -/
inductive Receiver where
  | agent (conn : ConnectionId)
  | shim (realm : RealmId)
  deriving DecidableEq

structure Frame where
  receiver : Receiver
  copy : InFlight

/-- The session, and the frames its sockets have not taken, oldest first. -/
structure Wires where
  session : Session
  parked : List Frame

inductive WireOp where
  /-- A step of the session; if it writes, the receiver's socket takes this many of its frames. -/
  | session (op : SessionOp) (takes : Nat)
  /-- A socket can be written, and takes this many of its frames. -/
  | writable (receiver : Receiver) (takes : Nat)

/-- The frame a turn writes: the descriptor its connection is owed. -/
def SessionOp.writes (s : Session) : SessionOp → Option Frame
  | .agentWoken c true => (s.deliveries.owedByConnection c).map (⟨.agent c, ·⟩)
  | .realmWoken realm true => (s.deliveries.owedByRealm realm).map (⟨.shim realm, ·⟩)
  | _ => none

/-- The connection is gone once the step is over, with what is parked on it. -/
def SessionOp.drops (s' : Session) (op : SessionOp) : Receiver → Bool
  | .agent c => !s'.isLive c
  | .shim realm => match op with
    | .realmReaped r | .realmClosed r _ => r = realm
    | .shutdown => true
    | _ => false

/-- The first frames of a receiver leave: what stays, and what left. -/
def flush (receiver : Receiver) : Nat → List Frame → List Frame × List Frame
  | 0, frames => (frames, [])
  | _, [] => ([], [])
  | n + 1, f :: frames =>
    if f.receiver = receiver then ((flush receiver n frames).1, f :: (flush receiver n frames).2)
    else (f :: (flush receiver (n + 1) frames).1, (flush receiver (n + 1) frames).2)

namespace Wires

def new (policy : ConsentPolicy) (config : PetitionConfig) (chord : AttentionChord) (pickerRoot : Bool) : Wires :=
  ⟨.new policy config chord pickerRoot, []⟩

/-- The descriptors on their way: held for a turn, or parked for a socket. -/
def copies (w : Wires) : List InFlight := w.session.deliveries.held.entries.map (·.2) ++ w.parked.map (·.copy)

/-- What is parked and what leaves when a step of the session writes. -/
def write (w : Wires) (op : SessionOp) (takes : Nat) : List Frame × List Frame := match op.writes w.session with
  | some f => flush f.receiver takes (w.parked ++ [f])
  | none => (w.parked, [])

end Wires

def wireStep (paint : Painter) : Machine Wires (Instant × WireOp) (List Frame) := fun w a => match a.2 with
  | .session op takes =>
    let s' := (sessionStep paint w.session op).1
    (⟨s', (w.write op takes).1.filter fun f => !op.drops s' f.receiver⟩, (w.write op takes).2)
  | .writable receiver takes =>
    ({ w with parked := (flush receiver takes w.parked).1 }, (flush receiver takes w.parked).2)

theorem flush_perm (r : Receiver) (n : Nat) (fr : List Frame) : ((flush r n fr).1 ++ (flush r n fr).2).Perm fr := by
  fun_induction flush r n fr with
  | case1 | case2 => simp
  | case3 n f fr hf ih => exact List.perm_middle.trans (ih.cons f)
  | case4 n f fr hf ih => exact ih.cons f

/-! ### Where a descriptor comes from -/

/-- The descriptor as it was opened, owed to both receivers. -/
def InFlight.asOpened (e : InFlight) : InFlight := { e with agent := .owed, shim := .owed }

variable {e : InFlight}

namespace DeliveryTable

/-- What `d'` holds, `d` holds, but for who has had a copy. -/
def Within (d d' : DeliveryTable) : Prop :=
  ∀ id e, d'.held.get? id = some e → ∃ e₀, d.held.get? id = some e₀ ∧ e.asOpened = e₀.asOpened

section Within

variable {d d' d'' : DeliveryTable}

theorem Within.refl (d : DeliveryTable) : d.Within d := fun _ e h => ⟨e, h, rfl⟩

theorem Within.trans (h : d.Within d') (h' : d'.Within d'') : d.Within d'' := by
  intro id e he
  obtain ⟨e₁, he₁, heq₁⟩ := h' id e he
  obtain ⟨e₀, he₀, heq₀⟩ := h id e₁ he₁
  exact ⟨e₀, he₀, heq₁.trans heq₀⟩

theorem park_within {e₀ : InFlight} (h₀ : d.held.get? e.id = some e₀) (he : e.asOpened = e₀.asOpened) :
    d.Within (d.park e) := by
  intro id e' he'
  simp only [park, OrdMap.get?_insert] at he'
  split at he'
  · rename_i hi
    cases he'
    exact ⟨e₀, hi ▸ h₀, he⟩
  · exact ⟨e', he', rfl⟩

variable (d : DeliveryTable)

theorem takeAny_within (id : DesignationId) : d.Within (d.takeAny id).1 :=
  fun _ e h => ⟨e, (OrdMap.get?_erase_eq_some.mp h).2, rfl⟩

theorem takeSettled_within {d : DeliveryTable} {id : DesignationId} : d.Within (d.takeSettled id).1 := by
  unfold takeSettled
  split
  · split_ifs
    · exact d.takeAny_within id
    · exact .refl d
  · exact .refl d

theorem retire_within (k : InFlight → Bool) (wh : Abandoned) : d.Within (d.retire k wh).1 :=
  fun _ e h => ⟨e, ((get?_retire wh).mp h).1, rfl⟩

end Within

end DeliveryTable

variable {id : DesignationId} {now : Instant} {t : DesignationTicket}

theorem Ledger.redeem_ok {l : Ledger} {wo : Liveness} (h : (l.redeem id wo now).2 = .ok t) :
    l.tickets.get? id = some t ∧ wo.grantIsLive t.grant t.spentOnce = true := by
  cases hg : l.tickets.get? id with
  | none =>
    have ht : l.take id = ((l.take id).1, none) := Prod.ext rfl hg
    rw [redeem, ht] at h
    cases h
  | some t' =>
    have ht : l.take id = ((l.take id).1, some t') := Prod.ext rfl hg
    rw [redeem, ht] at h
    dsimp only at h
    split_ifs at h with hdu hd hr
    cases h
    exact ⟨rfl, by simpa using hd⟩

variable {s : Session}

/-- A row a ticket is redeemed against: it confers the verb, its lifetime has not ended, and it is active or
was spent by the ticket's own ask. -/
theorem Session.grantIsLive_iff {g : GrantId} {sp : Bool} :
    (s.world now).grantIsLive g sp = true ↔ ∃ e, s.system.grants.entryOf g = some e ∧
      e.row.verbs.contains .designateFile = true ∧ e.deadlinePassed now = false ∧
      (e.liveness = .active ∨ e.liveness = .spent ∧ sp = true) := by
  simp only [world, GrantTable.get]
  cases he : s.system.grants.entryOf g with
  | none => simp
  | some e =>
    simp only [Option.map_some, Entry.stateAt, Option.some.injEq, exists_eq_left']
    cases e.liveness <;> cases e.deadlinePassed now <;> simp

variable {paint : Painter}

namespace Session

/-- A confirmed ticket: it was filed, its row is live, and `e` is its file, just opened. -/
structure Redeems (s : Session) (now : Instant) (t : DesignationTicket) (e : InFlight) : Prop where
  filed : s.ledger.tickets.get? t.id = some t
  live : (s.world now).grantIsLive t.grant t.spentOnce = true
  opened : ∃ file, e = inFlight t file now

theorem settleDesignation_held (s : Session) (id : DesignationId) (c : Option (Option Opened)) (now : Instant)
    (ac : DesignationId → Bool) :
    (s.settleDesignation id c now ac).1.deliveries = s.deliveries ∨
      ∃ t e, s.Redeems now t e ∧ (s.settleDesignation id c now ac).1.deliveries = s.deliveries.park e := by
  unfold settleDesignation
  split
  · exact .inl rfl
  · exact .inl rfl
  · rename_i l t hr
    obtain ⟨hg, hl⟩ := Ledger.redeem_ok (congrArg Prod.snd hr)
    have hi := s.ledger.filed id t hg
    split
    · exact .inl rfl
    · dsimp only
      split_ifs
      · exact .inl rfl
      · exact .inl rfl
      · split
        · exact .inl rfl
        · exact .inr ⟨t, _, ⟨hi ▸ hg, hl, _, rfl⟩, rfl⟩

/-- What a round of the picker may have done by the time the session is `u`: redeemed tickets and dropped others, and
held the files of those it redeemed. -/
structure Picked (s : Session) (now : Instant) (u : Session) : Prop where
  system : u.system = s.system
  tickets : ∀ id t, u.ledger.tickets.get? id = some t → s.ledger.tickets.get? id = some t
  held : ∀ id e, u.deliveries.held.get? id = some e →
    s.deliveries.held.get? id = some e ∨ ∃ t, s.Redeems now t e

/-- The round has not touched the rows, so what it redeems now could be redeemed when it began. -/
theorem Picked.redeems {u : Session} (h : s.Picked now u) (hr : u.Redeems now t e) : s.Redeems now t e := by
  refine ⟨h.tickets t.id t hr.filed, ?_, hr.opened⟩
  have hl := hr.live
  rw [grantIsLive_iff] at hl ⊢
  rwa [h.system] at hl

theorem PickerRuns.picked {ac : DesignationId → Bool} {x : Session × List Terminal}
    (h : PickerRuns paint now ac s x) : s.Picked now x.1 := by
  refine Machine.Runs.inv (P := s.Picked now) h (fun u op ih => ?_) ⟨rfl, fun _ _ h => h, fun _ _ h => .inl h⟩
  cases op with
  | grab op =>
    refine ⟨?_, ih.tickets, ih.held⟩
    simp only [pickerStep, putConsent, consentStep_ofPicker paint _ op.2]
    exact ih.system
  | session p => exact ⟨ih.system, ih.tickets, ih.held⟩
  | refuse id wh =>
    obtain ⟨l, de, heq, hs⟩ := u.settleRefused_frame id wh ac
    refine ⟨by simp only [pickerStep, heq, ih.system], fun i t ht => ?_, fun i e he => ih.held i e ?_⟩
    · simp only [pickerStep, heq] at ht
      exact ih.tickets i t (hs i t ht)
    · simp only [pickerStep, settleRefused] at he
      split at he <;> exact he
  | settle id c =>
    obtain ⟨l, de, heq, hs⟩ := u.settleDesignation_frame id c now ac
    refine ⟨by simp only [pickerStep, heq, ih.system], fun i t ht => ?_, fun i e he => ?_⟩
    · simp only [pickerStep, heq] at ht
      exact ih.tickets i t (hs i t ht)
    · rcases u.settleDesignation_held id c now ac with hsa | ⟨t, e', hr, hp⟩
      · simp only [pickerStep, hsa] at he
        exact ih.held i e he
      · simp only [pickerStep, hp, DeliveryTable.park, OrdMap.get?_insert] at he
        split at he
        · cases he
          exact .inr ⟨t, ih.redeems hr⟩
        · exact ih.held i e he

end Session

namespace Session

variable (s : Session)

theorem closePrincipal_within (c : ConnectionId) : s.deliveries.Within (s.closePrincipal c).deliveries := by
  unfold closePrincipal
  split_ifs
  · exact s.deliveries.retire_within _ .connectionGone
  · exact .refl _

theorem deliverAgentCopy_within (c : ConnectionId) (ac : Bool) :
    s.deliveries.Within (s.deliverAgentCopy c ac).1.deliveries := by
  unfold deliverAgentCopy
  split
  · exact .refl _
  · rename_i e how
    have hs := DeliveryTable.park_within (e := { e with agent := .sent })
      (DeliveryTable.owedByConnection_eq_some how).1 rfl
    split_ifs
    · exact hs
    · exact hs.trans (DeliveryTable.takeAny_within _ _)
    · exact s.deliveries.takeAny_within _

theorem deliverRealmCopy_within (r : RealmId) (ac : Bool) :
    s.deliveries.Within (s.deliverRealmCopy r ac).deliveries := by
  unfold deliverRealmCopy
  split
  · exact .refl _
  · rename_i e how
    have hs := DeliveryTable.park_within (e := { e with shim := .sent })
      (DeliveryTable.owedByRealm_eq_some how).1 rfl
    split_ifs
    · exact hs.trans DeliveryTable.takeSettled_within
    · exact s.deliveries.takeAny_within _

end Session

variable {op : SessionOp}

/-- What a step of the session holds was held before, or is the file of a ticket that was just redeemed. -/
theorem sessionStep_held (h : (sessionStep paint s op).1.deliveries.held.get? id = some e) :
    (∃ e₀, s.deliveries.held.get? id = some e₀ ∧ e.asOpened = e₀.asOpened) ∨
      ∃ now r en t, op = .pickerRound now r en ∧ s.Redeems now t e := by
  cases op with
  | pickerRound now r en =>
    rcases (s.servicePickerRound_runs paint now r en).picked.held id e h with hh | ⟨t, hr⟩
    · exact .inl ⟨e, hh, rfl⟩
    · exact .inr ⟨now, r, en, t, rfl, hr⟩
  | message c ct m wi ac =>
    refine .inl ?_
    simp only [sessionStep, dispatchMessage] at h
    split at h
    · dsimp only at h
      split at h
      · exact (s.afterServed c ct m wi).closePrincipal_within c id e h
      · exact ⟨e, h, rfl⟩
    · exact ⟨e, h, rfl⟩
  | closed c => exact .inl (s.closePrincipal_within c id e h)
  | agentWoken c ac => exact .inl (s.deliverAgentCopy_within c ac id e h)
  | realmWoken re ac => exact .inl (s.deliverRealmCopy_within re ac id e h)
  | sweep now ac => exact .inl (s.deliveries.retire_within _ .noTurn id e h)
  | realmClosed re ac => exact .inl (s.deliveries.retire_within _ .realmDied id e h)
  | _ => exact .inl ⟨e, h, rfl⟩

/-- A ticket made while sinks are called is one's of the asks. -/
theorem Session.get?_openTickets {l : Ledger} {c : ConnectionId} {ca : List SinkCall}
    (h : (openTickets l c ca).1.tickets.get? id = some t) :
    l.tickets.get? id = some t ∨ ∃ ask, .designate ask ∈ ca ∧ t = Ledger.ticketFor id c ask := by
  fun_induction openTickets l c ca with
  | case1 l => exact .inl h
  | case2 l ask ca l' i' hop ih =>
    rcases ih h with hold | ⟨a', hm, rfl⟩
    · obtain ⟨rfl, ht, -⟩ := Ledger.openTicket_eq_ok hop
      rw [ht, OrdMap.get?_insert] at hold
      split at hold
      · rename_i hi
        cases hold
        exact .inr ⟨ask, .head _, by rw [hi]⟩
      · exact .inl hold
    · exact .inr ⟨a', .tail _ hm, rfl⟩
  | case3 l ask ca why hop ih | case4 l call ca hc ih =>
    rcases ih h with hold | ⟨a', hm, rfl⟩
    · exact .inl hold
    · exact .inr ⟨a', .tail _ hm, rfl⟩

/-- The ask of a ticket reaches the session in this step. -/
def Session.Files (s : Session) (t : DesignationTicket) (op : SessionOp) : Prop :=
  ∃ c ctx msg wire accepts ask, op = .message c ctx msg wire accepts ∧
    .designate ask ∈ (s.served c ctx msg wire).2.calls ∧ t = Ledger.ticketFor t.id c ask

/-- A ticket that is filed was filed before, or its ask was just admitted. -/
theorem sessionStep_tickets (h : (sessionStep paint s op).1.ledger.tickets.get? id = some t) :
    s.ledger.tickets.get? id = some t ∨ s.Files t op := by
  have hc : ∀ (u : Session) c, (u.closePrincipal c).ledger.tickets.get? id = some t →
      u.ledger.tickets.get? id = some t := fun u c => by
    unfold closePrincipal
    split_ifs
    · exact fun h => (Ledger.get?_retire.mp h).1
    · exact fun h => h
  cases op with
  | message c ct m wi ac =>
    have hs : ∀ h : (s.afterServed c ct m wi).ledger.tickets.get? id = some t,
        s.ledger.tickets.get? id = some t ∨ s.Files t (.message c ct m wi ac) := fun h => by
      simp only [afterServed, askLedger] at h
      split at h
      · rcases get?_openTickets h with hold | ⟨ask, hm, rfl⟩
        · exact .inl hold
        · exact .inr ⟨c, ct, m, wi, ac, ask, rfl, hm, rfl⟩
      · exact .inl h
    simp only [sessionStep, dispatchMessage] at h
    split at h
    · dsimp only at h
      split at h
      · exact hs (hc _ c h)
      · exact hs h
    · exact .inl h
  | closed c => exact .inl (hc s c h)
  | pickerRound now r en => exact .inl ((s.servicePickerRound_runs paint now r en).picked.tickets id t h)
  | locked | sweep | realmClosed => exact .inl (Ledger.get?_retire.mp h).1
  | agentWoken c ac =>
    refine .inl ?_
    simp only [sessionStep, deliverAgentCopy] at h
    split at h
    · exact h
    · split_ifs at h <;> exact h
  | realmWoken re ac =>
    refine .inl ?_
    simp only [sessionStep, deliverRealmCopy] at h
    split at h
    · exact h
    · split_ifs at h <;> exact h
  | _ => exact .inl h

/-! ### What a step of the session does to a row -/

theorem sessionStep_evolves (paint : Painter) (h : s.system.Inv) (op : SessionOp) :
    s.system.grants.Evolves (sessionStep paint s op).1.system.grants := by
  have hr := (sessionStep_system paint s op).inv (P := fun u => u.Inv ∧ s.system.grants.Evolves u.grants)
    (fun u op ih => ⟨systemStep_inv u op ih.1, ih.2.trans (systemStep_grants ih.1 op 0).1⟩) ⟨h, .refl _⟩
  exact hr.2

variable {id : GrantId}

namespace Session

def fatal (s : Session) (c : ConnectionId) (ctx : ServerCtx) (msg : Message) (wire : Wire) : Bool :=
  (s.served c ctx msg wire).2.result.any fun r => !r.isOk

/-- The step does not revoke or remove row `id`, nor mark it expired. -/
def Spares (s : Session) (id : GrantId) : SessionOp → Prop
  | .system op => s.system.Spares id op.1
  | .closed c => s.system.names c id = false
  | .message c ctx msg wire _ =>
    s.fatal c ctx msg wire = true → (s.afterServed c ctx msg wire).system.names c id = false
  | _ => True

instance (s : Session) (id : GrantId) : (op : SessionOp) → Decidable (s.Spares id op)
  | .system _ => inferInstanceAs (Decidable (PrincipalSystem.Spares _ _ _))
  | .closed _ => inferInstanceAs (Decidable (_ = _))
  | .message _ _ _ _ _ => inferInstanceAs (Decidable (_ → _))
  | .consent _ | .pickerRound _ _ _ | .locked _ | .sweep _ _ | .agentWoken _ _ | .realmWoken _ _ | .realmStarted _
  | .realmReaped _ | .realmClosed _ _ | .shutdown => .isTrue trivial

theorem closePrincipal_stays (h : s.system.Inv) {c : ConnectionId} (hn : s.system.names c id = false) :
    GrantTable.Stays id s.system.grants (s.closePrincipal c).system.grants := by
  unfold closePrincipal
  split_ifs
  · exact (systemStep_grants h (.teardown c) id).2 hn
  · exact .refl id _

end Session

/-- **A step of the session that spares a row leaves it standing.** -/
theorem sessionStep_stays (paint : Painter) (h : s.system.Inv) (hs : s.Spares id op) :
    GrantTable.Stays id s.system.grants (sessionStep paint s op).1.system.grants := by
  cases op with
  | system op => exact (systemStep_grants h op.1 id).2 hs
  | message c ct m wi ac =>
    have hse : GrantTable.Stays id s.system.grants (s.afterServed c ct m wi).system.grants :=
      (systemStep_grants h (.message c (s.serverCtx c ct) m wi) id).2 trivial
    simp only [sessionStep, dispatchMessage]
    split
    · dsimp only
      split
      · rename_i hf
        exact hse.trans (closePrincipal_stays (systemStep_inv s.system _ h) (hs hf))
      · exact hse
    · exact .refl id _
  | closed c => exact closePrincipal_stays h hs
  | pickerRound now r en =>
    have hsy : (sessionStep paint s (.pickerRound now r en)).1.system = s.system :=
      (s.servicePickerRound_runs paint now r en).system
    exact .of_eq (by rw [hsy])
  | agentWoken c ac =>
    simp only [sessionStep, deliverAgentCopy]
    split
    · exact .refl id _
    · split_ifs <;> exact .refl id _
  | realmWoken re ac =>
    simp only [sessionStep, deliverRealmCopy]
    split
    · exact .refl id _
    · split_ifs <;> exact .refl id _
  | _ => exact .refl id _

/-! ### The row of a ticket -/

namespace DesignationTicket

/-- The ticket says of its row, if that is still there, whether it is one-shot. -/
def Sound (t : DesignationTicket) (grants : GrantTable) : Prop :=
  t.grant < grants.nextId ∧ ∀ e, grants.entryOf t.grant = some e → t.spentOnce = decide (e.row.persistence = .once)

/-- The row of the ticket stands: it is active, or was spent by the ticket's own ask. -/
def Backed (t : DesignationTicket) (grants : GrantTable) : Prop :=
  ∃ e, grants.entryOf t.grant = some e ∧ e.row.verbs.contains .designateFile = true ∧
    t.spentOnce = decide (e.row.persistence = .once) ∧
    (e.liveness = .active ∨ e.liveness = .spent ∧ t.spentOnce = true)

theorem Sound.evolves {g g' : GrantTable} (h : t.Sound g) (hev : g.Evolves g') : t.Sound g' := by
  refine ⟨h.1.trans_le hev.nextId, fun e' he' => ?_⟩
  obtain ⟨e, he, hb⟩ := hev.old t.grant e' he' h.1
  rw [hb.row]
  exact h.2 e he

theorem Backed.stays {g g' : GrantTable} (h : t.Backed g) (hst : GrantTable.Stays t.grant g g') : t.Backed g' := by
  obtain ⟨e, he, hv, hon, hli⟩ := h
  obtain ⟨e', he', hs⟩ := hst e he
  refine ⟨e', he', hs.row ▸ hv, hs.row ▸ hon, ?_⟩
  rcases hs.liveness with hl | ⟨hp, -, hsp⟩
  · exact hl ▸ hli
  · exact .inr ⟨hsp, by rw [hon, hp]; rfl⟩

theorem Sound.backed (h : t.Sound s.system.grants) (hl : (s.world now).grantIsLive t.grant t.spentOnce = true) :
    t.Backed s.system.grants := by
  obtain ⟨e, he, hv, -, hs⟩ := grantIsLive_iff.mp hl
  exact ⟨e, he, hv, h.2 e he, hs⟩

/-- A backed ticket could be redeemed, while the lifetime of its row has not ended. -/
theorem Backed.live (h : t.Backed s.system.grants)
    (hu : (s.system.grants.entryOf t.grant).all fun e => !e.deadlinePassed now) :
    (s.world now).grantIsLive t.grant t.spentOnce = true := by
  obtain ⟨e, he, hv, -, hs⟩ := h
  refine grantIsLive_iff.mpr ⟨e, he, hv, ?_, hs⟩
  simpa [he] using hu

end DesignationTicket

/-! ### Over a run -/

def Asks (t : DesignationTicket) (w : Wires) (a : Instant × WireOp) : Prop :=
  ∃ c ctx msg wire accepts takes ask e, a.2 = .session (.message c ctx msg wire accepts) takes ∧
    .designate ask ∈ (w.session.served c ctx msg wire).2.calls ∧ t = Ledger.ticketFor t.id c ask ∧
    w.session.system.Admits (w.session.served c ctx msg wire).1 ctx.now ask e

/-- The ticket is redeemed in this step, and its file opened. -/
def Opens (t : DesignationTicket) (e : InFlight) (w : Wires) (a : Instant × WireOp) : Prop :=
  ∃ now reachable env takes, a.2 = .session (.pickerRound now reachable env) takes ∧
    w.session.Redeems now t e.asOpened

variable {w : Wires} {a : Instant × WireOp}

theorem Opens.grant (h : Opens t e w a) : e.grant = t.grant := by
  obtain ⟨now, r, en, ta, -, hr⟩ := h
  obtain ⟨fi, hf⟩ := hr.opened
  exact congrArg InFlight.grant hf

/-- The step does not revoke or remove row `id`, nor mark it expired. -/
def WireOp.Spares (s : Session) (id : GrantId) : WireOp → Prop
  | .session op _ => s.Spares id op
  | .writable _ _ => True

instance (s : Session) (id : GrantId) : (op : WireOp) → Decidable (op.Spares s id)
  | .session op _ => inferInstanceAs (Decidable (s.Spares id op))
  | .writable _ _ => .isTrue trivial

/-- The step takes away no row of a descriptor that is on its way when it begins, and comes before the lifetime of
such a row ends. -/
def Spared (w : Wires) (a : Instant × WireOp) : Prop :=
  ∀ e ∈ w.copies, a.2.Spares w.session e.grant ∧
    (w.session.system.grants.entryOf e.grant).all fun entry => !entry.deadlinePassed a.1

instance (w : Wires) (a : Instant × WireOp) : Decidable (Spared w a) :=
  inferInstanceAs (Decidable (∀ _ ∈ _, _ ∧ _))

theorem Wires.mem_copies :
    e ∈ w.copies ↔ (∃ id, w.session.deliveries.held.get? id = some e) ∨ ∃ f ∈ w.parked, f.copy = e := by
  simp [copies, ← OrdMap.mem_entries_iff]

variable {f : Frame}

theorem SessionOp.writes_held (h : op.writes s = some f) : s.deliveries.held.get? f.copy.id = some f.copy := by
  unfold writes at h
  split at h
  · obtain ⟨e, he, rfl⟩ := Option.map_eq_some_iff.mp h
    exact (DeliveryTable.owedByConnection_eq_some he).1
  · obtain ⟨e, he, rfl⟩ := Option.map_eq_some_iff.mp h
    exact (DeliveryTable.owedByRealm_eq_some he).1
  · cases h

theorem mem_of_mem_flush {r : Receiver} {n : Nat} {fr : List Frame}
    (h : f ∈ (flush r n fr).1 ∨ f ∈ (flush r n fr).2) : f ∈ fr :=
  (flush_perm r n fr).mem_iff.mp (List.mem_append.mpr h)

theorem Wires.write_copies {ta : Nat} (h : f ∈ (w.write op ta).1 ∨ f ∈ (w.write op ta).2) : f.copy ∈ w.copies := by
  unfold write at h
  split at h
  · rename_i f' hw
    rcases List.mem_append.mp (mem_of_mem_flush h) with hp | hn
    · exact mem_copies.mpr (.inr ⟨f, hp, rfl⟩)
    · obtain rfl := List.mem_singleton.mp hn
      exact mem_copies.mpr (.inl ⟨_, SessionOp.writes_held hw⟩)
  · rcases h with hp | hl
    · exact mem_copies.mpr (.inr ⟨f, hp, rfl⟩)
    · cases hl

theorem wireStep_left (h : f ∈ (wireStep paint w a).2) : f.copy ∈ w.copies := by
  obtain ⟨now, op⟩ := a
  cases op with
  | session op ta => exact Wires.write_copies (.inr h)
  | writable r ta => exact Wires.mem_copies.mpr (.inr ⟨f, mem_of_mem_flush (.inr h), rfl⟩)

theorem wireStep_copies (h : e ∈ (wireStep paint w a).1.copies) :
    (∃ e₀ ∈ w.copies, e.asOpened = e₀.asOpened) ∨ ∃ t, Opens t e w a := by
  obtain ⟨now, op⟩ := a
  cases op with
  | session op ta =>
    rcases Wires.mem_copies.mp h with ⟨id, hh⟩ | ⟨f, hp, rfl⟩
    · rcases sessionStep_held hh with ⟨e₀, he₀, he⟩ | ⟨n', r, en, t, rfl, hr⟩
      · exact .inl ⟨e₀, Wires.mem_copies.mpr (.inl ⟨id, he₀⟩), he⟩
      · obtain ⟨fi, rfl⟩ := hr.opened
        exact .inr ⟨t, n', r, en, ta, rfl, hr⟩
    · exact .inl ⟨f.copy, Wires.write_copies (.inl (List.mem_filter.mp hp).1), rfl⟩
  | writable re ta =>
    refine .inl ⟨e, ?_, rfl⟩
    rcases Wires.mem_copies.mp h with hh | ⟨f, hp, rfl⟩
    · exact Wires.mem_copies.mpr (.inl hh)
    · exact Wires.mem_copies.mpr (.inr ⟨f, mem_of_mem_flush (.inl hp), rfl⟩)

/-- What is known at the end of a run: every ticket was asked for under its row, and every descriptor on its way
is the file of such a ticket, whose row stands if the run spared it. -/
structure Accounted (paint : Painter) (start : Wires) (past : List (Instant × WireOp)) (w : Wires) : Prop where
  inv : w.session.system.Inv
  tickets : ∀ id t, w.session.ledger.tickets.get? id = some t →
    (wireStep paint).Took (Asks t) start past ∧ t.Sound w.session.system.grants
  copies : ∀ e ∈ w.copies, ∃ t, (wireStep paint).Took (Asks t) start past ∧
    (wireStep paint).Took (Opens t e) start past ∧
    ((wireStep paint).Along Spared start past → t.Backed w.session.system.grants)

theorem opens_congr {e₀ : InFlight} (h : e.asOpened = e₀.asOpened) (t : DesignationTicket) :
    Opens t e = Opens t e₀ := by
  funext w a
  simp [Opens, h]

theorem wireStep_inv (paint : Painter) (h : w.session.system.Inv) (a : Instant × WireOp) :
    (wireStep paint w a).1.session.system.Inv := by
  obtain ⟨now, op⟩ := a
  cases op with
  | session op ta => exact (sessionStep_system paint w.session op).inv systemStep_inv h
  | writable r ta => exact h

theorem wireStep_stays (paint : Painter) (h : w.session.system.Inv) (hs : a.2.Spares w.session id) :
    GrantTable.Stays id w.session.system.grants (wireStep paint w a).1.session.system.grants := by
  obtain ⟨now, op⟩ := a
  cases op with
  | session op ta => exact sessionStep_stays paint h hs
  | writable r ta => exact .refl id _

/-- A ticket that is filed after a step was filed before, or its ask was just admitted; it is sound. -/
theorem wireStep_tickets (h : w.session.system.Inv)
    (ht : (wireStep paint w a).1.session.ledger.tickets.get? id = some t)
    (hs : w.session.ledger.tickets.get? id = some t → t.Sound w.session.system.grants) :
    (w.session.ledger.tickets.get? id = some t ∨ Asks t w a) ∧
      t.Sound (wireStep paint w a).1.session.system.grants := by
  obtain ⟨now, op⟩ := a
  cases op with
  | session op ta =>
    have hev := sessionStep_evolves paint h op
    rcases sessionStep_tickets ht with hold | ⟨c, ct, m, wi, ac, ask, rfl, hc, he⟩
    · exact ⟨.inl hold, (hs hold).evolves hev⟩
    · obtain ⟨e, ha⟩ := admits_of_call h hc
      have hg : t.grant = ask.grant := congrArg DesignationTicket.grant he
      have hsp : t.spentOnce = ask.spentOnce := congrArg DesignationTicket.spentOnce he
      have hs : t.Sound w.session.system.grants := by
        refine ⟨hg ▸ GrantTable.lt_nextId ha.entry, fun e' he' => ?_⟩
        obtain rfl := Option.some.inj (ha.entry.symm.trans (hg ▸ he'))
        exact hsp.trans ha.spentOnce
      exact ⟨.inr ⟨c, ct, m, wi, ac, ta, ask, e, rfl, hc, he, ha⟩, hs.evolves hev⟩
  | writable r ta => exact ⟨.inl ht, hs ht⟩

theorem Accounted.step {st : Wires} {p : List (Instant × WireOp)}
    (h : Accounted paint st p ((wireStep paint).exec st p)) (a : Instant × WireOp) :
    Accounted paint st (p ++ [a]) (wireStep paint ((wireStep paint).exec st p) a).1 := by
  refine ⟨wireStep_inv paint h.inv a, fun id t ht => ?_, fun e he => ?_⟩
  · obtain ⟨hf, hs⟩ := wireStep_tickets h.inv ht fun hold => (h.tickets id t hold).2
    rcases hf with hold | ha
    · exact ⟨(h.tickets id t hold).1.concat a, hs⟩
    · exact ⟨Machine.took_last ha, hs⟩
  · rcases wireStep_copies he with ⟨e₀, he₀, heq⟩ | ⟨t, hop⟩
    · obtain ⟨t, ha, hop, hb⟩ := h.copies e₀ he₀
      refine ⟨t, ha.concat a, opens_congr heq t ▸ hop.concat a, fun hsp => ?_⟩
      obtain ⟨hp, hst, -⟩ := ((wireStep paint).along_append _ _ _ _).mp hsp
      obtain ⟨_, _, _, -, hope⟩ := hop
      exact (hb hp).stays (wireStep_stays paint h.inv (hope.grant ▸ (hst e₀ he₀).1))
    · -- opened in this step, by a round of the picker, which touches no row
      obtain ⟨now, r, en, ta, hro, hr⟩ := hop
      obtain ⟨ha, hs⟩ := h.tickets t.id t hr.filed
      refine ⟨t, ha.concat a, Machine.took_last ⟨now, r, en, ta, hro, hr⟩, fun _ => ?_⟩
      refine (hs.backed hr.live).stays (wireStep_stays paint h.inv ?_)
      rw [hro]
      exact trivial

/-- **Descriptors and the rows they are asked under.** In every run, of any steps of the session among sockets that
take what is written to them at once, later or in part: a descriptor that leaves for the agent or the realm is the
file of a ticket whose ask was admitted under a live row, and that was judged once more when the file was opened. If
no step up to that one revokes, removes or marks expired the row of a descriptor on its way, and each comes before the
lifetime of such a row ends, then at that instant the row is there and active, or spent by this very ask. -/
theorem descriptor_on_live_row (paint : Painter) (policy : ConsentPolicy) (config : PetitionConfig)
    (chord : AttentionChord) (pickerRoot : Bool) (ops : List (Instant × WireOp)) (now : Instant) (op : WireOp) :
    let M := wireStep paint
    let st := Wires.new policy config chord pickerRoot
    let w := M.exec st ops
    ∀ f ∈ (M w (now, op)).2, ∃ t, M.Took (Asks t) st ops ∧ M.Took (Opens t f.copy) st ops ∧
      (M.Along Spared st (ops ++ [(now, op)]) →
        (w.session.world now).grantIsLive f.copy.grant t.spentOnce = true) := by
  intro M st w f hf
  have hn : Accounted paint st [] st :=
    ⟨.new policy config chord, fun id t ht => by simp [st, Wires.new, new, Ledger.new] at ht,
      fun e he => absurd (he : e ∈ []) List.not_mem_nil⟩
  have hr : Accounted paint st ops w := Machine.exec_past hn (fun p a h => h.step a) ops
  obtain ⟨t, ha, hope, hb⟩ := hr.copies f.copy (wireStep_left hf)
  refine ⟨t, ha, hope, fun hs => ?_⟩
  obtain ⟨hp, hst, -⟩ := (M.along_append _ _ _ _).mp hs
  obtain ⟨_, _, _, -, hop⟩ := hope
  rw [hop.grant]
  exact (hb hp).live (hop.grant ▸ (hst f.copy (wireStep_left hf)).2)

namespace Sample

/-- A petition to ask for one file, within two and a half seconds. -/
def requestOnce : Message where
  objectId := 3
  opcode := 0
  decode
    | .requestGrant => .ok (⟨4, 5, 6, 7, 8, "", .designateFile, 2500, 0, .once, 0⟩ : RequestGrant)
    | _ => .error undecodable

/-- It is granted, the file is asked for and, at two seconds, chosen and opened. -/
def opened : List (Instant × WireOp) :=
  ([.realmStarted realm, joins, sends hello, sends getRealm, sends requestOnce, sends getPowerbox,
    sends requestFile] ++ chosen).map fun op => (secs 2, .session op 0)

/-- The agent's turn, at which its socket takes this many frames. -/
def agentTurn (takes : Nat) : WireOp := .session (.agentWoken 1 true) takes

def realmTurn (takes : Nat) : WireOp := .session (.realmWoken realm true) takes

/-- What leaves at a last step, and the state of the row it was asked under. -/
def departs (ops : List (Instant × WireOp)) (now : Instant) (op : WireOp) : List (Receiver × Nat × Option GrantState) :=
  let w := (wireStep painter).exec (.new .autoApprove .default .super true) ops
  (wireStep painter w (now, op)).2.map fun f =>
    (f.receiver, f.copy.fd, (w.session.system.grants.get f.copy.grant now).map (·.2))

end Sample

open Sample in
/-- The dead man's chord between the confirmation and the agent's turn, or between that turn, at which the socket was
full, and the moment it can be written; the agent's connection closed while the realm's copy is parked; the lifetime
of the row over before the agent's turn: the descriptor leaves all the same, under a row that is revoked, revoked,
gone and expired. -/
theorem descriptor_on_dead_row : let deadMan := WireOp.session (.system ⟨.deadMan (secs 2), rfl⟩) 0
    departs (opened ++ [(secs 2, deadMan)]) (secs 2) (agentTurn 1) = [(.agent 1, 40, some .revoked)] ∧
    departs (opened ++ [(secs 2, agentTurn 0), (secs 2, deadMan)]) (secs 2) (.writable (.agent 1) 1) =
      [(.agent 1, 40, some .revoked)] ∧
    departs (opened ++ [(secs 2, agentTurn 1), (secs 2, deadMan)]) (secs 2) (realmTurn 1) =
      [(.shim realm, 40, some .revoked)] ∧
    departs (opened ++ [(secs 2, agentTurn 1), (secs 2, realmTurn 0), (secs 2, .session (.closed 1) 0)]) (secs 2)
      (.writable (.shim realm) 1) = [(.shim realm, 40, none)] ∧
    departs opened (secs 3) (agentTurn 1) = [(.agent 1, 40, some .expired)] := by
  decide

open Sample in
/-- With nothing between them both copies leave under the row the ask spent; the realm's is parked for a while. -/
theorem descriptor_on_live_row_parked : let ops := opened ++ [(secs 2, agentTurn 1), (secs 2, realmTurn 0)]
    departs ops (secs 2) (.writable (.shim realm) 1) = [(.shim realm, 40, some .spent)] ∧
    ∃ t, (wireStep painter).Took (Asks t) (.new .autoApprove .default .super true) ops ∧
      (((wireStep painter).exec (.new .autoApprove .default .super true) ops).session.world (secs 2)).grantIsLive
        t.grant t.spentOnce = true := by
  intro ops
  refine ⟨by decide, ?_⟩
  have hs : (wireStep painter).Along Spared (.new .autoApprove .default .super true)
      (ops ++ [(secs 2, .writable (.shim realm) 1)]) := by
    decide
  have hl : ∃ f ∈ (wireStep painter ((wireStep painter).exec (.new .autoApprove .default .super true) ops)
      (secs 2, .writable (.shim realm) 1)).2, True := by
    decide
  obtain ⟨f, hf, -⟩ := hl
  obtain ⟨t, ha, hope, hli⟩ := descriptor_on_live_row painter .autoApprove .default .super true ops (secs 2)
    (.writable (.shim realm) 1) f hf
  obtain ⟨_, _, _, -, hop⟩ := hope
  exact ⟨t, ha, hop.grant ▸ hli hs⟩

end Vitrin
