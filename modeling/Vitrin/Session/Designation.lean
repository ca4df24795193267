import Vitrin.Core.Enforcement

/-!
# Designations: the ledger and the deliveries

An admitted ask for a file is answered when the human has chosen, so the core keeps a
ticket for it. A chosen file is opened and held, for a moment, until the two sockets it
goes to can be written. The ledger holds the tickets and no descriptor; the delivery
table holds the descriptors and no human.

Both stores are ordered maps from the designation's id, and carry that a value is filed
under its own id. A descriptor is a number. The three ways the ledger, and the three ways
the table, let go of everything that meets a condition are one definition each, applied
to the condition.

For each operation, what is found under an id afterwards.
-/

namespace Vitrin

open Lib

/-! ### The ledger -/

/-- An admitted ask that has not been answered. -/
structure DesignationTicket where
  id : DesignationId
  connection : ConnectionId
  facetId : WireId
  grantWireId : WireId
  grant : GrantId
  principal : PrincipalIdentity
  realm : RealmId
  ask : AskedFor
  /-- Admitting the ask spent a one-shot row. -/
  spentOnce : Bool
  deadline : Instant
  deriving DecidableEq

/-- Why no ticket was made. -/
inductive OpenRefusal where
  | busy
  | full
  deriving DecidableEq

def maxOutstanding : Nat := 8

/-- Why a ticket did not turn into a delivery. -/
inductive Undelivered where
  | authorityDied
  | realmDied
  | timedOut
  | connectionGone
  deriving DecidableEq

/-- What a ticket is judged against when it is redeemed. -/
structure Ledger.Liveness where
  grantIsLive : GrantId → Bool → Bool
  realmIsTheSame : RealmId → Bool

structure Ledger where
  tickets : OrdMap DesignationId DesignationTicket
  next : Nat
  filed : ∀ id t, tickets.get? id = some t → t.id = id

variable {id : DesignationId}

namespace Ledger

def new : Ledger := ⟨.empty, 1, by simp⟩

def owes (l : Ledger) (principal : PrincipalIdentity) : Bool :=
  l.tickets.entries.any fun x => x.2.principal = principal

def isOpen (l : Ledger) (id : DesignationId) : Bool := (l.tickets.get? id).isSome

def peek (l : Ledger) (id : DesignationId) : Option DesignationTicket := l.tickets.get? id

def frontOpen (l : Ledger) : Option DesignationId := l.tickets.min?.map (·.1)

def ticketFor (id : DesignationId) (connection : ConnectionId) (ask : DesignateAsk) : DesignationTicket where
  id
  connection
  facetId := ask.facetId
  grantWireId := ask.grantWireId
  grant := ask.grant
  principal := ask.principal
  realm := ask.realm
  ask := ask.ask
  spentOnce := ask.spentOnce
  deadline := ask.deadline

def file (l : Ledger) (t : DesignationTicket) : Ledger :=
  { l with
    tickets := l.tickets.insert t.id t
    filed := by
      intro id t' h
      rw [OrdMap.get?_insert] at h
      split at h
      · rename_i hid
        cases h
        exact hid.symm
      · exact l.filed id t' h }

/-- Make a ticket (`open`). The id counter saturates. -/
def openTicket (l : Ledger) (connection : ConnectionId) (ask : DesignateAsk) :
    Except OpenRefusal (Ledger × DesignationId) :=
  if l.owes ask.principal then .error .busy
  else if maxOutstanding ≤ l.tickets.size then .error .full
  else .ok ({ l.file (ticketFor l.next connection ask) with next := min (l.next + 1) (2 ^ 32 - 1) }, l.next)

/-- Keep the tickets that satisfy `keep`; those let go, oldest first. -/
def retire (l : Ledger) (keep : DesignationTicket → Bool) : Ledger × List DesignationTicket :=
  ({ l with
      tickets := l.tickets.filter fun _ t => keep t
      filed := fun id t h => l.filed id t (OrdMap.get?_filter_eq_some.mp h).1 },
    l.tickets.dropped keep)

def take (l : Ledger) (id : DesignationId) : Ledger × Option DesignationTicket :=
  ({ l with
      tickets := l.tickets.erase id
      filed := fun i t h => l.filed i t (OrdMap.get?_erase_eq_some.mp h).2 },
    l.tickets.get? id)

/-- Take a ticket out to deliver on it, if the ask, the authority and the realm are all still there. -/
def redeem (l : Ledger) (id : DesignationId) (world : Liveness) (now : Instant) :
    Ledger × Except (Option DesignationTicket × Undelivered) DesignationTicket :=
  match l.take id with
  | (l, none) => (l, .error (none, .timedOut))
  | (l, some ticket) =>
    (l, if ticket.deadline ≤ now then .error (some ticket, .timedOut)
      else if !world.grantIsLive ticket.grant ticket.spentOnce then .error (some ticket, .authorityDied)
      else if !world.realmIsTheSame ticket.realm then .error (some ticket, .realmDied)
      else .ok ticket)

/-- Take the tickets out that nobody answered in time. -/
def expireDue (l : Ledger) (now : Instant) : Ledger × List DesignationTicket :=
  l.retire fun t => now < t.deadline

def withdrawConnection (l : Ledger) (connection : ConnectionId) : Ledger × List DesignationTicket :=
  l.retire fun t => t.connection ≠ connection

def forgetRealm (l : Ledger) (realm : RealmId) : Ledger × List DesignationTicket :=
  l.retire fun t => t.realm ≠ realm

variable {t : DesignationTicket}

theorem get?_retire {l : Ledger} {k : DesignationTicket → Bool} :
    (l.retire k).1.tickets.get? id = some t ↔ l.tickets.get? id = some t ∧ k t = true := by
  simp [retire, OrdMap.get?_filter_eq_some]

theorem redeem_cases (l : Ledger) (id : DesignationId) (w : Liveness) (now : Instant) :
    l.tickets.get? id = none ∧ l.redeem id w now = ((l.take id).1, .error (none, .timedOut)) ∨
    ∃ t, l.tickets.get? id = some t ∧ ((∃ wh, l.redeem id w now = ((l.take id).1, .error (some t, wh))) ∨
        l.redeem id w now = ((l.take id).1, .ok t)) := by
  cases hg : l.tickets.get? id with
  | none =>
    have ht : l.take id = ((l.take id).1, none) := Prod.ext rfl hg
    exact .inl ⟨rfl, by rw [redeem, ht]⟩
  | some t =>
    have ht : l.take id = ((l.take id).1, some t) := Prod.ext rfl hg
    refine .inr ⟨t, rfl, ?_⟩
    rw [redeem, ht]
    dsimp only
    split_ifs
    iterate 3 exact .inl ⟨_, rfl⟩
    · exact .inr rfl

theorem owes_eq_false {l : Ledger} {p : PrincipalIdentity} (h : l.owes p = false)
    (ht : l.tickets.get? id = some t) : t.principal ≠ p := by
  intro he
  have := List.any_eq_false.mp h (id, t) (OrdMap.mem_entries_iff.mpr ht)
  simp [he] at this

theorem openTicket_eq_ok {l l' : Ledger} {c : ConnectionId} {a : DesignateAsk}
    (h : l.openTicket c a = .ok (l', id)) :
    id = l.next ∧ l'.tickets = l.tickets.insert l.next (ticketFor l.next c a) ∧
      l.owes a.principal = false ∧ l.tickets.size < maxOutstanding := by
  unfold openTicket at h
  split_ifs at h with how hf
  cases h
  exact ⟨rfl, rfl, by simpa using how, not_le.mp hf⟩

end Ledger

/-! ### The deliveries -/

/-- How long a descriptor waits for the turn it needs. -/
def deliveryDeadline : Duration := secs 2

/-- Whether a receiver has its copy. -/
inductive Half where
  | owed
  | sent
  | failed
  deriving DecidableEq

/-- A descriptor that has been opened and not yet handed over. -/
structure InFlight where
  id : DesignationId
  fd : Nat
  ask : AskedFor
  grant : GrantId
  principal : PrincipalIdentity
  connection : ConnectionId
  realm : RealmId
  name : String
  facetId : WireId
  grantWireId : WireId
  agent : Half
  shim : Half
  deadline : Instant

def InFlight.settled (e : InFlight) : Bool := e.agent ≠ .owed && e.shim ≠ .owed

/-- Why a descriptor was let go of before it reached both receivers. -/
inductive Abandoned where
  | noTurn
  | connectionGone
  | realmDied
  | sendFailed
  deriving DecidableEq

structure DeliveryTable where
  held : OrdMap DesignationId InFlight
  filed : ∀ id e, held.get? id = some e → e.id = id

namespace DeliveryTable

def new : DeliveryTable := ⟨.empty, by simp⟩

def park (d : DeliveryTable) (e : InFlight) : DeliveryTable where
  held := d.held.insert e.id e
  filed := by
    intro id e' h
    rw [OrdMap.get?_insert] at h
    split at h
    · rename_i hid
      cases h
      exact hid.symm
    · exact d.filed id e' h

/-- Take a descriptor out, whatever it still owes. -/
def takeAny (d : DeliveryTable) (id : DesignationId) : DeliveryTable × Option InFlight :=
  (⟨d.held.erase id, fun i e h => d.filed i e (OrdMap.get?_erase_eq_some.mp h).2⟩, d.held.get? id)

/-- Take a descriptor out that nobody is owed a copy of. -/
def takeSettled (d : DeliveryTable) (id : DesignationId) : DeliveryTable × Option InFlight :=
  match d.held.get? id with
  | some e => if e.settled then d.takeAny id else (d, none)
  | none => (d, none)

def owedByConnection (d : DeliveryTable) (connection : ConnectionId) : Option InFlight :=
  (d.held.entries.find? fun x => x.2.connection = connection && x.2.agent = .owed).map (·.2)

def owedByRealm (d : DeliveryTable) (realm : RealmId) : Option InFlight :=
  (d.held.entries.find? fun x => x.2.realm = realm && x.2.agent = .sent && x.2.shim = .owed).map (·.2)

/-- Keep the descriptors that satisfy `keep`; those let go, in order. -/
def retire (d : DeliveryTable) (keep : InFlight → Bool) (why : Abandoned) :
    DeliveryTable × List (InFlight × Abandoned) :=
  (⟨d.held.filter fun _ e => keep e, fun id e h => d.filed id e (OrdMap.get?_filter_eq_some.mp h).1⟩,
    (d.held.dropped keep).map fun e => (e, why))

/-- Let go of the descriptors whose turn never came. -/
def expireDue (d : DeliveryTable) (now : Instant) : DeliveryTable × List (InFlight × Abandoned) :=
  d.retire (fun e => now < e.deadline) .noTurn

def withdrawConnectionById (d : DeliveryTable) (connection : ConnectionId) :
    DeliveryTable × List (InFlight × Abandoned) :=
  d.retire (fun e => e.connection ≠ connection) .connectionGone

def forgetRealm (d : DeliveryTable) (realm : RealmId) : DeliveryTable × List (InFlight × Abandoned) :=
  d.retire (fun e => e.realm ≠ realm) .realmDied

variable {d : DeliveryTable} {e : InFlight}

theorem find_eq_some {p : DesignationId × InFlight → Bool} (h : (d.held.entries.find? p).map (·.2) = some e) :
    d.held.get? e.id = some e ∧ ∃ id, p (id, e) = true := by
  obtain ⟨⟨id, e'⟩, hf, rfl⟩ := Option.map_eq_some_iff.mp h
  have hg := OrdMap.mem_entries_iff.mp (List.mem_of_find?_eq_some hf)
  exact ⟨d.filed id e' hg ▸ hg, id, List.find?_some hf⟩

theorem owedByConnection_eq_some {c : ConnectionId} (h : d.owedByConnection c = some e) :
    d.held.get? e.id = some e ∧ e.connection = c ∧ e.agent = .owed := by
  simpa using find_eq_some h

theorem owedByRealm_eq_some {r : RealmId} (h : d.owedByRealm r = some e) :
    d.held.get? e.id = some e ∧ e.realm = r ∧ e.agent = .sent ∧ e.shim = .owed := by
  simpa [and_assoc] using find_eq_some h

theorem get?_retire {k : InFlight → Bool} (w : Abandoned) :
    (d.retire k w).1.held.get? id = some e ↔ d.held.get? id = some e ∧ k e = true := by
  simp [retire, OrdMap.get?_filter_eq_some]

end DeliveryTable

end Vitrin
