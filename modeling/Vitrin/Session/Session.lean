import Vitrin.Consent.Shown
import Vitrin.Core.Connections
import Vitrin.Session.Designation

/-!
# The session

The core as it runs: the connections and stores of `PrincipalSystem`, the consent grab
and its surface, the designation ledger and the deliveries, and the realms. This is
where the parts meet: an ask admitted by the chokepoint opens a ticket, the picker is
raised for the oldest one, a confirmed choice becomes a held descriptor, and the two
turns that write it follow.

`sessionStep` is one callback of the event loop, or a part of one. What the environment
decides is in the label: how the file picker takes a step, what the chosen entry opens
as, whether a socket accepts what is written, when the screen is the human's. A callback
that only touches the stores and connections is a step of `systemStep`, one that only
touches the grab a step of `consentStep`.

A step's output holds the terminals it queues: the events that end a designation, each
with the designation it ends. The journal is left out.
-/

namespace Vitrin

open Lib

/-! ### State -/

/-- The core at run time. -/
structure Session where
  system : PrincipalSystem
  grab : ConsentGrab
  surface : ConsentSurface
  ledger : Ledger
  deliveries : DeliveryTable
  picker : Option DesignationId
  pickerRoot : Bool
  /-- The realms that are running, and whether their shim is connected. -/
  realms : OrdMap RealmId Bool

/-- An event that ends a designation, and which; an ask answered busy at once has none. -/
structure Terminal where
  connection : ConnectionId
  designation : Option DesignationId
  event : Event

structure SessionOut where
  calls : List SinkCall
  /-- What the ledger said to each ask the chokepoint admitted. -/
  asked : List (Except OpenRefusal DesignationId)
  terminals : List Terminal

/-- Why a designation ended without a file. -/
inductive SettleFailure where
  | cancelled
  | timedOut
  | authorityDied
  | realmDied
  | connectionGone
  | unresolvable
  deriving DecidableEq

def SettleFailure.code : SettleFailure → PowerboxRefusal
  | cancelled => .cancelled
  | timedOut | authorityDied | realmDied | connectionGone => .timedOut
  | unresolvable => .unresolvable

/-- `SettleFailure::from`. -/
def SettleFailure.ofUndelivered : Undelivered → SettleFailure
  | .authorityDied => authorityDied
  | .realmDied => realmDied
  | .timedOut => timedOut
  | .connectionGone => connectionGone

inductive PickerApplied where
  | unchanged
  | changed
  | confirmed
  | cancelled
  deriving DecidableEq

/-- A chosen entry, opened: its descriptor, and its name as it is displayed. -/
structure Opened where
  fd : Nat
  name : String

structure PickerEnv where
  /-- What applying the round's steps, counted from the first that is for the open picker, does. -/
  apply : Nat → PickerStep → PickerApplied
  chosen : Option (Option Opened)
  /-- Whether the offered folder can be listed for a new picker. -/
  lists : Bool
  card : DesignationTicket → PickerContent
  /-- Whether the outbox takes the refusal of a designation. -/
  accepts : DesignationId → Bool

namespace Session

def new (policy : ConsentPolicy) (config : PetitionConfig) (chord : AttentionChord) (pickerRoot : Bool) : Session where
  system := .new policy config chord
  grab := .new
  surface := .new
  ledger := .new
  deliveries := .new
  picker := none
  pickerRoot
  realms := .empty

def isLive (s : Session) (c : ConnectionId) : Bool := (s.system.conns.get? c).any fun conn => !conn.tornDown

def consent (s : Session) : ConsentSystem := ⟨s.grab, s.system.petitions, s.surface⟩

def putConsent (s : Session) (c : ConsentSystem) : Session :=
  { s with grab := c.grab, surface := c.surface, system := { s.system with petitions := c.petitions } }

/-- What a ticket is redeemed against (`DeliveryWorld`): a row that was spent by this very ask counts as
live. -/
def world (s : Session) (now : Instant) : Ledger.Liveness where
  grantIsLive grant spentByThisTicket := match s.system.grants.get grant now with
    | none => false
    | some (row, state) => row.verbs.contains .designateFile && match state with
      | .active => true
      | .spent => spentByThisTicket
      | .revoked | .expired => false
  realmIsTheSame realm := s.realms.get? realm = some true

/-! ### Settling -/

/-- Tell the client that its designation ended without a file, if it is there and its outbox takes it. -/
def voicePowerboxRefusal (s : Session) (t : DesignationTicket) (why : SettleFailure)
    (accepts : DesignationId → Bool) : List Terminal :=
  if s.isLive t.connection ∧ accepts t.id then
    [⟨t.connection, some t.id, .designationRefused t.facetId why.code⟩]
  else []

/-- End an open designation without a file. -/
def settleRefused (s : Session) (id : DesignationId) (why : SettleFailure) (accepts : DesignationId → Bool) :
    Session × List Terminal :=
  match s.ledger.take id with
  | (_, none) => (s, [])
  | (ledger, some t) => ({ s with ledger }, s.voicePowerboxRefusal t why accepts)

/-- The descriptor of a chosen entry, owed to both receivers. -/
def inFlight (t : DesignationTicket) (opened : Opened) (now : Instant) : InFlight where
  id := t.id
  fd := opened.fd
  ask := t.ask
  grant := t.grant
  principal := t.principal
  connection := t.connection
  realm := t.realm
  name := opened.name
  facetId := t.facetId
  grantWireId := t.grantWireId
  agent := .owed
  shim := .owed
  deadline := now + deliveryDeadline

/-- The human confirmed: judge the ticket, then the two receivers, then open the entry and hold it. -/
def settleDesignation (s : Session) (id : DesignationId) (chosen : Option (Option Opened)) (now : Instant)
    (accepts : DesignationId → Bool) : Session × List Terminal :=
  match s.ledger.redeem id (s.world now) now with
  | (ledger, .error (none, _)) => ({ s with ledger }, [])
  | (ledger, .error (some t, why)) =>
    ({ s with ledger }, s.voicePowerboxRefusal t (.ofUndelivered why) accepts)
  | (ledger, .ok t) =>
    let s := { s with ledger }
    match chosen with
    | none => (s, s.voicePowerboxRefusal t .unresolvable accepts)
    | some file =>
      if !s.isLive t.connection then (s, [])
      else if s.realms.get? t.realm ≠ some true then (s, s.voicePowerboxRefusal t .realmDied accepts)
      else match file with
        | none => (s, s.voicePowerboxRefusal t .unresolvable accepts)
        | some opened => ({ s with deliveries := s.deliveries.park (inFlight t opened now) }, [])

/-- Let go of every ticket that does not satisfy `keep`, and tell its client why. -/
def refuseAll (s : Session) (keep : DesignationTicket → Bool) (why : SettleFailure) (accepts : DesignationId → Bool) :
    Session × List Terminal :=
  let gone := s.ledger.retire keep
  ({ s with ledger := gone.1 }, gone.2.flatMap fun t => s.voicePowerboxRefusal t why accepts)

/-! ### The picker round -/

def dropPicker (s : Session) : Session := { s.putConsent s.consent.lowerPicker with picker := none }

def retirePicker (s : Session) : Session := match s.grab.raisedDesignation with
  | some id => if s.ledger.isOpen id then s else s.dropPicker
  | none => s

/-- A raised picker on a screen that is no longer the human's is refused. -/
def hidePicker (s : Session) (accepts : DesignationId → Bool) : Session × List Terminal :=
  match s.grab.raisedDesignation with
  | some id => s.dropPicker.settleRefused id .timedOut accepts
  | none => (s, [])

def forgetPicker (s : Session) : Session :=
  if s.picker.isSome ∧ s.grab.raisedDesignation.isNone then { s with picker := none } else s

/-- Apply the queued steps to the open picker, up to the first that settles it: whether any changed it,
and how it was settled. -/
def applySteps (picker : Option DesignationId) (apply : Nat → PickerStep → PickerApplied) (changed : Bool) :
    Nat → List (DesignationId × PickerStep) → Bool × Option (DesignationId × Bool)
  | _, [] => (changed, none)
  | n, (id, step) :: rest =>
    if picker = some id then match apply n step with
      | .unchanged => applySteps picker apply changed (n + 1) rest
      | .changed => applySteps picker apply true (n + 1) rest
      | .confirmed => (changed, some (id, true))
      | .cancelled => (changed, some (id, false))
    else applySteps picker apply changed n rest

def redrawPicker (s : Session) (card : DesignationTicket → PickerContent) : Session :=
  match s.grab.raisedDesignation.bind s.ledger.peek, s.picker with
  | some ticket, some _ => s.putConsent (s.consent.showPicker (card ticket)).1
  | _, _ => s

def drainSteps (s : Session) (now : Instant) (env : PickerEnv) : Session × List Terminal :=
  let drained := { s with grab := { s.grab with steps := [] } }
  match applySteps s.picker env.apply false 0 s.grab.steps with
  | (true, none) => (drained.redrawPicker env.card, [])
  | (false, none) => (drained, [])
  | (_, some (id, true)) => drained.dropPicker.settleDesignation id env.chosen now env.accepts
  | (_, some (id, false)) => drained.dropPicker.settleRefused id .cancelled env.accepts

/-- Raise the picker for a ticket; what went wrong, if anything did. -/
def raisePickerFor (s : Session) (id : DesignationId) (now : Instant) (env : PickerEnv) :
    Session × Option SettleFailure :=
  if !s.pickerRoot then (s, some .unresolvable)
  else match s.ledger.peek id with
    | none => (s, some .timedOut)
    | some ticket =>
      if !env.lists then (s, some .unresolvable)
      else
        let raised := s.consent.raisePicker id ticket.deadline now
        if !raised.2 then (s, none)
        else
          let shown := raised.1.showPicker (env.card ticket)
          if !shown.2 then (s.putConsent shown.1.lowerPicker, some .unresolvable)
          else ({ s.putConsent shown.1 with picker := some id }, none)

/-- With nothing raised, raise the picker for the oldest ticket, or refuse it. -/
def raiseFront (s : Session) (now : Instant) (env : PickerEnv) : Session × List Terminal :=
  match s.grab.raised, s.ledger.frontOpen with
  | none, some id =>
    let raised := s.raisePickerFor id now env
    match raised.2 with
    | none => (raised.1, [])
    | some why => raised.1.settleRefused id why env.accepts
  | _, _ => (s, [])

def servicePickerRound (s : Session) (now : Instant) (reachable : Bool) (env : PickerEnv) : Session × List Terminal :=
  let s := s.retirePicker
  let hidden := if reachable then (s, []) else s.hidePicker env.accepts
  let drained := hidden.1.forgetPicker.drainSteps now env
  let raised := if reachable then drained.1.raiseFront now env else (drained.1, [])
  (raised.1, hidden.2 ++ drained.2 ++ raised.2)

/-! ### Connections -/

def designateSink (s : Session) (c : ConnectionId) (ask : DesignateAsk) : Except DesignateRefusal DesignationId :=
  if !s.pickerRoot then .error .unavailable
  else match s.ledger.openTicket c ask with
    | .ok (_, id) => .ok id
    | .error _ => .error .answered

/-- What the sink does to the ledger, and what it said to each ask. -/
def openTickets (l : Ledger) (c : ConnectionId) : List SinkCall →
    Ledger × List (DesignateAsk × Except OpenRefusal DesignationId)
  | [] => (l, [])
  | .designate ask :: calls => match l.openTicket c ask with
    | .ok (l, id) => ((openTickets l c calls).1, (ask, .ok id) :: (openTickets l c calls).2)
    | .error why => ((openTickets l c calls).1, (ask, .error why) :: (openTickets l c calls).2)
  | _ :: calls => openTickets l c calls

def askLedger (s : Session) (c : ConnectionId) (calls : List SinkCall) :
    Ledger × List (DesignateAsk × Except OpenRefusal DesignationId) :=
  if s.pickerRoot then openTickets s.ledger c calls else (s.ledger, [])

/-- The answer to an ask the ledger did not take (`flush_powerbox_refusals`). -/
def busyTerminal (c : ConnectionId) (accepts : Bool) (x : DesignateAsk × Except OpenRefusal DesignationId) :
    Option Terminal :=
  match x.2 with
  | .error _ => if accepts then some ⟨c, none, .designationRefused x.1.facetId .busy⟩ else none
  | .ok _ => none

/-- Close a connection (`close_principal`): tear it down, and let go of what it was owed. -/
def closePrincipal (s : Session) (c : ConnectionId) : Session :=
  if s.isLive c then
    { s with
      system := (systemStep s.system (.teardown c)).1
      ledger := (s.ledger.withdrawConnection c).1
      deliveries := (s.deliveries.withdrawConnectionById c).1 }
  else s

def serverCtx (s : Session) (c : ConnectionId) (ctx : ServerCtx) : ServerCtx :=
  { ctx with designate := s.designateSink c }

def served (s : Session) (c : ConnectionId) (ctx : ServerCtx) (msg : Message) (wire : Wire) :
    PrincipalSystem × SystemOut :=
  systemStep s.system (.message c (s.serverCtx c ctx) msg wire)

/-- The session once a message has been served and its ask handed to the ledger. -/
def afterServed (s : Session) (c : ConnectionId) (ctx : ServerCtx) (msg : Message) (wire : Wire) : Session :=
  { s with
    system := (s.served c ctx msg wire).1
    ledger := (s.askLedger c (s.served c ctx msg wire).2.calls).1 }

/-- A message on an open connection: serve it, hand its ask to the ledger, tell the client of an ask the
ledger did not take, and close the connection if the message was fatal. -/
def dispatchMessage (s : Session) (c : ConnectionId) (ctx : ServerCtx) (msg : Message) (wire : Wire)
    (accepts : Bool) : Session × SessionOut :=
  if s.isLive c then
    let served := s.served c ctx msg wire
    let asked := (s.askLedger c served.2.calls).2
    (if served.2.result.any fun r => !r.isOk then (s.afterServed c ctx msg wire).closePrincipal c
      else s.afterServed c ctx msg wire,
      ⟨served.2.calls, asked.map (·.2), asked.filterMap (busyTerminal c accepts)⟩)
  else (s, ⟨[], [], []⟩)

/-- A turn on an agent's connection: write the descriptor it is owed. The realm's copy is only attempted
once the agent's is out. -/
def deliverAgentCopy (s : Session) (c : ConnectionId) (accepts : Bool) : Session × List Terminal :=
  match s.deliveries.owedByConnection c with
  | none => (s, [])
  | some e =>
    if accepts then
      let sent := s.deliveries.park { e with agent := .sent }
      ({ s with deliveries := if (s.realms.get? e.realm).isSome then sent else (sent.takeAny e.id).1 },
        [⟨c, some e.id, .designated e.facetId e.fd e.id e.ask e.name⟩])
    else ({ s with deliveries := (s.deliveries.takeAny e.id).1 }, [])

/-! ### Realms -/

/-- A turn on a realm's connection: write the descriptor it is owed. -/
def deliverRealmCopy (s : Session) (realm : RealmId) (accepts : Bool) : Session :=
  match s.deliveries.owedByRealm realm with
  | none => s
  | some e =>
    if accepts then { s with deliveries := ((s.deliveries.park { e with shim := .sent }).takeSettled e.id).1 }
    else { s with deliveries := (s.deliveries.takeAny e.id).1 }

/-- The realm's process is gone: its shim is no longer connected. -/
def reapRealm (s : Session) (realm : RealmId) : Session := { s with realms := s.realms.modify realm fun _ => false }

/-- The realm's connection closed (`close_realm`): what was addressed to it is let go of. -/
def closeRealm (s : Session) (realm : RealmId) (accepts : DesignationId → Bool) : Session × List Terminal :=
  let refused := (s.reapRealm realm).refuseAll (fun t => t.realm ≠ realm) .realmDied accepts
  let s := refused.1
  ({ s with
      deliveries := (s.deliveries.forgetRealm realm).1
      picker := s.picker.filter s.ledger.isOpen }, refused.2)

/-- The sweep's two designation clocks: a ticket nobody answered is refused, a descriptor whose turn
never came is let go of. -/
def sweepAt (s : Session) (now : Instant) (accepts : DesignationId → Bool) : Session × List Terminal :=
  let refused := s.refuseAll (fun t => now < t.deadline) .timedOut accepts
  ({ refused.1 with deliveries := (refused.1.deliveries.expireDue now).1 }, refused.2)

/-- The session locked (`cancel_outstanding_designations`): tickets are refused from the front until none
is left. -/
def cancelOutstandingDesignations (s : Session) (accepts : DesignationId → Bool) : Session × List Terminal :=
  let refused := s.refuseAll (fun _ => false) .timedOut accepts
  ({ refused.1 with picker := none }, refused.2)

end Session

/-! ### The machine -/

/-- A step of the stores and connections that the session adds nothing to. -/
def SystemOp.plain : SystemOp → Bool
  | .message _ _ _ _ | .teardown _ | .promptShown _ | .promptHidden _ => false
  | _ => true

/-- A call on the grab that is not part of a picker round or of the registry. -/
def ConsentOp.plain : ConsentOp → Bool
  | .raisePicker _ _ _ | .showPicker _ | .lowerPicker | .takeStep | .registry _ => false
  | _ => true

/-- A callback of the event loop, or a part of one. -/
inductive SessionOp where
  | system (op : { op : SystemOp // op.plain = true })
  | consent (op : { op : ConsentOp // op.plain = true })
  | message (conn : ConnectionId) (ctx : ServerCtx) (msg : Message) (wire : Wire) (accepts : Bool)
  | closed (conn : ConnectionId)
  | pickerRound (now : Instant) (reachable : Bool) (env : PickerEnv)
  | locked (accepts : DesignationId → Bool)
  | sweep (now : Instant) (accepts : DesignationId → Bool)
  | agentWoken (conn : ConnectionId) (accepts : Bool)
  /-- A realm's connection can be written. -/
  | realmWoken (realm : RealmId) (accepts : Bool)
  | realmStarted (realm : RealmId)
  | realmReaped (realm : RealmId)
  | realmClosed (realm : RealmId) (accepts : DesignationId → Bool)
  | shutdown

def sessionStep (paint : Painter) : Machine Session SessionOp SessionOut := fun s op =>
  let seen (x : Session × List Terminal) : Session × SessionOut := (x.1, ⟨[], [], x.2⟩)
  match op with
  | .system op => seen ({ s with system := (systemStep s.system op.1).1 }, [])
  | .consent op => seen (s.putConsent (consentStep paint s.consent op.1).1, [])
  | .message c ctx msg wire accepts => s.dispatchMessage c ctx msg wire accepts
  | .closed c => seen (s.closePrincipal c, [])
  | .pickerRound now reachable env => seen (s.servicePickerRound now reachable env)
  | .locked accepts => seen (s.cancelOutstandingDesignations accepts)
  | .sweep now accepts => seen (s.sweepAt now accepts)
  | .agentWoken c accepts => seen (s.deliverAgentCopy c accepts)
  | .realmWoken realm accepts => seen (s.deliverRealmCopy realm accepts, [])
  | .realmStarted realm => seen ({ s with realms := s.realms.insert realm true }, [])
  | .realmReaped realm => seen (s.reapRealm realm, [])
  | .realmClosed realm accepts => seen (s.closeRealm realm accepts)
  | .shutdown => seen ({ s with realms := .empty }, [])

end Vitrin
