import Vitrin.Core.Attention
import Vitrin.Scene.View

/-!
# The input router

Seat events are addressed to a realm: the human's to the realm the output is bound to, an
agent's to the realm its grant names. For each realm the router remembers which presses
it has delivered, so that it can deliver a release if and only if its press was, and can
let go of everything the human holds when the human's attention moves on.

`RealmSeat` is what is remembered of one realm. `routeInto` is the one path an event
takes; a hook, of any kind, sees the event first and may consume it. Which realms hold
the pointer fast (`PointerConstraintTable::is_active`) is decided elsewhere and is an
argument.

Beside the delivery, `routeInto` answers which entry of the realm's tables a consumed
release took out: the code throws that away, the balance of presses and releases needs it.
-/

namespace Vitrin

open Lib

/-! ### What is remembered of a realm -/

/-- What a key's release is matched with its press by. -/
inductive KeyPairing where
  | scancode (scancode : Nat)
  | keysym (keysym : Nat)
  deriving DecidableEq

def KeySource.pairing (source : KeySource) (keysym : Nat) : KeyPairing := match source with
  | .device scancode => .scancode scancode
  | .keysym => .keysym keysym

/-- A delivered key press that has not been released. -/
structure HeldKey where
  pairing : KeyPairing
  keysym : Nat
  origin : Origin

structure InFlightGesture where
  kind : GestureKind
  origin : Origin

/-- What one realm's app was told, as far as it is not over. -/
structure RealmSeat where
  pointer : Option (Coord × Coord)
  humanPointer : Option (Coord × Coord)
  agentPointer : Option (Coord × Coord)
  /-- Delivered button presses that have not been released, in order. -/
  pressed : List (Nat × Origin)
  pressedKeys : List HeldKey
  gesture : Option InFlightGesture

/-- An entry of a realm's tables: something the app was told has begun. -/
inductive SeatEntry where
  | button (code : Nat)
  | key (pairing : KeyPairing) (keysym : Nat)
  | gesture (kind : GestureKind)
  deriving DecidableEq

namespace RealmSeat

def new : RealmSeat := ⟨none, none, none, [], [], none⟩

/-- Take out the first press of a button; whether there was one. -/
def releasePressed (seat : RealmSeat) (button : Nat) : RealmSeat × Bool :=
  ({ seat with pressed := seat.pressed.eraseP fun e => e.1 = button }, seat.pressed.any fun e => e.1 = button)

/-- Take out the first press of a key; the keysym it was delivered with. -/
def releasePressedKey (seat : RealmSeat) (pairing : KeyPairing) : RealmSeat × Option Nat :=
  ({ seat with pressedKeys := seat.pressedKeys.eraseP fun e => e.pairing = pairing },
    (seat.pressedKeys.find? fun e => e.pairing = pairing).map (·.keysym))

def pointerOverSurface (seat : RealmSeat) (view : ViewGeometry) (surface : Option (Nat × Nat)) : Bool :=
  match seat.pointer, surface with
  | some pointer, some surface => inside (surfaceLocal pointer view surface) surface
  | _, _ => false

def moveTo (seat : RealmSeat) (origin : Origin) (x y : Coord) : RealmSeat := match origin with
  | .emulated => { seat with pointer := some (x, y), agentPointer := some (x, y) }
  | .physical => { seat with pointer := some (x, y), humanPointer := some (x, y) }

/-- A consumed release still ended what the app was told had begun: its entry is taken out. -/
def reconcile (seat : RealmSeat) (kind : SeatInputKind) : RealmSeat × Option SeatEntry := match kind with
  | .button button .released =>
    ((seat.releasePressed button).1, if (seat.releasePressed button).2 then some (.button button) else none)
  | .key source keysym .released =>
    ((seat.releasePressedKey (source.pairing keysym)).1,
      (seat.releasePressedKey (source.pairing keysym)).2.map (.key (source.pairing keysym)))
  | .gestureEnd _ _ => ({ seat with gesture := none }, seat.gesture.map fun g => .gesture g.kind)
  | _ => (seat, none)

end RealmSeat

/-! ### Deliveries -/

/-- What an app is told. Fractions are in 256ths. -/
inductive SeatDeliveryKind where
  | motion (x y : Int)
  | button (button : Nat) (state : PressState)
  | scroll (axis : Axis) (value120 : Int)
  | key (keysym : Nat) (state : PressState)
  | text (text : String)
  | relativeMotion (dx dy dxUnaccel dyUnaccel : Int)
  | gestureBegin (kind : GestureKind) (fingers : Nat)
  | gestureSwipeUpdate (dx dy : Int)
  | gesturePinchUpdate (dx dy scale rotation : Int)
  | gestureEnd (kind : GestureKind) (state : GestureState)
  deriving DecidableEq

structure SeatDelivery where
  origin : Origin
  kind : SeatDeliveryKind
  deriving DecidableEq

/-- The realm's picture: the view, and the size of the surface in it, if there is one. -/
structure SeatTarget where
  view : ViewGeometry
  surface : Option (Nat × Nat)

namespace RealmSeat

/-- The pointer is the app's: a button holds it, or it is over the surface. -/
def hasPointer (seat : RealmSeat) (target : SeatTarget) : Bool :=
  !seat.pressed.isEmpty || seat.pointerOverSurface target.view target.surface

/-- Map an event that no hook consumed to what the app is told of it. `frozen`: the app holds the pointer fast. -/
def deliver (seat : RealmSeat) (origin : Origin) (target : SeatTarget) (frozen : Bool) (kind : SeatInputKind) :
    RealmSeat × Option SeatDeliveryKind :=
  match kind with
  | .key source keysym .pressed =>
    ({ seat with pressedKeys := seat.pressedKeys ++ [⟨source.pairing keysym, keysym, origin⟩] },
      some (.key keysym .pressed))
  | .key source keysym .released =>
    ((seat.releasePressedKey (source.pairing keysym)).1,
      -- The app hears the keysym of the press, not the one the release resolved to.
      (seat.releasePressedKey (source.pairing keysym)).2.map fun pressed => .key pressed .released)
  | .text text => (seat, some (.text text))
  | .motion x y =>
    (seat, if frozen then none else match target.surface with
      | none => none
      | some surface =>
        let at' := surfaceLocal (x, y) target.view surface
        if seat.pressed.isEmpty && !inside at' surface then none else some (.motion at'.1.toFixed at'.2.toFixed))
  | .button button .pressed =>
    if seat.hasPointer target then
      ({ seat with pressed := seat.pressed ++ [(button, origin)] }, some (.button button .pressed))
    else (seat, none)
  | .button button .released =>
    ((seat.releasePressed button).1,
      if (seat.releasePressed button).2 then some (.button button .released) else none)
  | .scroll axis value120 => (seat, if seat.hasPointer target then some (.scroll axis value120) else none)
  | .relativeMotion dx dy dxUnaccel dyUnaccel =>
    (seat, if seat.hasPointer target then
        some (.relativeMotion dx.toFixed dy.toFixed dxUnaccel.toFixed dyUnaccel.toFixed)
      else none)
  | .gestureBegin kind fingers =>
    if seat.hasPointer target && seat.gesture.isNone then
      ({ seat with gesture := some ⟨kind, origin⟩ }, some (.gestureBegin kind fingers))
    else (seat, none)
  | .gestureSwipeUpdate dx dy =>
    (seat, if seat.gesture.any fun g => g.kind = .swipe then some (.gestureSwipeUpdate dx.toFixed dy.toFixed)
      else none)
  | .gesturePinchUpdate dx dy scale rotation =>
    (seat, if seat.gesture.any fun g => g.kind = .pinch then
        some (.gesturePinchUpdate dx.toFixed dy.toFixed scale.toFixed rotation.toFixed)
      else none)
  | .gestureEnd _ state =>
    -- The kind is the one that began, whatever the event says.
    ({ seat with gesture := none }, seat.gesture.map fun live => .gestureEnd live.kind state)

/-- Let go of the keys the human holds. -/
def releasePhysicalKeys (seat : RealmSeat) : RealmSeat × List SeatDelivery :=
  ({ seat with pressedKeys := seat.pressedKeys.filter fun e => e.origin ≠ .physical },
    (seat.pressedKeys.filter fun e => e.origin = .physical).map fun e => ⟨e.origin, .key e.keysym .released⟩)

/-- Let go of the buttons the human holds. -/
def releasePhysicalButtons (seat : RealmSeat) : RealmSeat × List SeatDelivery :=
  ({ seat with pressed := seat.pressed.filter fun e => e.2 ≠ .physical },
    (seat.pressed.filter fun e => e.2 = .physical).map fun e => ⟨e.2, .button e.1 .released⟩)

def endPhysicalGesture (seat : RealmSeat) : RealmSeat × List SeatDelivery := match seat.gesture with
  | some live =>
    if live.origin = .physical then
      ({ seat with gesture := none }, [⟨live.origin, .gestureEnd live.kind .cancelled⟩])
    else (seat, [])
  | none => (seat, [])

end RealmSeat

/-! ### Hooks -/

/-- What sees every event before it is routed; it may consume it. It is never told the realm. -/
structure PreemptionHook (H : Type) where
  observe : H → SeatInput → H
  gate : H → SeatInput → H × Gate

/-! ### The router -/

structure InputRouter (H : Type) where
  hook : H
  presence : PhysicalPresenceMap
  /-- The realm the human's input follows. -/
  bound : Option RealmId
  seats : OrdMap RealmId RealmSeat

/-- What routing an event came to: the delivery, and the entry a consumed release took out. -/
structure Routed where
  delivery : Option SeatDelivery
  paid : Option SeatEntry

namespace InputRouter

variable {H : Type}

def new (hook : H) : InputRouter H := ⟨hook, .new, none, .empty⟩

def seat (r : InputRouter H) (realm : RealmId) : RealmSeat := (r.seats.get? realm).getD .new

def putSeat (r : InputRouter H) (realm : RealmId) (seat : RealmSeat) : InputRouter H :=
  { r with seats := r.seats.insert realm seat }

/-- Where the pointer is is recorded before anything else; a frozen pointer stays. -/
def record (r : InputRouter H) (realm : Option RealmId) (frozen : Bool) (input : SeatInput) : InputRouter H :=
  match realm, frozen, input.kind with
  | some realm, false, .motion x y => r.putSeat realm ((r.seat realm).moveTo input.origin x y)
  | _, _, _ => r

/-- The human's hand is noted, then the hook sees the event and judges it. -/
def tap (hook : PreemptionHook H) (r : InputRouter H) (realm : Option RealmId) (input : SeatInput) (now : Instant) :
    InputRouter H × Gate :=
  let judged := hook.gate (hook.observe r.hook input) input
  ({ r with hook := judged.1, presence := r.presence.note realm input.origin input.kind now }, judged.2)

/-- Route an event addressed to a realm, or to none. `locked`: the realm's app holds the pointer fast. -/
def routeInto (hook : PreemptionHook H) (r : InputRouter H) (realm : Option RealmId) (input : SeatInput)
    (target : SeatTarget) (locked : Bool) (now : Instant) : InputRouter H × Routed :=
  let motion := match input.kind with
    | .motion _ _ => true
    | _ => false
  let frozen := input.origin = .physical && motion && realm.isSome && locked
  let tapped := (r.record realm frozen input).tap hook realm input now
  let r := tapped.1
  match tapped.2, realm with
  | .consume, none => (r, ⟨none, none⟩)
  | .consume, some realm => match r.seats.get? realm with
    | none => (r, ⟨none, none⟩)
    | some seat => (r.putSeat realm (seat.reconcile input.kind).1, ⟨none, (seat.reconcile input.kind).2⟩)
  | .deliver, none => (r, ⟨none, none⟩)
  | .deliver, some realm =>
    let delivered := (r.seat realm).deliver input.origin target frozen input.kind
    (r.putSeat realm delivered.1, ⟨delivered.2.map fun kind => ⟨input.origin, kind⟩, none⟩)

/-- The human's input follows the binding. -/
def routePhysical (hook : PreemptionHook H) (r : InputRouter H) (kind : SeatInputKind) (target : SeatTarget)
    (locked : Bool) (now : Instant) : InputRouter H × Routed :=
  r.routeInto hook r.bound ⟨.physical, kind⟩ target locked now

/-- An agent's input goes where its grant says. -/
def routeEmulated (hook : PreemptionHook H) (r : InputRouter H) (realm : RealmId) (kind : SeatInputKind)
    (target : SeatTarget) (locked : Bool) (now : Instant) : InputRouter H × Routed :=
  r.routeInto hook (some realm) (.emulated kind) target locked now

/-- Apply a drain to a realm's seat, if it has one. -/
def drain (r : InputRouter H) (realm : RealmId) (f : RealmSeat → RealmSeat × List SeatDelivery) :
    InputRouter H × List SeatDelivery := match r.seats.get? realm with
  | none => (r, [])
  | some seat => (r.putSeat realm (f seat).1, (f seat).2)

def releasePhysicalKeys (r : InputRouter H) (realm : RealmId) : InputRouter H × List SeatDelivery :=
  r.drain realm RealmSeat.releasePhysicalKeys

def releasePhysicalButtons (r : InputRouter H) (realm : RealmId) : InputRouter H × List SeatDelivery :=
  r.drain realm RealmSeat.releasePhysicalButtons

def endPhysicalGesture (r : InputRouter H) (realm : RealmId) : InputRouter H × List SeatDelivery :=
  r.drain realm RealmSeat.endPhysicalGesture

/-- The human's hand has left a realm. -/
def forgetPresenceOf (r : InputRouter H) (realm : RealmId) : InputRouter H :=
  { r with presence := r.presence.forget realm }

/-- Bind the human's input to a realm. The realm that loses it is owed the releases of what the human held there. -/
def bindTo (r : InputRouter H) (realm : RealmId) : InputRouter H × Option (RealmId × List SeatDelivery) :=
  if r.bound = some realm then (r, none)
  else
    let bound := { r with bound := some realm }
    match r.bound with
    | none => (bound, none)
    | some losing =>
      let keys := bound.releasePhysicalKeys losing
      let buttons := keys.1.releasePhysicalButtons losing
      let gesture := buttons.1.endPhysicalGesture losing
      (gesture.1.forgetPresenceOf losing, some (losing, keys.2 ++ buttons.2 ++ gesture.2))

/-- Forget a realm that is gone; whether there was anything to forget. -/
def resetFor (r : InputRouter H) (realm : RealmId) (hadConstraint : Bool) : InputRouter H × Bool :=
  ({ r with
      seats := r.seats.erase realm
      bound := if r.bound = some realm then none else r.bound
      presence := r.presence.forget realm },
    (r.seats.get? realm).isSome || r.bound = some realm || hadConstraint)

end InputRouter

end Vitrin
