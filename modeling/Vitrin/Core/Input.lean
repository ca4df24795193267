import Vitrin.Core.Petitions

/-!
# Seat input and the human's hand

What arrives at the seat, and how the core remembers that the human's own hand is on
a realm. Every seat event carries its origin, physical or emulated; the presence map
counts only the physical ones, per realm, and says for how long after one the realm
is the human's (`ownsTarget`).

A pointer coordinate is a rational, an infinity or not a number: the double-precision
values of the source, without their rounding.
-/

namespace Vitrin

open Lib

/-- A coordinate: the exact value of a double, an infinity, or not a number. -/
inductive Coord where
  | finite (q : Rat)
  | inf (negative : Bool)
  | nan
  deriving DecidableEq

/-- `f64::clamp` to `[0, hi]`. Not-a-number passes through. -/
def Coord.clamp (hi : Rat) : Coord → Coord
  | .finite q => .finite (if q < 0 then 0 else if hi < q then hi else q)
  | .inf true => .finite 0
  | .inf false => .finite hi
  | .nan => .nan

inductive Origin where
  | physical
  | emulated
  deriving DecidableEq

inductive PressState where
  | released
  | pressed
  deriving DecidableEq

inductive Axis where
  | vertical
  | horizontal
  deriving DecidableEq

/-- What a key event is paired by: its scancode, or nothing but its keysym. -/
inductive KeySource where
  | device (scancode : Nat)
  | keysym
  deriving DecidableEq

inductive GestureKind where
  | swipe
  | pinch
  deriving DecidableEq

inductive GestureState where
  | completed
  | cancelled
  deriving DecidableEq

inductive SeatInputKind where
  | motion (x y : Coord)
  | button (button : Nat) (state : PressState)
  | scroll (axis : Axis) (value120 : Int)
  | key (source : KeySource) (keysym : Nat) (state : PressState)
  | text (text : String)
  | relativeMotion (dx dy dxUnaccel dyUnaccel : Coord)
  | gestureBegin (kind : GestureKind) (fingers : Nat)
  | gestureSwipeUpdate (dx dy : Coord)
  | gesturePinchUpdate (dx dy scale rotation : Coord)
  | gestureEnd (kind : GestureKind) (state : GestureState)
  deriving DecidableEq

structure SeatInput where
  origin : Origin
  kind : SeatInputKind
  deriving DecidableEq

def SeatInput.emulated (kind : SeatInputKind) : SeatInput := ⟨.emulated, kind⟩

/-! ### Presence -/

/-- How long a touch keeps a realm the human's. -/
def physicalHoldWindow : Duration := millis 500

/-- How long a held button does. -/
def physicalHoldCeiling : Duration := secs 60

/-- The human's hand on one realm. -/
structure PhysicalPresence where
  heldButtons : List Nat
  lastActivity : Option Instant

namespace PhysicalPresence

def new : PhysicalPresence := ⟨[], none⟩

/-- Record an event; only a physical one counts. -/
def note (p : PhysicalPresence) (origin : Origin) (kind : SeatInputKind) (now : Instant) : PhysicalPresence :=
  if origin ≠ .physical then p
  else
    let held := if p.lastActivity.any fun t => physicalHoldCeiling ≤ now - t then [] else p.heldButtons
    { lastActivity := some now
      heldButtons := match kind with
        | .button button .pressed => held ++ [button]
        | .button button .released => held.erase button
        | _ => held }

/-- The realm is the human's at `now`. -/
def ownsTarget (p : PhysicalPresence) (now : Instant) : Bool :=
  let within (window : Duration) : Bool := p.lastActivity.any fun t => now - t < window
  (!p.heldButtons.isEmpty && within physicalHoldCeiling) || within physicalHoldWindow

end PhysicalPresence

/-- The human's hand, realm by realm. -/
structure PhysicalPresenceMap where
  perRealm : OrdMap RealmId PhysicalPresence

namespace PhysicalPresenceMap

def new : PhysicalPresenceMap := ⟨.empty⟩

/-- Record an event against the realm it was addressed to. -/
def note (m : PhysicalPresenceMap) (realm : Option RealmId) (origin : Origin) (kind : SeatInputKind)
    (now : Instant) : PhysicalPresenceMap :=
  if origin ≠ .physical then m
  else match realm with
    | none => m
    | some realm =>
      ⟨m.perRealm.insert realm (((m.perRealm.get? realm).getD .new).note origin kind now)⟩

def ownsTarget (m : PhysicalPresenceMap) (realm : Option RealmId) (now : Instant) : Bool :=
  (realm.bind m.perRealm.get?).any (·.ownsTarget now)

def forget (m : PhysicalPresenceMap) (realm : RealmId) : PhysicalPresenceMap := ⟨m.perRealm.erase realm⟩

end PhysicalPresenceMap

end Vitrin
