import Vitrin.Core.Input

/-!
# Kinds of use, and the attention signal

A facet request becomes a *use* of a kind; the kind fixes the verb it needs and which
of the chokepoint's checks it is subject to. The attention signal is the human's one
key for saying "you may move things now": it opens a window during which a layout use
by a principal that was told of the press is not refused for the human's presence,
and the first use the window lets through closes it.

Also here is the clipboard slot, which the dead-man switch empties together with the
attention signal.
-/

namespace Vitrin

open Lib

/-! ### Kinds of use -/

/-- What a layout use asks of the output. -/
inductive LayoutMode where
  | fullscreen
  | windowed
  deriving DecidableEq

inductive AskedFor where
  | file (write : Bool)
  | dir
  deriving DecidableEq

inductive UseKind where
  | capture
  | pointer (kind : SeatInputKind)
  | text (kind : SeatInputKind)
  | launch
  | layoutFocus
  | layoutArrange (mode : LayoutMode)
  | designate (ask : AskedFor)
  | egress
  deriving DecidableEq

namespace UseKind

def verb : UseKind → Verb
  | capture => .observe
  | pointer _ => .actuatePointer
  | text _ => .actuateText
  | launch => .realmLaunch
  | layoutFocus => .layoutFocus
  | layoutArrange _ => .layoutArrange
  | designate _ => .designateFile
  | egress => .egress

/-- Repeated refusals of it may be voiced once. -/
def coalescible : UseKind → Bool
  | capture | launch | designate _ | egress => false
  | _ => true

/-- It needs something on the realm's screen. -/
def refusedByAVacantRealm : UseKind → Bool
  | launch | designate _ | egress => false
  | _ => true

def contendsForAttention : UseKind → Bool
  | pointer _ | text _ | layoutFocus | layoutArrange _ => true
  | _ => false

/-- It acts on the grant's realm by name. -/
def namesARealm (k : UseKind) : Bool := k.contendsForAttention || match k with
  | launch | designate _ => true
  | _ => false

def isLayout : UseKind → Bool
  | layoutFocus | layoutArrange _ => true
  | _ => false

def deliveredThroughTheSeat : UseKind → Bool
  | pointer _ | text _ => true
  | _ => false

end UseKind

/-! ### The attention signal -/

/-- How long a press lets layout uses through. -/
def attentionWindow : Duration := secs 1

/-- The key the human presses for attention. -/
structure AttentionChord where
  name : String
  evdev : Nat
  keysym : Nat

def AttentionChord.super : AttentionChord := ⟨"super", 125, 0xffeb⟩

structure OpenWindow where
  openedAt : Instant
  deliveredTo : List PrincipalIdentity

/-- A preemption the window suppressed, to be claimed at admission. -/
structure Exemption where
  principal : PrincipalIdentity

structure AttentionSignal where
  chord : AttentionChord
  /-- A press nobody has been told of yet. -/
  pending : Option Instant
  window : Option OpenWindow

/-- Whether a seat event goes on to its target. -/
inductive Gate where
  | deliver
  | consume
  deriving DecidableEq

namespace AttentionSignal

def new (chord : AttentionChord) : AttentionSignal := ⟨chord, none, none⟩

/-- The window lets this use through. -/
def exempt (s : AttentionSignal) (principal : PrincipalIdentity) (kind : UseKind) (now : Instant) : Option Exemption :=
  if !kind.isLayout then none
  else match s.window with
    | none => none
    | some w =>
      if attentionWindow ≤ now - w.openedAt then none
      else if principal ∈ w.deliveredTo then some ⟨principal⟩ else none

theorem window_of_exempt {s : AttentionSignal} {p : PrincipalIdentity} {k : UseKind} {now : Instant}
    {e : Exemption} (h : s.exempt p k now = some e) : s.window.isSome := by
  unfold exempt at h
  split at h
  · cases h
  · cases hw : s.window with
    | none => simp [hw] at h
    | some w => rfl

/-- Close the window a use went through. -/
def claim (s : AttentionSignal) (exemption : Exemption) : AttentionSignal × PrincipalIdentity :=
  ({ s with window := none }, exemption.principal)

/-- Claim the exemption an admitted use went through, if it needed one. -/
def claimAny (s : AttentionSignal) : Option Exemption → AttentionSignal
  | some exemption => (s.claim exemption).1
  | none => s

def clear (s : AttentionSignal) : AttentionSignal := { s with pending := none, window := none }

end AttentionSignal

/-! ### The clipboard slot -/

/-- A promotion a realm was asked for. -/
structure Outstanding where
  serial : UInt32
  realm : RealmId
  deriving DecidableEq

/-- Text the human promoted. -/
structure Held where
  source : RealmId
  content : String
  filledAt : Instant

structure ClipboardSlot where
  held : Option Held
  outstanding : Option Outstanding
  nextSerial : UInt32

def ClipboardSlot.new : ClipboardSlot := ⟨none, none, 0⟩

/-- Empty the slot; whether it held anything. -/
def ClipboardSlot.clear (c : ClipboardSlot) : ClipboardSlot × Bool :=
  ({ c with held := none, outstanding := none }, c.held.isSome)

/-- Nothing of a dead realm stays in the slot; whether it held anything of it. -/
def ClipboardSlot.forgetRealm (c : ClipboardSlot) (realm : RealmId) : ClipboardSlot × Bool :=
  let cleared := c.held.any (·.source = realm)
  ({ c with
      held := if cleared then none else c.held
      outstanding := if c.outstanding.any (·.realm = realm) then none else c.outstanding }, cleared)

end Vitrin
