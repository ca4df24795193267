import Vitrin.Core.Attention

/-!
# What a connection hears

The events the core sends to a principal, the frames it reads for a capture, and the
transport as the code sees it: a send is accepted or fails, and a failure is final
for the connection.

`Wire` is one turn's transport. Its `script` says how the coming sends turn out, so
that a result stated for every script covers every behaviour of the peer; `sent` is
what was accepted, in order. A frame is encoded into a sealed memory file; whether
that succeeds is the environment's.
-/

namespace Vitrin

/-- A send that did not go through. -/
structure TransportError where
  detail : String
  deriving DecidableEq

/-- The fatal error codes of the handshake interface. -/
inductive WireError where
  | invalidObject
  | invalidOpcode
  | invalidArgument
  | oversized
  | fdViolation
  | preHandshake
  | versionUnsupported
  | authFailed
  | internal
  | resourceExhausted
  deriving DecidableEq

/-- The state of a consent observer's prompt. -/
inductive ConsentState where
  | queued
  | shown
  | closed
  deriving DecidableEq

/-! ### Frames -/

/-- A realm's view: its pixels, four bytes each. -/
structure RealmViewFrame where
  rgba : List UInt8
  width : Nat
  height : Nat
  deriving DecidableEq

/-- Why a frame could not be made. -/
inductive CaptureError where
  | misSizedReadback (got expected : Nat)
  | degenerateView (width height : Nat)
  | memfd
  deriving DecidableEq

structure FrameReady where
  pixels : List UInt8
  width : Nat
  height : Nat
  stride : Nat
  deriving DecidableEq

/-- Swap to blue-green-red and pin the last byte. -/
def rgbaToXrgb8888 : List UInt8 → List UInt8
  | r :: g :: b :: _ :: rest => b :: g :: r :: 0xff :: rgbaToXrgb8888 rest
  | _ => []

/-- Make a frame of a view. `memfd` says whether the memory file could be made. -/
def renderFrame (memfd : Bool) (view : RealmViewFrame) : Except CaptureError FrameReady :=
  if view.width = 0 ∨ view.height = 0 then .error (.degenerateView view.width view.height)
  else if view.rgba.length ≠ view.width * view.height * 4 then
    .error (.misSizedReadback view.rgba.length (view.width * view.height * 4))
  else if !memfd then .error .memfd
  else .ok { pixels := rgbaToXrgb8888 view.rgba, width := view.width, height := view.height, stride := view.width * 4 }

/-! ### Events -/

/-- Why a designation ended without a file (`vitrin_powerbox.refusal`). -/
inductive PowerboxRefusal where
  | cancelled
  | timedOut
  | busy
  | unresolvable
  deriving DecidableEq

/-- An event sent to a principal, addressed to one of its objects. -/
inductive Event where
  | bound (principal : WireId) (identity : PrincipalIdentity)
  | done (cookie : Nat)
  /-- A consent observer's prompt changed state. -/
  | consentState (consent : WireId) (state : ConsentState)
  | resolved (grant : WireId) (outcome : Outcome) (verbs : Verb) (persistence : WirePersistence) (expiryMs : UInt32)
  | refused (grant : WireId) (verb : Verb) (code : Refusal) (retryAfterMs : Nat)
  | frameReady (view : WireId) (frame : FrameReady)
  | launched (launcher : WireId) (realm : RealmId)
  | attention (principal : WireId)
  | designated (powerbox : WireId) (fd : Nat) (designation : Nat) (ask : AskedFor) (name : String)
  | designationRefused (powerbox : WireId) (code : PowerboxRefusal)
  | error (object : WireId) (code : WireError) (message : String)
  deriving DecidableEq

/-- One turn's transport. -/
structure Wire where
  /-- How the coming sends turn out; past its end they are accepted. -/
  script : List (Option TransportError)
  sent : List Event

def Wire.send (w : Wire) (event : Event) : Wire × Except TransportError Unit := match w.script with
  | [] => ({ w with sent := w.sent ++ [event] }, .ok ())
  | none :: rest => ({ script := rest, sent := w.sent ++ [event] }, .ok ())
  | some err :: rest => ({ w with script := rest }, .error err)

end Vitrin
