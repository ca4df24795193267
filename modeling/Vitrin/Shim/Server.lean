import Vitrin.Lib.Machine
import Vitrin.Scene.Scene

/-!
# The core's end of a shim's connection

A shim puts its app's pictures on the screen: it attaches a buffer to a surface, names the
damage, commits. The core copies a shared-memory buffer in at the commit and is done with
it; a dmabuf it imports and keeps until another buffer replaces it. Every attach is to be
answered by one `buffer_done`, every commit by one `frame_done`.

`handleMessage` is the dispatch of a decoded message. What a message decodes to depends on
the object it is addressed to, so a `ShimMessage` has a decoding for each interface. What
the kernel and the renderer answer is part of the label: whether a descriptor can be
sealed and how large it is when it is attached, what is read from it and whether it can be
imported when it is committed (`CommitEnv`).

The events of a message go out at once, through the connection's own send path; how many
of them it takes is part of the label, and a message whose event is not taken closes the
connection. Everything else, a presentation's events and those of the seat, goes to the
connection's outbox, which takes `maxOutboxFrames` between two turns of the loop that
drains it. A presentation whose event is not taken is given up where it stands, and the
connection goes on.

`Attached` numbers the attaches of a connection. The number is not on the wire: a shim may
use a buffer's cookie again, and the number tells which attach an event answers.

Selections, pointer constraints and idle inhibits are parked for the session to take; only
their check against the minted surfaces is here.
-/

namespace Vitrin

open Lib

/-! ### Buffers -/

inductive BufferKind where
  | shm
  | dmabuf
  deriving DecidableEq

inductive BufferStatus where
  | released
  | importFailed
  | formatUnsupported
  | tooLarge
  deriving DecidableEq

inductive PixelFormat where
  | xrgb8888
  | argb8888
  deriving DecidableEq

/-- Which attach: its surface, the shim's cookie for the buffer, and its place among all attaches. -/
structure Attached where
  surface : Nat
  buffer : Nat
  number : Nat
  deriving DecidableEq

/-- An attach request, with what the kernel says of its descriptor. -/
structure AttachRequest where
  bufferId : Nat
  kind : BufferKind
  format : PixelFormat
  width : Nat
  height : Nat
  stride : Nat
  /-- `F_GET_SEALS` succeeds. -/
  sealable : Bool
  /-- What `fstat` says. -/
  size : Nat

structure PendingBuffer where
  bufferId : Nat
  kind : BufferKind
  format : PixelFormat
  width : Nat
  height : Nat
  number : Nat

structure SurfaceState where
  everAttached : Bool
  pendingBuffer : Option PendingBuffer
  pendingDamage : List DamageRect

def SurfaceState.new : SurfaceState := ⟨false, none, []⟩

structure RetainedDmabuf where
  surfaceId : Nat
  bufferId : Nat
  number : Nat

def PendingBuffer.attached (p : PendingBuffer) (surfaceId : Nat) : Attached := ⟨surfaceId, p.bufferId, p.number⟩

def RetainedDmabuf.attached (r : RetainedDmabuf) : Attached := ⟨r.surfaceId, r.bufferId, r.number⟩

/-- A connection's objects. -/
structure ShimServer where
  /-- The largest id allocated so far. -/
  watermark : Nat
  surfaces : OrdMap Nat SurfaceState
  seatId : Option Nat
  /-- The surfaces of the commits that are owed a `frame_done`, oldest first. -/
  owedFrameDones : List Nat
  retainedDmabuf : Option RetainedDmabuf
  attaches : Nat

/-- What the renderer keeps of an import: which attach, and its size. -/
structure GpuContent where
  number : Nat
  width : Nat
  height : Nat

inductive ShimEvent where
  | bufferDone (attached : Attached) (status : BufferStatus)
  | frameDone (surface : Nat) (timeMs : Nat)
  deriving DecidableEq

/-- A connection: its objects, its realm's scene, what the renderer keeps for it, and the frames in its outbox. -/
structure ShimConn where
  server : ShimServer
  scene : Scene
  gpu : Option GpuContent
  outbox : Nat
  closed : Bool

/-! ### Messages -/

inductive ShimViolation where
  | invalidBuffer (detail : String)
  | badOrder (detail : String)
  | alreadyInitialized
  | resourceExhausted (detail : String)
  | invalidObject (objectId : Nat) (detail : String)
  | unknownOpcode (objectId : Nat)
  | malformed
  deriving DecidableEq

inductive SessionRequest where
  | createSurface (surface : Nat)
  | getSeat (seat : Nat)
  | selection
  | pointerConstraint (surface : Option Nat)
  | idleInhibit (surface : Option Nat)

inductive SurfaceRequest where
  | attach (req : AttachRequest)
  | damage (rect : DamageRect)
  | commit

/-- A message, as each interface would decode it. -/
structure ShimMessage where
  objectId : Nat
  session : Except ShimViolation SessionRequest
  surface : Except ShimViolation SurfaceRequest

inductive ImportOutcome where
  | imported
  | fdLie (detail : String)
  | refusal

/-- The renderer's way to import. -/
structure DmabufImporter where
  supports : PixelFormat → Bool
  outcome : ImportOutcome

/-- What a commit finds: the picture read from a shared-memory buffer at the stride it was attached with, if it can be
read, and an importer, if there is one. -/
structure CommitEnv where
  copyIn : Except String Picture
  importer : Option DmabufImporter

/-- A message that was handled: the connection, the events it is to send, and the attach or the commit it was. -/
structure ShimTurn where
  conn : ShimConn
  events : List ShimEvent
  attached : List Attached
  latched : List Nat

def shimSessionId : Nat := 1

def maxLiveSurfaces : Nat := 16

namespace ShimServer

def new : ShimServer := ⟨shimSessionId, .empty, none, [], none, 0⟩

def clientIdMax : Nat := 0xfeffffff

/-- Ids go up, within the client's range. -/
def allocateId (s : ShimServer) (id : Nat) : Except ShimViolation ShimServer :=
  if id ≤ s.watermark ∨ clientIdMax < id then
    .error (.invalidObject id "new_id at/below the watermark or outside the client range")
  else .ok { s with watermark := id }

/-- What is wrong with an attach request's geometry or descriptor. -/
def checkBuffer (req : AttachRequest) : Except ShimViolation Unit :=
  if req.width = 0 ∨ req.height = 0 then
    .error (.invalidBuffer ("zero dimension: " ++ toString req.width ++ "x" ++ toString req.height))
  else if req.stride < req.width * 4 then
    .error (.invalidBuffer ("stride " ++ toString req.stride ++ " below width * 4 = " ++ toString (req.width * 4)))
  else if req.kind = .shm then
    if !req.sealable then
      .error (.invalidBuffer "kind=shm fd is not memfd/shmem-backed (F_GET_SEALS failed)")
    else if req.size < req.stride * req.height then
      .error (.invalidBuffer
        ("fd size " ++ toString req.size ++ " below stride * height = " ++ toString (req.stride * req.height)))
    else .ok ()
  else .ok ()

/-- A cookie that is still out must not be attached again. -/
def checkOrder (s : ShimServer) (surfaceId : Nat) (state : SurfaceState) (bufferId : Nat) :
    Except ShimViolation Unit :=
  if state.pendingBuffer.any fun p => p.kind = .dmabuf ∧ p.bufferId = bufferId then
    .error (.badOrder "re-attach of a dmabuf buffer_id still awaiting buffer_done")
  else if s.retainedDmabuf.any fun r => r.surfaceId = surfaceId ∧ r.bufferId = bufferId then
    .error (.badOrder "re-attach of a retained dmabuf buffer_id still awaiting buffer_done")
  else .ok ()

/-- Stage a buffer. The one it supersedes is released at once, unused. -/
def handleAttach (s : ShimServer) (surfaceId : Nat) (state : SurfaceState) (req : AttachRequest) :
    Except ShimViolation (ShimServer × List ShimEvent) :=
  match checkBuffer req with
  | .error v => .error v
  | .ok () => match s.checkOrder surfaceId state req.bufferId with
    | .error v => .error v
    | .ok () =>
      let staged : PendingBuffer := ⟨req.bufferId, req.kind, req.format, req.width, req.height, s.attaches⟩
      .ok ({ s with
              surfaces := s.surfaces.insert surfaceId
                { state with everAttached := true, pendingBuffer := some staged }
              attaches := s.attaches + 1 },
            state.pendingBuffer.toList.map fun old => .bufferDone (old.attached surfaceId) .released)

/-- Note damage; a surface that never had a buffer has none. -/
def handleDamage (s : ShimServer) (surfaceId : Nat) (state : SurfaceState) (rect : DamageRect) :
    Except ShimViolation ShimServer :=
  if !state.everAttached then .error (.badOrder "damage against a never-attached surface")
  else .ok { s with
    surfaces := s.surfaces.insert surfaceId
      { state with pendingDamage := Vitrin.handleDamage state.pendingDamage rect } }

/-- Send what is owed, oldest first, to an outbox with `room` left. What could not be sent is owed no more. -/
def presented : List Nat → Nat → List Nat × List Nat
  | [], _ => ([], [])
  | _ :: owed, 0 => ([], owed)
  | surface :: owed, room + 1 => (surface :: (presented owed room).1, (presented owed room).2)

end ShimServer

namespace ShimConn

variable (c : ShimConn)

def putSurface (surfaceId : Nat) (state : SurfaceState) : ShimConn :=
  { c with server := { c.server with surfaces := c.server.surfaces.insert surfaceId state } }

/-- A commit is owed a `frame_done`. -/
def owe (surfaceId : Nat) : ShimConn :=
  { c with server := { c.server with owedFrameDones := c.server.owedFrameDones ++ [surfaceId] } }

def deferredRelease : List ShimEvent :=
  c.server.retainedDmabuf.toList.map fun prev => .bufferDone prev.attached .released

/-- Import a dmabuf: its release waits until it is replaced, and that of the one it replaces is due. -/
def applyDmabuf (surfaceId : Nat) (pending : PendingBuffer) (importer : Option DmabufImporter) :
    Except ShimViolation (ShimConn × List ShimEvent × Option BufferStatus) :=
  if maxSurfaceDim < pending.width ∨ maxSurfaceDim < pending.height then .ok (c, [], some .tooLarge)
  else match importer with
    | none => .ok (c, [], some .importFailed)
    | some importer =>
      if !importer.supports pending.format then .ok (c, [], some .formatUnsupported)
      else match importer.outcome with
        | .fdLie detail => .error (.invalidBuffer detail)
        | .refusal => .ok (c, [], some .importFailed)
        | .imported =>
          .ok ({ c with
                  gpu := some ⟨pending.number, pending.width, pending.height⟩
                  server := { c.server with
                    retainedDmabuf := some ⟨surfaceId, pending.bufferId, pending.number⟩ } },
                c.deferredRelease, none)

/-- Copy a shared-memory buffer in. It replaces a retained dmabuf, whose release goes first. -/
def applyBuffer (surfaceId : Nat) (pending : PendingBuffer) (damageHint : Option DamageRect) (env : CommitEnv) :
    Except ShimViolation (ShimConn × List ShimEvent × Option BufferStatus) :=
  if pending.kind = .dmabuf then c.applyDmabuf surfaceId pending env.importer
  else if large : maxSurfaceDim < pending.width ∨ maxSurfaceDim < pending.height ∨
      maxSurfaceBytes < pending.width * pending.height * 4 then .ok (c, [], some .tooLarge)
  else match env.copyIn with
    | .error e => .error (.invalidBuffer ("copy-in failed: " ++ e))
    | .ok pixel =>
      if positive : 0 < pending.width ∧ 0 < pending.height then
        let content : SurfaceContent :=
          { width := pending.width, height := pending.height, pixel, positive
            limited := by simpa [not_or, not_lt] using large }
        .ok ({ c with
                scene := c.scene.commitWithDamage content damageHint
                gpu := if c.server.retainedDmabuf.isSome ∧ env.importer.isSome then none else c.gpu
                server := { c.server with retainedDmabuf := none } },
              c.deferredRelease, some .released)
      else .error (.invalidBuffer
        ("surface content must have positive dimensions and exactly width * height * 4 bytes: got " ++
          toString pending.width ++ "x" ++ toString pending.height ++ " with 0 bytes"))

/-- Latch what is pending. Without a new buffer the current one is presented again. -/
def handleCommit (surfaceId : Nat) (state : SurfaceState) (env : CommitEnv) :
    Except ShimViolation (ShimConn × List ShimEvent) :=
  if !state.everAttached then .error (.badOrder "commit against a never-attached surface")
  else
    let latched := c.putSurface surfaceId { state with pendingBuffer := none, pendingDamage := [] }
    match state.pendingBuffer with
    | none => .ok (latched.owe surfaceId, [])
    | some pending =>
      match latched.applyBuffer surfaceId pending (damageHint state.pendingDamage) env with
      | .error v => .error v
      | .ok (applied, events, status) =>
        .ok (applied.owe surfaceId,
          events ++ status.toList.map fun status => .bufferDone (pending.attached surfaceId) status)

def handleSession (req : SessionRequest) : Except ShimViolation ShimServer := match req with
  | .createSurface surface =>
    if maxLiveSurfaces ≤ c.server.surfaces.size then .error (.resourceExhausted "live-surface cap exceeded")
    else match c.server.allocateId surface with
      | .error v => .error v
      | .ok server => .ok { server with surfaces := server.surfaces.insert surface .new }
  | .getSeat seat => match c.server.allocateId seat with
    | .error v => .error v
    | .ok server => if server.seatId.isSome then .error .alreadyInitialized else .ok { server with seatId := some seat }
  | .selection => .ok c.server
  | .pointerConstraint surface =>
    if let some id := surface.filter fun id => (c.server.surfaces.get? id).isNone then
      .error (.invalidObject id "pointer_constraint names a surface this connection never minted")
    else .ok c.server
  | .idleInhibit surface =>
    if let some id := surface.filter fun id => (c.server.surfaces.get? id).isNone then
      .error (.invalidObject id "idle_inhibit names a surface this connection never minted")
    else .ok c.server

def handleSurface (surfaceId : Nat) (state : SurfaceState) (req : SurfaceRequest) (env : CommitEnv) :
    Except ShimViolation ShimTurn := match req with
  | .attach req => (c.server.handleAttach surfaceId state req).map fun x =>
    { conn := { c with server := x.1 }, events := x.2
      attached := [⟨surfaceId, req.bufferId, c.server.attaches⟩], latched := [] }
  | .damage rect => (c.server.handleDamage surfaceId state rect).map fun server =>
    { conn := { c with server }, events := [], attached := [], latched := [] }
  | .commit => (c.handleCommit surfaceId state env).map fun x =>
    { conn := x.1, events := x.2, attached := [], latched := [surfaceId] }

/-- Dispatch a message on the object it is addressed to. The seat has no requests. -/
def handleMessage (m : ShimMessage) (env : CommitEnv) : Except ShimViolation ShimTurn :=
  if m.objectId = shimSessionId then match m.session with
    | .error v => .error v
    | .ok req => (c.handleSession req).map fun server =>
      { conn := { c with server }, events := [], attached := [], latched := [] }
  else match c.server.surfaces.get? m.objectId with
    | some state => match m.surface with
      | .error v => .error v
      | .ok req => c.handleSurface m.objectId state req env
    | none =>
      if c.server.seatId = some m.objectId then .error (.unknownOpcode m.objectId)
      else .error (.invalidObject m.objectId "unknown object id")

/-- The connection is gone, and with it what it put on the screen. -/
def close : ShimConn := { c with scene := c.scene.clearSurface, gpu := none, closed := true }

end ShimConn

/-! ### The machine -/

/-- The most frames an outbox holds between two turns of the loop. -/
def maxOutboxFrames : Nat := 64

/-- What happens to a connection. -/
inductive ShimOp where
  /-- A message arrives; the send path takes at most `takes` of the events it is answered with. -/
  | message (m : ShimMessage) (env : CommitEnv) (takes : Nat)
  /-- A frame has been presented. -/
  | presented (timeMs : Nat)
  /-- So many events of the seat are sent through the outbox. -/
  | seat (frames : Nat)
  /-- The loop drains the outbox. -/
  | drain

/-- What came of a step: the attaches that were accepted, the surfaces of the commits that did not fault, and the events
that were sent. -/
structure ShimOut where
  attached : List Attached
  latched : List Nat
  events : List ShimEvent

def ShimOut.none : ShimOut := ⟨[], [], []⟩

namespace ShimConn

def new : ShimConn := ⟨.new, .new, none, 0, false⟩

/-- The frames the outbox still takes. -/
def room (c : ShimConn) : Nat := maxOutboxFrames - c.outbox

/-- Send a turn's events. One that is not taken closes the connection. -/
def post (turn : ShimTurn) (takes : Nat) : ShimConn × ShimOut :=
  if turn.events.length ≤ takes then (turn.conn, ⟨turn.attached, turn.latched, turn.events⟩)
  else (turn.conn.close, ⟨[], [], turn.events.take takes⟩)

/-- A frame has been presented: the events owed go out, as far as the outbox takes them. -/
def present (c : ShimConn) (timeMs : Nat) : ShimConn × ShimOut :=
  let x := ShimServer.presented c.server.owedFrameDones c.room
  ({ c with server := { c.server with owedFrameDones := x.2 }, outbox := c.outbox + x.1.length },
    ⟨[], [], x.1.map fun surface => .frameDone surface timeMs⟩)

end ShimConn

def shimStep : Machine ShimConn ShimOp ShimOut := fun c op =>
  if c.closed then (c, .none)
  else match op with
    | .message m env takes => match c.handleMessage m env with
      | .error _ => (c.close, .none)
      | .ok turn => ShimConn.post turn takes
    | .presented timeMs => c.present timeMs
    | .seat frames => ({ c with outbox := min maxOutboxFrames (c.outbox + frames) }, .none)
    | .drain => ({ c with outbox := 0 }, .none)

end Vitrin
