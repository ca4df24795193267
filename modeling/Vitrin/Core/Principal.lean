import Vitrin.Core.Enforcement
import Mathlib.Logic.Relation

/-!
# A principal's connection

The server side of one agent's connection. It speaks first to the handshake object,
is bound to the identity its credential is verified to be, and then mints objects:
realms, grant handles with their facets, more facets of a handle. A facet's requests
are uses and go to the chokepoint. A message that breaks a rule is fatal.

A `Message` is a header together with how its body reads under each request's
signature; the codec is not modelled here, so a message stands for any byte string.
A `Turn` is all that serving a message can change: the server, the stores of
authority, the attention signal, the wire, and the calls made of the effect sinks.
Handlers take a turn to a turn and a result, in the order of the source's statements;
what they only report to the recorder is left out. What serving a message can do is said,
once, in `Core/Acts`.
-/

namespace Vitrin

open Lib

/-! ### Messages -/

/-- Why a body did not decode: the fatal code it stands for, and its text. -/
structure DecodeError where
  toWireError : WireError
  text : String
  deriving DecidableEq

/-- The arguments of `hello`. -/
structure Hello where
  version : Nat
  principal : WireId
  identity : String
  credentialType : String
  credential : String

/-- The arguments of `request_grant`. -/
structure RequestGrant where
  grant : WireId
  consent : WireId
  view : WireId
  pointer : WireId
  text : WireId
  resource : String
  verbs : Verb
  expiryMs : UInt32
  maxEventRate : UInt32
  persistence : WirePersistence
  flags : UInt32

/-- The requests a principal can make. -/
inductive Request where
  | hello
  | sync
  | getRealm
  | requestGrant
  | getLauncher
  | getLayoutFocus
  | getLayoutArrange
  | getPowerbox
  | getEgress
  | captureFrame
  | move
  | button
  | scroll
  | type
  | launch
  | focus
  | setFullscreen
  | requestFile
  | requestDir
  | requestConnect
  deriving DecidableEq

namespace Request

def opcode : Request → Nat
  | hello | getRealm | requestGrant | getLauncher | captureFrame | move | type | launch | focus | setFullscreen
  | requestFile | requestConnect => 0
  | sync | getLayoutFocus | button | requestDir => 1
  | getLayoutArrange | scroll => 2
  | getPowerbox => 3
  | getEgress => 4

def Args : Request → Type
  | hello => Hello
  | sync => Nat
  | getRealm => WireId × String
  | requestGrant => RequestGrant
  | getLauncher | getLayoutFocus | getLayoutArrange | getPowerbox | getEgress => WireId
  | captureFrame | launch | focus | requestDir => Unit
  | move => Int × Int
  | button => Nat × PressState
  | scroll => Axis × Int
  | type => String
  | setFullscreen => LayoutMode
  | requestFile => Bool
  | requestConnect => String × Nat

end Request

/-- A message: its header, and how its body reads under each request's signature. -/
structure Message where
  objectId : WireId
  opcode : Nat
  decode : (request : Request) → Except DecodeError request.Args

/-! ### Violations and faults -/

def handshakeId : WireId := 1

def clientIdMax : WireId := 0xfeffffff

def protocolVersion : Nat := 2

def authRefusedPhrase : String := "authentication refused"

/-- A broken rule; each is fatal. -/
inductive PrincipalViolation where
  | preHandshake (objectId : WireId) (opcode : Nat)
  | versionUnsupported (offered : Nat)
  | authFailed (claimedIdentity credentialType : String) (credentialLen : Nat) (cause : String)
  | secondHello
  | unknownOpcode (objectId : WireId) (opcode : Nat)
  | invalidObject (objectId : WireId) (detail : String)
  | malformed (objectId : WireId) (source : DecodeError)
  | zeroVerbs (objectId : WireId)
  | forbiddenControl (objectId : WireId) (codepoint : Nat)
  | portOutOfRange (objectId : WireId) (port : Nat)
  | resourceExhausted (detail : String)
  | serverError (objectId : WireId) (detail : String)
  | connectionDead
  deriving DecidableEq

namespace PrincipalViolation

def wireCode : PrincipalViolation → WireError
  | preHandshake .. => .preHandshake
  | versionUnsupported _ => .versionUnsupported
  | authFailed .. => .authFailed
  | secondHello | unknownOpcode .. => .invalidOpcode
  | invalidObject .. => .invalidObject
  | malformed _ source => source.toWireError
  | zeroVerbs _ | forbiddenControl .. | portOutOfRange .. => .invalidArgument
  | resourceExhausted _ => .resourceExhausted
  | serverError .. | connectionDead => .internal

def citedObject : PrincipalViolation → WireId
  | preHandshake objectId _ | unknownOpcode objectId _ | invalidObject objectId _ | malformed objectId _
  | zeroVerbs objectId | forbiddenControl objectId _ | portOutOfRange objectId _ | serverError objectId _ => objectId
  | _ => handshakeId

/-- A code point in upper-case hexadecimal, at least four digits. -/
def hex4 (n : Nat) : String :=
  let digits := (Nat.toDigits 16 n).map Char.toUpper
  String.ofList (List.replicate (4 - digits.length) '0' ++ digits)

def wireMessage : PrincipalViolation → String
  | preHandshake .. => "traffic before hello"
  | versionUnsupported _ => "protocol version not implemented"
  | authFailed .. => authRefusedPhrase
  | secondHello => "hello is legal exactly once"
  | unknownOpcode _ opcode => "opcode " ++ toString opcode ++ " is not defined for this object"
  | invalidObject _ detail => detail
  | malformed _ source => source.text
  | zeroVerbs _ => "petition verb set is empty"
  | forbiddenControl _ codepoint => "text contains forbidden control character U+" ++ hex4 codepoint
  | portOutOfRange _ port => "port " ++ toString port ++ " is outside 1-65535"
  | resourceExhausted detail => detail
  | serverError .. => "server-side failure"
  | connectionDead => "connection already dead"

end PrincipalViolation

/-- Why a connection died. -/
inductive PrincipalFault where
  | violation (v : PrincipalViolation)
  | transport (err : TransportError)
  deriving DecidableEq

inductive DeliveryError where
  | wrongConnection (expected got : ConnectionId)
  | connectionDead
  | unknownGrantObject (wireId : WireId)
  | alreadyResolved (wireId : WireId)
  | insert (err : InsertError)
  | transport (err : TransportError)
  deriving DecidableEq

def DeliveryError.text : DeliveryError → String
  | wrongConnection expected got => "resolution for conn-" ++ toString got ++ " routed to conn-" ++ toString expected
  | connectionDead => "connection dead or torn down; resolution dropped"
  | unknownGrantObject wireId => "no grant handle with wire id " ++ toString wireId
  | alreadyResolved wireId => "grant handle " ++ toString wireId ++ " already resolved (exactly-once)"
  | insert err => "delivery-time grant insert failed: " ++ err.text
  | transport err => "transport: " ++ err.detail

/-! ### Objects -/

inductive Phase where
  | connected
  | bound
  | dead
  deriving DecidableEq

/-- A handle is pending until its petition's resolution is delivered, once. -/
inductive GrantHandleState where
  | pending
  | resolved (row : Option GrantId)
  deriving DecidableEq

/-- The objects uses come in on. -/
inductive Facet where
  | view
  | pointer
  | text
  | launcher
  | layoutFocus
  | layoutArrange
  | powerbox
  | egress
  deriving DecidableEq

inductive ObjectKind where
  | realm (name : String)
  | grant (state : GrantHandleState)
  | consent
  | facet (facet : Facet) (grant : WireId)
  deriving DecidableEq

inductive Counted where
  | realms
  | petitions
  | launchers
  | layoutFacets
  | powerboxes
  | egressFacets
  deriving DecidableEq

def Counted.cap : Counted → Nat
  | realms => 16
  | petitions | launchers | powerboxes | egressFacets => 256
  | layoutFacets => 512

/-- What a client is told that hit the cap. -/
def Counted.exceeded : Counted → String
  | realms => "live-realm cap exceeded"
  | petitions => "live-petition cap exceeded"
  | launchers => "live-launcher cap exceeded"
  | layoutFacets => "live-layout-facet cap exceeded"
  | powerboxes => "live-powerbox cap exceeded"
  | egressFacets => "live-egress-facet cap exceeded"

def petitionRateBurst : Nat := 8

def petitionRefill : Duration := secs 1

structure PeerCred where
  pid : Option Int
  uid : Nat
  gid : Nat

/-! ### The server -/

structure PrincipalServer where
  phase : Phase
  peer : PeerCred
  connection : ConnectionId
  /-- The largest id minted; every new one is larger. -/
  watermark : WireId
  principalId : Option WireId
  identity : Option PrincipalIdentity
  objects : OrdMap WireId ObjectKind
  counts : Counted → Nat
  petitionTokens : Nat
  petitionRefillAnchor : Option Instant
  chokepoint : Chokepoint

namespace PrincipalServer

def new (peer : PeerCred) (connection : ConnectionId) : PrincipalServer where
  phase := .connected
  peer
  connection
  watermark := handshakeId
  principalId := none
  identity := none
  objects := .empty
  counts _ := 0
  petitionTokens := petitionRateBurst
  petitionRefillAnchor := none
  chokepoint := .new

def grantRowId (s : PrincipalServer) (grantWireId : WireId) : Option GrantId :=
  match s.objects.get? grantWireId with
  | some (.grant (.resolved row)) => row
  | _ => none

def allocateId (s : PrincipalServer) (id : WireId) : Except PrincipalViolation PrincipalServer :=
  if clientIdMax ≤ s.watermark then .error (.resourceExhausted "object-id space exhausted")
  else if id ≤ s.watermark ∨ clientIdMax < id then
    .error (.invalidObject id "new_id at/below the watermark or outside the client range")
  else .ok { s with watermark := id }

/-- Mint ids in order, until one is refused. -/
def allocateIds (s : PrincipalServer) : List WireId → PrincipalServer × Except PrincipalViolation Unit
  | [] => (s, .ok ())
  | id :: ids => match s.allocateId id with
    | .error v => (s, .error v)
    | .ok s => s.allocateIds ids

def bump (s : PrincipalServer) (counted : Counted) : PrincipalServer :=
  { s with counts := Function.update s.counts counted (s.counts counted + 1) }

def addObject (s : PrincipalServer) (id : WireId) (kind : ObjectKind) : PrincipalServer :=
  { s with objects := s.objects.insert id kind }

/-- Put a petition's five objects into the table. -/
def addPetition (s : PrincipalServer) (req : RequestGrant) : PrincipalServer :=
  ((((((s.addObject req.grant (.grant .pending)).addObject req.consent .consent).addObject req.view
    (.facet .view req.grant)).addObject req.pointer (.facet .pointer req.grant)).addObject req.text
    (.facet .text req.grant))).bump .petitions

/-- Take a petition token; whole seconds since the anchor are credited first. -/
def takePetitionToken (s : PrincipalServer) (now : Instant) : PrincipalServer × Bool :=
  let taken := Bucket.take petitionRateBurst petitionRefill ⟨s.petitionTokens, s.petitionRefillAnchor.getD now⟩ now
  ({ s with petitionTokens := taken.1.tokens, petitionRefillAnchor := some taken.1.anchor }, taken.2)

end PrincipalServer

inductive VerifyOutcome where
  | bound (identity : PrincipalIdentity)
  | rejected (cause : String)
  | unavailable (detail : String)
  deriving DecidableEq

structure PresentedCredential where
  claimedIdentity : String
  credentialType : String
  credential : String
  peer : PeerCred

/-- What a message is served against, besides the stores. -/
structure ServerCtx where
  verify : PresentedCredential → VerifyOutcome
  realms : RealmRegistry
  now : Instant
  realmView : RealmId → Option RealmViewFrame
  realmIsLive : RealmId → Bool
  physicalRealm : Option RealmId
  presence : PhysicalPresenceMap
  launch : LaunchAsk → Except LaunchRefusal RealmId
  designate : DesignateAsk → Except DesignateRefusal DesignationId
  memfd : Bool

/-- What serving a message can change. -/
structure Turn where
  server : PrincipalServer
  petitions : PetitionRegistry
  grants : GrantTable
  attention : AttentionSignal
  wire : Wire
  calls : List SinkCall

def Message.read (msg : Message) (request : Request) : Except PrincipalViolation request.Args :=
  (msg.decode request).mapError (.malformed msg.objectId)

def Message.unknownOpcode (msg : Message) : PrincipalViolation := .unknownOpcode msg.objectId msg.opcode

def forbiddenControl (c : Char) : Bool :=
  (c.toNat ≤ 0x1f || (0x7f ≤ c.toNat && c.toNat ≤ 0x9f)) && c != '\n' && c != '\t'

def Facet.useOf (facet : Facet) (msg : Message) : Except PrincipalViolation UseKind := match facet with
  | .view =>
    if msg.opcode = Request.captureFrame.opcode then (msg.read .captureFrame).map fun _ => .capture
    else .error msg.unknownOpcode
  | .pointer =>
    if msg.opcode = Request.move.opcode then
      (msg.read .move).map fun (at' : Int × Int) => .pointer (.motion (.finite at'.1) (.finite at'.2))
    else if msg.opcode = Request.button.opcode then
      (msg.read .button).map fun (b : Nat × PressState) => .pointer (.button b.1 b.2)
    else if msg.opcode = Request.scroll.opcode then
      (msg.read .scroll).map fun (v : Axis × Int) => .pointer (.scroll v.1 v.2)
    else .error msg.unknownOpcode
  | .text =>
    if msg.opcode = Request.type.opcode then do
      let text : String ← msg.read .type
      match text.toList.find? forbiddenControl with
      | some c => .error (.forbiddenControl msg.objectId c.toNat)
      | none => .ok (.text (.text text))
    else .error msg.unknownOpcode
  | .launcher =>
    if msg.opcode = Request.launch.opcode then (msg.read .launch).map fun _ => .launch
    else .error msg.unknownOpcode
  | .layoutFocus =>
    if msg.opcode = Request.focus.opcode then (msg.read .focus).map fun _ => .layoutFocus
    else .error msg.unknownOpcode
  | .layoutArrange =>
    if msg.opcode = Request.setFullscreen.opcode then
      (msg.read .setFullscreen).map fun (mode : LayoutMode) => .layoutArrange mode
    else .error msg.unknownOpcode
  | .powerbox =>
    if msg.opcode = Request.requestFile.opcode then
      (msg.read .requestFile).map fun (write : Bool) => .designate (.file write)
    else if msg.opcode = Request.requestDir.opcode then (msg.read .requestDir).map fun _ => .designate .dir
    else .error msg.unknownOpcode
  | .egress =>
    if msg.opcode = Request.requestConnect.opcode then do
      let endpoint : String × Nat ← msg.read .requestConnect
      if 1 ≤ endpoint.2 ∧ endpoint.2 ≤ 65535 then .ok .egress
      else .error (.portOutOfRange msg.objectId endpoint.2)
    else .error msg.unknownOpcode

namespace Turn

def fail (t : Turn) (v : PrincipalViolation) : Turn × Except PrincipalFault Unit := (t, .error (.violation v))

def emit (t : Turn) (event : Event) : Turn × Except TransportError Unit :=
  let sent := t.wire.send event
  ({ t with wire := sent.1 }, sent.2)

def send (t : Turn) (event : Event) : Turn × Except PrincipalFault Unit :=
  ((t.emit event).1, (t.emit event).2.mapError .transport)

/-- The use a facet's request is put to the chokepoint as. -/
def useRequest (t : Turn) (facetId grantWireId : WireId) (identity : PrincipalIdentity) (kind : UseKind) :
    UseRequest where
  facetId
  grantWireId
  grantRow := t.server.grantRowId grantWireId
  principal := identity
  kind

/-- What it is judged and performed against: the realm of the handle's row, and what that shows while it lives. -/
def useEnv (t : Turn) (ctx : ServerCtx) (grantWireId : WireId) (kind : UseKind) : UseEnv :=
  let realm := (t.server.grantRowId grantWireId).bind t.grants.realmOf
  { realmView := (realm.filter ctx.realmIsLive).bind ctx.realmView
    presence := ctx.presence
    physicalRealm := ctx.physicalRealm
    grantRealm := if kind.namesARealm then realm else none
    launch := ctx.launch
    designate := ctx.designate
    memfd := ctx.memfd }

/-- The chokepoint's answer to a facet's request. -/
def enforced (t : Turn) (ctx : ServerCtx) (facetId grantWireId : WireId) (identity : PrincipalIdentity)
    (kind : UseKind) : Chokepoint.Enforced :=
  t.server.chokepoint.enforceUse (t.useRequest facetId grantWireId identity kind) t.grants t.petitions t.attention
    (t.useEnv ctx grantWireId kind) ctx.now t.wire

/-- Take over what a use left behind. -/
def absorb (t : Turn) (r : Chokepoint.Enforced) : Turn where
  server := { t.server with chokepoint := r.chokepoint }
  petitions := t.petitions
  grants := r.grants
  attention := r.attention
  wire := r.wire
  calls := t.calls ++ r.calls

def serveFacetUse (t : Turn) (ctx : ServerCtx) (facetId grantWireId : WireId) (kind : UseKind) :
    Turn × Except PrincipalFault Unit :=
  match t.server.identity with
  | none => t.fail (.serverError facetId "facet use dispatched with no bound identity")
  | some identity =>
    let r := t.enforced ctx facetId grantWireId identity kind
    (t.absorb r, match r.result with
      | .error err => .error (.transport err)
      | .ok _ => .ok ())

/-- Settle a bound credential: the connection is bound once the client has been told. -/
def bindTo (t : Turn) (principal : WireId) (identity : PrincipalIdentity) : Turn × Except PrincipalFault Unit :=
  match t.send (.bound principal identity) with
  | (t, .error fault) => (t, .error fault)
  | (t, .ok _) =>
    ({ t with server := { t.server with principalId := some principal, phase := .bound, identity := some identity } },
      .ok ())

def handleHello (t : Turn) (ctx : ServerCtx) (msg : Message) : Turn × Except PrincipalFault Unit :=
  match msg.read .hello with
  | .error v => t.fail v
  | .ok (hello : Hello) =>
    if hello.version ≠ protocolVersion then t.fail (.versionUnsupported hello.version)
    else match t.server.allocateId hello.principal with
      | .error v => t.fail v
      | .ok server =>
        let t := { t with server }
        let refused (cause : String) : Turn × Except PrincipalFault Unit :=
          t.fail (.authFailed hello.identity hello.credentialType hello.credential.utf8ByteSize cause)
        match ctx.verify ⟨hello.identity, hello.credentialType, hello.credential, t.server.peer⟩ with
        | .bound identity => t.bindTo hello.principal identity
        | .rejected cause => refused cause
        | .unavailable detail => refused ("verifier unavailable: " ++ detail)

/-- Mint one object: under the cap of its kind, at a fresh id. -/
def mintObject (t : Turn) (counted : Counted) (decoded : Except PrincipalViolation (WireId × ObjectKind)) :
    Turn × Except PrincipalFault Unit :=
  match decoded with
  | .error v => t.fail v
  | .ok (id, kind) =>
    if counted.cap ≤ t.server.counts counted then t.fail (.resourceExhausted counted.exceeded)
    else match t.server.allocateId id with
      | .error v => t.fail v
      | .ok server => ({ t with server := (server.addObject id kind).bump counted }, .ok ())

def handleGetRealm (t : Turn) (msg : Message) : Turn × Except PrincipalFault Unit :=
  t.mintObject .realms ((msg.read .getRealm).map fun (a : WireId × String) => (a.1, .realm a.2))

def handleGetLauncher (t : Turn) (msg : Message) : Turn × Except PrincipalFault Unit :=
  t.mintObject .launchers ((msg.read .getLauncher).map fun (id : WireId) => (id, .facet .launcher msg.objectId))

def handleGetLayoutFocus (t : Turn) (msg : Message) : Turn × Except PrincipalFault Unit :=
  t.mintObject .layoutFacets
    ((msg.read .getLayoutFocus).map fun (id : WireId) => (id, .facet .layoutFocus msg.objectId))

def handleGetLayoutArrange (t : Turn) (msg : Message) : Turn × Except PrincipalFault Unit :=
  t.mintObject .layoutFacets
    ((msg.read .getLayoutArrange).map fun (id : WireId) => (id, .facet .layoutArrange msg.objectId))

def handleGetPowerbox (t : Turn) (msg : Message) : Turn × Except PrincipalFault Unit :=
  t.mintObject .powerboxes ((msg.read .getPowerbox).map fun (id : WireId) => (id, .facet .powerbox msg.objectId))

def handleGetEgress (t : Turn) (msg : Message) : Turn × Except PrincipalFault Unit :=
  t.mintObject .egressFacets ((msg.read .getEgress).map fun (id : WireId) => (id, .facet .egress msg.objectId))

/-! ### Resolutions -/

def setResolved (t : Turn) (grantWireId : WireId) (row : Option GrantId) : Turn :=
  { t with server := t.server.addObject grantWireId (.grant (.resolved row)) }

/-- What the client is told of a decision; a declined petition confers nothing. -/
def resolvedEvent (resolution : Resolution) : Event := match resolution.verdict with
  | .granted approved =>
    .resolved resolution.grantWireId .granted approved.effective.verbs approved.effective.persistence.toWire
      approved.effective.expiryMs
  | .declined outcome => .resolved resolution.grantWireId outcome ⟨0#32, by decide⟩ .once 0

/-- Tell the client a petition was decided, after its prompt closed. -/
def announce (t : Turn) (resolution : Resolution) : Turn × Except TransportError Unit :=
  let closed := if resolution.emitClosed then t.emit (.consentState resolution.consentWireId .closed) else (t, .ok ())
  match closed.2 with
  | .error err => (closed.1, .error err)
  | .ok _ => closed.1.emit (resolvedEvent resolution)

/-- Deliver a decision to this connection: mint the row, resolve the handle, tell the client. -/
def deliverResolution (t : Turn) (resolution : Resolution) (now : Instant) : Turn × Except DeliveryError Unit :=
  if resolution.connection ≠ t.server.connection then
    (t, .error (.wrongConnection t.server.connection resolution.connection))
  else if t.server.phase ≠ .bound then (t, .error .connectionDead)
  else match t.server.objects.get? resolution.grantWireId with
    | some (.grant .pending) => match resolution.verdict with
      | .granted approved => match approved.insertRow t.grants now with
        | .ok (grants, id) =>
          let told := (({ t with grants }).setResolved resolution.grantWireId (some id)).announce resolution
          (told.1, told.2.mapError .transport)
        | .error err =>
          let t := { t with server := { t.server with phase := .dead } }
          ((t.emit (.error resolution.grantWireId .internal "server-side failure")).1, .error (.insert err))
      | .declined _ =>
        let told := (t.setResolved resolution.grantWireId none).announce resolution
        (told.1, told.2.mapError .transport)
    | some (.grant (.resolved _)) => (t, .error (.alreadyResolved resolution.grantWireId))
    | _ => (t, .error (.unknownGrantObject resolution.grantWireId))

def deliveryFault (objectId : WireId) : DeliveryError → PrincipalFault
  | .transport err => .transport err
  | err => .violation (.serverError objectId err.text)

/-- The registry's answer to a petition, with what the table says of the exclusive layout verb. -/
def admitted (t : Turn) (ctx : ServerCtx) (request : PetitionRequest) : PetitionRegistry × Admission :=
  t.petitions.admitPetition request ctx.now ctx.realms (t.grants.anyLiveHolderOf .layoutArrange ctx.now)

/-- Put a petition to the registry; park it or deliver its resolution on the spot. -/
def petition (t : Turn) (ctx : ServerCtx) (objectId : WireId) (request : PetitionRequest) :
    Turn × Except PrincipalFault Unit :=
  match (t.admitted ctx request).2 with
  | .pending _ =>
    ({ t with petitions := (t.admitted ctx request).1 }).send (.consentState request.consentWireId .queued)
  | .resolved resolution =>
    let delivered := ({ t with petitions := (t.admitted ctx request).1 }).deliverResolution resolution ctx.now
    (delivered.1, delivered.2.mapError (deliveryFault objectId))

def handleRequestGrant (t : Turn) (ctx : ServerCtx) (msg : Message) (realmName : String) :
    Turn × Except PrincipalFault Unit :=
  match msg.read .requestGrant with
  | .error v => t.fail v
  | .ok (req : RequestGrant) =>
    if hverbs : req.verbs.bits = 0#32 then t.fail (.zeroVerbs msg.objectId)
    else if Counted.petitions.cap ≤ t.server.counts .petitions then
      t.fail (.resourceExhausted Counted.petitions.exceeded)
    else
      let taken := t.server.takePetitionToken ctx.now
      if !taken.2 then ({ t with server := taken.1 }).fail (.resourceExhausted "petition-rate ceiling exceeded")
      else match taken.1.allocateIds [req.grant, req.consent, req.view, req.pointer, req.text] with
        | (server, .error v) => ({ t with server }).fail v
        | (server, .ok _) =>
          let t := { t with server := server.addPetition req }
          match t.server.identity with
          | none => t.fail (.serverError msg.objectId "petition dispatched with no bound identity")
          | some identity =>
            t.petition ctx msg.objectId
              { connection := t.server.connection
                identity
                realmName
                grantWireId := req.grant
                consentWireId := req.consent
                resource := req.resource
                verbs := req.verbs
                expiryMs := req.expiryMs
                maxEventRate := req.maxEventRate
                persistence := req.persistence
                flags := req.flags
                nonEmpty := hverbs }

/-! ### Dispatch -/

def dispatchObject (t : Turn) (ctx : ServerCtx) (msg : Message) : ObjectKind → Turn × Except PrincipalFault Unit
  | .realm name =>
    if msg.opcode = Request.requestGrant.opcode then t.handleRequestGrant ctx msg name
    else t.fail msg.unknownOpcode
  | .grant _ =>
    if msg.opcode = Request.getLauncher.opcode then t.handleGetLauncher msg
    else if msg.opcode = Request.getLayoutFocus.opcode then t.handleGetLayoutFocus msg
    else if msg.opcode = Request.getLayoutArrange.opcode then t.handleGetLayoutArrange msg
    else if msg.opcode = Request.getPowerbox.opcode then t.handleGetPowerbox msg
    else if msg.opcode = Request.getEgress.opcode then t.handleGetEgress msg
    else t.fail msg.unknownOpcode
  | .consent => t.fail msg.unknownOpcode
  | .facet facet grant => match facet.useOf msg with
    | .error v => t.fail v
    | .ok kind => t.serveFacetUse ctx msg.objectId grant kind

/-- A request on the handshake object of a bound connection. -/
def dispatchHandshake (t : Turn) (msg : Message) : Turn × Except PrincipalFault Unit :=
  if msg.opcode = Request.hello.opcode then t.fail .secondHello
  else if msg.opcode = Request.sync.opcode then match msg.read .sync with
    | .error v => t.fail v
    | .ok (cookie : Nat) => t.send (.done cookie)
  else t.fail msg.unknownOpcode

def dispatch (t : Turn) (ctx : ServerCtx) (msg : Message) : Turn × Except PrincipalFault Unit :=
  match t.server.phase with
  | .dead => t.fail .connectionDead
  | .connected =>
    if msg.objectId = handshakeId ∧ msg.opcode = Request.hello.opcode then t.handleHello ctx msg
    else t.fail (.preHandshake msg.objectId msg.opcode)
  | .bound =>
    if msg.objectId = handshakeId then t.dispatchHandshake msg
    else if t.server.principalId = some msg.objectId then
      if msg.opcode = Request.getRealm.opcode then t.handleGetRealm msg else t.fail msg.unknownOpcode
    else match t.server.objects.get? msg.objectId with
      | some kind => t.dispatchObject ctx msg kind
      | none => t.fail (.invalidObject msg.objectId "unknown or foreign object id")

/-- The end of a connection at a fault: a violation is said goodbye to, unless the connection was dead already. -/
def goodbye (t : Turn) : PrincipalFault → Turn
  | .violation v =>
    let dead := { t with server := { t.server with phase := .dead } }
    if t.server.phase = .dead then dead else (dead.emit (.error v.citedObject v.wireCode v.wireMessage)).1
  | .transport _ => { t with server := { t.server with phase := .dead } }

/-- Serve a message; a fault kills the connection. -/
def handleMessage (t : Turn) (ctx : ServerCtx) (msg : Message) : Turn × Except PrincipalFault Unit :=
  match t.dispatch ctx msg with
  | (t, .ok _) => (t, .ok ())
  | (t, .error fault) => (t.goodbye fault, .error fault)

end Turn

/-- Remove the rows the handles of an object table name. -/
def removeRows (grants : GrantTable) : List (WireId × ObjectKind) → GrantTable
  | [] => grants
  | (_, .grant (.resolved (some id))) :: objects => removeRows (grants.remove id).1 objects
  | _ :: objects => removeRows grants objects

/-- The end of a connection: its petitions are withdrawn and its rows removed. -/
def PrincipalServer.teardown (s : PrincipalServer) (petitions : PetitionRegistry) (grants : GrantTable) :
    PrincipalServer × PetitionRegistry × GrantTable :=
  ({ s with phase := .dead }, (petitions.withdrawConnection s.connection).1, removeRows grants s.objects.entries)

end Vitrin
