import Vitrin.Core.Principal

/-!
# What serving a message can do

The handlers of a connection are many and their error paths more. Here it is said
once, and for every message, what all of them can do to the connection and the
stores.

`Act` is one thing serving a message can do: objects are minted at fresh ids (or only
the phase, the wire and the counters move), the connection is bound to a verified
identity, a petition is filed and parked, or a petition is filed and settled on the
spot. `Uses` is the use of a facet. `Settles` is the delivery of a resolution, which
the session also makes on its own.

`handleMessage_served`: serving a message is a sequence of acts, or a use after which
nothing but acts follows. `deliverResolution_cases`: delivering a resolution settles a
pending handle or changes nothing but the phase and the wire.
-/

namespace Vitrin

open Lib Relation

/-! ### Minting -/

/-- The message mints `id` as a facet of the handle `grant`: with the handle itself, or on it. -/
def Message.Mints (msg : Message) (id : WireId) (facet : Facet) (grant : WireId) : Prop := match facet with
  | .view => ∃ req : RequestGrant, msg.decode .requestGrant = .ok req ∧ req.grant = grant ∧ req.view = id
  | .pointer => ∃ req : RequestGrant, msg.decode .requestGrant = .ok req ∧ req.grant = grant ∧ req.pointer = id
  | .text => ∃ req : RequestGrant, msg.decode .requestGrant = .ok req ∧ req.grant = grant ∧ req.text = id
  | .launcher => msg.objectId = grant ∧ msg.decode .getLauncher = .ok id
  | .layoutFocus => msg.objectId = grant ∧ msg.decode .getLayoutFocus = .ok id
  | .layoutArrange => msg.objectId = grant ∧ msg.decode .getLayoutArrange = .ok id
  | .powerbox => msg.objectId = grant ∧ msg.decode .getPowerbox = .ok id
  | .egress => msg.objectId = grant ∧ msg.decode .getEgress = .ok id

variable (s : PrincipalServer) {kind : ObjectKind}

namespace PrincipalServer

def Below (s : PrincipalServer) : Prop := ∀ id kind, s.objects.get? id = some kind → id ≤ s.watermark

/-- An object a message may add: no resolved handle, and a facet only of a handle that is there. -/
def Fresh (msg : Message) (s : PrincipalServer) (id : WireId) : ObjectKind → Prop
  | .grant (.resolved _) => False
  | .facet facet grant => msg.Mints id facet grant ∧ ∃ state, s.objects.get? grant = some (.grant state)
  | _ => True

variable {msg : Message} {id : WireId}

theorem Fresh.mono {s s' : PrincipalServer} (h : s.Fresh msg id kind)
    (hold : ∀ g st, s.objects.get? g = some (.grant st) → s'.objects.get? g = some (.grant st)) :
    s'.Fresh msg id kind := by
  cases kind with
  | facet f g =>
    obtain ⟨hm, st, hs⟩ := h
    exact ⟨hm, st, hold g st hs⟩
  | grant st => cases st <;> exact h
  | realm | consent => exact trivial

/-- Objects were added at ids above the watermark; what was there is there. -/
structure Grows (msg : Message) (s s' : PrincipalServer) : Prop where
  connection : s'.connection = s.connection
  peer : s'.peer = s.peer
  identity : s'.identity = s.identity
  phase : s'.phase = s.phase ∨ s'.phase = .dead
  watermark : s.watermark ≤ s'.watermark
  old : ∀ id kind, s.objects.get? id = some kind → s'.objects.get? id = some kind
  new : ∀ id kind, s'.objects.get? id = some kind →
    s.objects.get? id = some kind ∨ (s.watermark < id ∧ id ≤ s'.watermark ∧ s'.Fresh msg id kind)

theorem Grows.of_objects {s s' : PrincipalServer} (hc : s'.connection = s.connection ∧ s'.peer = s.peer)
    (hi : s'.identity = s.identity) (hp : s'.phase = s.phase ∨ s'.phase = .dead)
    (hm : s.watermark ≤ s'.watermark) (hob : s'.objects = s.objects) : Grows msg s s' where
  connection := hc.1
  peer := hc.2
  identity := hi
  phase := hp
  watermark := hm
  old _ _ h := hob ▸ h
  new _ _ h := .inl (hob ▸ h)

theorem Grows.trans {s s' s'' : PrincipalServer} (h₁ : Grows msg s s') (h₂ : Grows msg s' s'') : Grows msg s s'' where
  connection := h₂.connection.trans h₁.connection
  peer := h₂.peer.trans h₁.peer
  identity := h₂.identity.trans h₁.identity
  phase := by
    rcases h₂.phase with h | h
    · exact h ▸ h₁.phase
    · exact .inr h
  watermark := h₁.watermark.trans h₂.watermark
  old id kind h := h₂.old id kind (h₁.old id kind h)
  new id kind h := by
    rcases h₂.new id kind h with h' | ⟨hlt, hl, hf⟩
    · rcases h₁.new id kind h' with h' | ⟨hlt, hl, hf⟩
      · exact .inl h'
      · exact .inr ⟨hlt, hl.trans h₂.watermark, hf.mono fun g st => h₂.old g (.grant st)⟩
    · exact .inr ⟨h₁.watermark.trans_lt hlt, hl, hf⟩

theorem takePetitionToken_same (now : Instant) :
    (s.takePetitionToken now).1.phase = s.phase ∧
      ((s.takePetitionToken now).1.connection = s.connection ∧ (s.takePetitionToken now).1.peer = s.peer) ∧
      (s.takePetitionToken now).1.identity = s.identity ∧ (s.takePetitionToken now).1.objects = s.objects ∧
      (s.takePetitionToken now).1.watermark = s.watermark :=
  ⟨rfl, ⟨rfl, rfl⟩, rfl, rfl, rfl⟩

theorem allocateId_eq_ok {s s' : PrincipalServer} (h : s.allocateId id = .ok s') :
    s' = { s with watermark := id } ∧ s.watermark < id := by
  unfold allocateId at h
  split_ifs at h with hm hi
  cases h
  exact ⟨rfl, not_le.mp fun hl => hi (.inl hl)⟩

/-- Ids are minted in strictly increasing order, and nothing else is touched. -/
theorem allocateIds_spec (i : List WireId) :
    ∃ m, (s.allocateIds i).1 = { s with watermark := m } ∧ s.watermark ≤ m ∧
      ((s.allocateIds i).2 = .ok () → i.Pairwise (· < ·) ∧ ∀ id ∈ i, s.watermark < id ∧ id ≤ m) := by
  induction i generalizing s with
  | nil => exact ⟨s.watermark, rfl, le_rfl, fun _ => ⟨.nil, by simp⟩⟩
  | cons id i ih =>
    unfold allocateIds
    cases ha : s.allocateId id with
    | error v => exact ⟨s.watermark, rfl, le_rfl, fun h => nomatch h⟩
    | ok s₁ =>
      obtain ⟨rfl, hi⟩ := allocateId_eq_ok ha
      obtain ⟨m, hs, hl, hok⟩ := ih { s with watermark := id }
      refine ⟨m, hs, hi.le.trans hl, fun h => ?_⟩
      obtain ⟨hp, hm⟩ := hok h
      refine ⟨List.pairwise_cons.mpr ⟨fun i' h' => (hm i' h').1, hp⟩, fun i' h' => ?_⟩
      rcases List.mem_cons.mp h' with rfl | h'
      · exact ⟨hi, hl⟩
      · exact ⟨hi.trans (hm i' h').1, (hm i' h').2⟩

theorem grows_addObject {s : PrincipalServer} (hb : s.Below) (hi : s.watermark < id)
    (hf : s.Fresh msg id kind) (c : Counted) :
    Grows msg s ((({ s with watermark := id } : PrincipalServer).addObject id kind).bump c) where
  connection := rfl
  peer := rfl
  identity := rfl
  phase := .inl rfl
  watermark := hi.le
  old id' k' h := by
    have hn : id' ≠ id := ((hb id' k' h).trans_lt hi).ne
    simpa [bump, addObject, OrdMap.get?_insert_of_ne hn] using h
  new id' k' h := by
    by_cases hn : id' = id
    · subst hn
      obtain rfl : kind = k' := by simpa [bump, addObject] using h
      refine .inr ⟨hi, le_rfl, hf.mono fun g st hs => ?_⟩
      have hn : g ≠ id' := ((hb g _ hs).trans_lt hi).ne
      simpa [bump, addObject, OrdMap.get?_insert_of_ne hn] using hs
    · exact .inl (by simpa [bump, addObject, OrdMap.get?_insert_of_ne hn] using h)

variable {req : RequestGrant}

theorem get?_addPetition : (s.addPetition req).objects.get? id =
      if id = req.text then some (.facet .text req.grant)
      else if id = req.pointer then some (.facet .pointer req.grant)
      else if id = req.view then some (.facet .view req.grant)
      else if id = req.consent then some .consent
      else if id = req.grant then some (.grant .pending)
      else s.objects.get? id := by
  simp [addPetition, bump, addObject, OrdMap.get?_insert]

/-- A petition's five objects are added at freshly allocated ids. -/
theorem grows_addPetition {s : PrincipalServer} (hb : s.Below) (hr : msg.decode .requestGrant = .ok req)
    {m : WireId} (hm : s.watermark ≤ m)
    (hp : [req.grant, req.consent, req.view, req.pointer, req.text].Pairwise (· < ·))
    (hi : ∀ id ∈ [req.grant, req.consent, req.view, req.pointer, req.text], s.watermark < id ∧ id ≤ m) :
    Grows msg s (({ s with watermark := m } : PrincipalServer).addPetition req) where
  connection := rfl
  peer := rfl
  identity := rfl
  phase := .inl rfl
  watermark := hm
  old id kind h := by
    have hn : ∀ i' ∈ [req.grant, req.consent, req.view, req.pointer, req.text], id ≠ i' := fun i' h' =>
      ((hb id kind h).trans_lt (hi i' h').1).ne
    simp only [List.mem_cons, List.not_mem_nil, or_false, forall_eq_or_imp, forall_eq] at hn
    obtain ⟨h₁, h₂, h₃, h₄, h₅⟩ := hn
    rw [get?_addPetition, if_neg h₅, if_neg h₄, if_neg h₃, if_neg h₂, if_neg h₁]
    exact h
  new id kind h := by
    simp only [List.mem_cons, List.not_mem_nil, or_false, forall_eq_or_imp, forall_eq] at hi
    obtain ⟨h₁, h₂, h₃, h₄, h₅⟩ := hi
    have hg : (({ s with watermark := m } : PrincipalServer).addPetition req).objects.get? req.grant =
        some (.grant .pending) := by
      obtain ⟨hl, -⟩ := List.pairwise_cons.mp hp
      simp only [List.mem_cons, List.not_mem_nil, or_false, forall_eq_or_imp, forall_eq] at hl
      obtain ⟨l₂, l₃, l₄, l₅⟩ := hl
      rw [get?_addPetition, if_neg l₅.ne, if_neg l₄.ne, if_neg l₃.ne, if_neg l₂.ne, if_pos rfl]
    rw [get?_addPetition] at h
    split_ifs at h with e₅ e₄ e₃ e₂ e₁
    · cases h
      exact .inr ⟨e₅ ▸ h₅.1, e₅ ▸ h₅.2, ⟨req, hr, rfl, e₅.symm⟩, _, hg⟩
    · cases h
      exact .inr ⟨e₄ ▸ h₄.1, e₄ ▸ h₄.2, ⟨req, hr, rfl, e₄.symm⟩, _, hg⟩
    · cases h
      exact .inr ⟨e₃ ▸ h₃.1, e₃ ▸ h₃.2, ⟨req, hr, rfl, e₃.symm⟩, _, hg⟩
    · cases h
      exact .inr ⟨e₂ ▸ h₂.1, e₂ ▸ h₂.2, trivial⟩
    · cases h
      exact .inr ⟨e₁ ▸ h₁.1, e₁ ▸ h₁.2, trivial⟩
    · exact .inl h

end PrincipalServer

/-! ### Acts -/

namespace Turn

/-- The handle a resolution is for is this connection's, and pending. -/
structure Awaits (t : Turn) (r : Resolution) : Prop where
  connection : r.connection = t.server.connection
  bound : t.server.phase = .bound
  pending : t.server.objects.get? r.grantWireId = some (.grant .pending)

/-- A resolution is delivered: a granted one mints a row that the handle then names. -/
inductive Settles (now : Instant) (r : Resolution) (t : Turn) : Turn → Prop
  | granted {approved : ApprovedGrant} {grants : GrantTable} {id : GrantId} (wire : Wire)
      (hverdict : r.verdict = .granted approved) (hins : approved.insertRow t.grants now = .ok (grants, id)) :
      Settles now r t
        { t with server := t.server.addObject r.grantWireId (.grant (.resolved (some id))), grants, wire }
  | declined {outcome : Outcome} (wire : Wire) (hverdict : r.verdict = .declined outcome) :
      Settles now r t { t with server := t.server.addObject r.grantWireId (.grant (.resolved none)), wire }

/-- One thing serving a message can do. -/
inductive Act (ctx : ServerCtx) (msg : Message) : Turn → Turn → Prop
  /-- Objects are minted, or nothing but the phase, the wire and the counters moves. -/
  | grow {t : Turn} {server : PrincipalServer} (wire : Wire) (hgrows : t.server.Grows msg server) :
      Act ctx msg t { t with server, wire }
  /-- A `hello` binds the connection. -/
  | bind {t : Turn} {hello : Hello} {identity : PrincipalIdentity} (wire : Wire)
      (hphase : t.server.phase = .connected) (hobject : msg.objectId = handshakeId)
      (hhello : msg.decode .hello = .ok hello)
      (hverify : ctx.verify ⟨hello.identity, hello.credentialType, hello.credential, t.server.peer⟩ = .bound identity) :
      Act ctx msg t
        { t with
          server :=
            { t.server with principalId := some hello.principal, phase := .bound, identity := some identity }
          wire }
  /-- A petition is filed; it waits, or its resolution did not arrive. -/
  | park {t : Turn} {request : PetitionRequest} {phase : Phase} (wire : Wire) (hbound : t.server.phase = .bound)
      (hconn : request.connection = t.server.connection) (hid : t.server.identity = some request.identity)
      (hphase : phase = t.server.phase ∨ phase = .dead) :
      Act ctx msg t
        { t with petitions := (t.admitted ctx request).1, server := { t.server with phase }, wire }
  | settle {t t' : Turn} {request : PetitionRequest} {r : Resolution} (hbound : t.server.phase = .bound)
      (hconn : request.connection = t.server.connection) (hid : t.server.identity = some request.identity)
      (hres : (t.admitted ctx request).2 = .resolved r) (hawaits : t.Awaits r)
      (hsettles : Settles ctx.now r { t with petitions := (t.admitted ctx request).1 } t') :
      Act ctx msg t t'

inductive Uses (ctx : ServerCtx) (msg : Message) (t : Turn) : Turn → Prop
  | intro {facet : Facet} {grant : WireId} {kind : UseKind} {identity : PrincipalIdentity}
      (hbound : t.server.phase = .bound) (hobj : t.server.objects.get? msg.objectId = some (.facet facet grant))
      (hkind : facet.useOf msg = .ok kind) (hid : t.server.identity = some identity) :
      Uses ctx msg t (t.absorb (t.enforced ctx msg.objectId grant identity kind))

abbrev Acts (ctx : ServerCtx) (msg : Message) : Turn → Turn → Prop := ReflTransGen (Act ctx msg)

def Served (ctx : ServerCtx) (msg : Message) (t t' : Turn) : Prop :=
  Acts ctx msg t t' ∨ ∃ t₁, Uses ctx msg t t₁ ∧ Acts ctx msg t₁ t'

variable {t : Turn} {ctx : ServerCtx} {msg : Message}

theorem acts_of_grows {server : PrincipalServer} (wire : Wire) (h : t.server.Grows msg server) :
    Acts ctx msg t { t with server, wire } :=
  .single (.grow wire h)

theorem grows_refl : s.Grows msg s := .of_objects ⟨rfl, rfl⟩ rfl (.inl rfl) le_rfl rfl

theorem send_acts {event : Event} : Acts ctx msg t (t.send event).1 := acts_of_grows _ (grows_refl _)

theorem goodbye_acts (fault : PrincipalFault) : Acts ctx msg t (t.goodbye fault) := by
  have hd : t.server.Grows msg { t.server with phase := .dead } := .of_objects ⟨rfl, rfl⟩ rfl (.inr rfl) le_rfl rfl
  cases fault with
  | transport err => exact acts_of_grows _ hd
  | violation v =>
    simp only [goodbye]
    split <;> exact acts_of_grows _ hd

theorem Message.read_eq_ok {request : Request} {ar : request.Args} (h : msg.read request = .ok ar) :
    msg.decode request = .ok ar := by
  unfold Message.read at h
  cases hd : msg.decode request with
  | error e =>
    rw [hd] at h
    cases h
  | ok a =>
    rw [hd] at h
    cases h
    rfl

theorem mintObject_acts (hb : t.server.Below) {counted : Counted}
    {decoded : Except PrincipalViolation (WireId × ObjectKind)}
    (hf : ∀ id kind, decoded = .ok (id, kind) → t.server.Fresh msg id kind) :
    Acts ctx msg t (t.mintObject counted decoded).1 := by
  cases decoded with
  | error v => exact .refl
  | ok object =>
    obtain ⟨id, kind⟩ := object
    simp only [mintObject]
    split
    · exact .refl
    · cases ha : t.server.allocateId id with
      | error v => exact .refl
      | ok server =>
        obtain ⟨rfl, hi⟩ := PrincipalServer.allocateId_eq_ok ha
        exact acts_of_grows _ (PrincipalServer.grows_addObject hb hi (hf id kind rfl) counted)

theorem handleGetRealm_acts (hb : t.server.Below) : Acts ctx msg t (t.handleGetRealm msg).1 := by
  refine mintObject_acts hb fun id kind h => ?_
  cases hr : msg.read .getRealm with
  | error v =>
    rw [hr] at h
    cases h
  | ok a =>
    rw [hr] at h
    cases h
    exact trivial

/-- The facets minted on a handle, by one argument: the id decodes from the body, and the handle is there. -/
theorem getFacet_acts (c : Counted) (f : Facet) (d : Except PrincipalViolation WireId)
    (hb : t.server.Below) {st : GrantHandleState} (hob : t.server.objects.get? msg.objectId = some (.grant st))
    (hm : ∀ id, d = .ok id → msg.Mints id f msg.objectId) :
    Acts ctx msg t (t.mintObject c (d.map fun id => (id, .facet f msg.objectId))).1 := by
  refine mintObject_acts hb fun id kind h => ?_
  cases d with
  | error v => cases h
  | ok i' =>
    cases h
    exact ⟨hm _ rfl, st, hob⟩

theorem handleHello_acts (hp : t.server.phase = .connected) (hob : msg.objectId = handshakeId) :
    Acts ctx msg t (t.handleHello ctx msg).1 := by
  unfold handleHello
  cases hr : msg.read .hello with
  | error v => exact .refl
  | ok hello =>
    have hh := Message.read_eq_ok hr
    simp only
    split
    · exact .refl
    · cases ha : t.server.allocateId (Hello.principal hello) with
      | error v => exact .refl
      | ok server =>
        obtain ⟨rfl, hi⟩ := PrincipalServer.allocateId_eq_ok ha
        have hg : Acts ctx msg t { t with server := { t.server with watermark := Hello.principal hello } } :=
          acts_of_grows t.wire (.of_objects ⟨rfl, rfl⟩ rfl (.inl rfl) hi.le rfl)
        simp only
        split
        · rename_i identity hv
          unfold bindTo
          split
          · rename_i t' fault hs
            have ht' := congrArg Prod.fst hs
            exact hg.trans (ht' ▸ send_acts)
          · rename_i t' hs
            have ht' := congrArg Prod.fst hs
            subst ht'
            exact hg.tail (.bind _ hp hob hh hv)
        · exact hg
        · exact hg

theorem announce_eq (r : Resolution) : ∃ wire, (t.announce r).1 = { t with wire } := by
  cases hc : r.emitClosed with
  | false =>
    simp only [announce, hc]
    exact ⟨_, rfl⟩
  | true =>
    simp only [announce, hc]
    split <;> exact ⟨_, rfl⟩

theorem deliverResolution_cases (t : Turn) (r : Resolution) (now : Instant) :
    (∃ phase wire, (phase = t.server.phase ∨ phase = .dead) ∧
      (t.deliverResolution r now).1 = { t with server := { t.server with phase }, wire }) ∨
    (t.Awaits r ∧ Settles now r t (t.deliverResolution r now).1) := by
  unfold deliverResolution
  split
  · exact .inl ⟨_, _, .inl rfl, rfl⟩
  · rename_i hc
    split
    · exact .inl ⟨_, _, .inl rfl, rfl⟩
    · rename_i hb
      split
      · rename_i hp
        have ha : t.Awaits r := ⟨not_not.mp hc, not_not.mp hb, hp⟩
        split
        · rename_i approved hv
          split
          · rename_i grants id hi
            obtain ⟨wire, hw⟩ := announce_eq (t := ({ t with grants }).setResolved r.grantWireId (some id)) r
            simp only [hw]
            exact .inr ⟨ha, .granted wire hv hi⟩
          · exact .inl ⟨_, _, .inr rfl, rfl⟩
        · rename_i outcome hv
          obtain ⟨wire, hw⟩ := announce_eq (t := t.setResolved r.grantWireId none) r
          simp only [hw]
          exact .inr ⟨ha, .declined wire hv⟩
      · exact .inl ⟨_, _, .inl rfl, rfl⟩
      · exact .inl ⟨_, _, .inl rfl, rfl⟩

/-- A petition that is filed leaves the registry alone or is put in it. -/
theorem admitted_parks (t : Turn) (ctx : ServerCtx) (request : PetitionRequest) :
    (t.admitted ctx request).1 = t.petitions ∨
    ∃ r ru, t.petitions.Admissible request ctx.realms (t.grants.anyLiveHolderOf .layoutArrange ctx.now)
        r ru ∧
      (t.admitted ctx request).1 = t.petitions.push (t.petitions.pendingOf request ctx.now ctx.realms r ru) := by
  unfold admitted
  rcases t.petitions.admitPetition_cases request ctx.now ctx.realms
    (t.grants.anyLiveHolderOf .layoutArrange ctx.now) with ⟨outcome, he⟩ | ⟨r, ru, ha, ⟨-, he⟩ | ⟨-, he⟩⟩
  · exact .inl (by rw [he])
  · exact .inl (by rw [he])
  · exact .inr ⟨r, ru, ha, by rw [he]⟩

variable {request : PetitionRequest}

/-- A petition that is answered on the spot leaves the registry alone; what it is granted is its own. -/
theorem admitted_resolves {r : Resolution} (h : (t.admitted ctx request).2 = .resolved r) :
    (t.admitted ctx request).1 = t.petitions ∧
    ((∃ o, r.verdict = .declined o) ∨
    ∃ re ru, t.petitions.Admissible request ctx.realms (t.grants.anyLiveHolderOf .layoutArrange ctx.now)
        re ru ∧
      r.verdict = .granted ⟨request.identity, re, t.petitions.requestedOf request ru, .autoApprovePolicy⟩) := by
  unfold admitted at h ⊢
  rcases t.petitions.admitPetition_cases request ctx.now ctx.realms
    (t.grants.anyLiveHolderOf .layoutArrange ctx.now) with ⟨o, he⟩ | ⟨re, ru, ha, ⟨-, he⟩ | ⟨-, he⟩⟩
  · rw [he] at h ⊢
    cases h
    exact ⟨rfl, .inl ⟨o, rfl⟩⟩
  · rw [he] at h ⊢
    cases h
    exact ⟨rfl, .inr ⟨re, ru, ha, rfl⟩⟩
  · rw [he] at h
    cases h

theorem petition_acts (hb : t.server.phase = .bound) (hc : request.connection = t.server.connection)
    (hi : t.server.identity = some request.identity) (o : WireId) : Acts ctx msg t (t.petition ctx o request).1 := by
  unfold petition
  split
  · exact .single (.park _ hb hc hi (.inl rfl))
  · rename_i r hr
    rcases deliverResolution_cases { t with petitions := (t.admitted ctx request).1 } r ctx.now with
      ⟨ph, w, hp, h⟩ | ⟨ha, hs⟩
    · rw [h]
      exact .single (.park w hb hc hi hp)
    · exact .single (.settle hb hc hi hr ⟨ha.connection, ha.bound, ha.pending⟩ hs)

theorem handleRequestGrant_acts (hb : t.server.Below) (hbo : t.server.phase = .bound) (realmName : String) :
    Acts ctx msg t (t.handleRequestGrant ctx msg realmName).1 := by
  unfold handleRequestGrant
  cases hr : msg.read .requestGrant with
  | error v => exact .refl
  | ok args =>
    have hre := Message.read_eq_ok hr
    simp only
    split
    · exact .refl
    · split
      · exact .refl
      · split
        · exact acts_of_grows t.wire (.of_objects ⟨rfl, rfl⟩ rfl (.inl rfl) le_rfl rfl)
        · -- from here on only what a taken token leaves alone matters
          obtain ⟨hp₁, hc₁, hi₁, ho₁, hm₁⟩ := PrincipalServer.takePetitionToken_same t.server ctx.now
          generalize (t.server.takePetitionToken ctx.now).1 = s₁ at *
          have hb₁ : s₁.Below := fun id kind h => hm₁ ▸ hb id kind (ho₁ ▸ h)
          obtain ⟨mark, hs, hm, hok⟩ := s₁.allocateIds_spec
            [RequestGrant.grant args, args.consent, args.view, args.pointer, args.text]
          split
          · rename_i server v ha
            obtain rfl : _ = server := congrArg Prod.fst ha
            rw [hs]
            exact acts_of_grows t.wire (.of_objects hc₁ hi₁ (.inl hp₁) (hm₁ ▸ hm) ho₁)
          · rename_i server _ ha
            obtain rfl : _ = server := congrArg Prod.fst ha
            obtain ⟨hp, hids⟩ := hok (congrArg Prod.snd ha)
            rw [hs]
            have hgr := PrincipalServer.grows_addPetition hb₁ hre hm hp hids
            have hg := @acts_of_grows t ctx msg _ t.wire
              (PrincipalServer.Grows.trans (.of_objects hc₁ hi₁ (.inl hp₁) hm₁.ge ho₁) hgr)
            split
            · exact hg
            · rename_i identity hi
              exact hg.trans (petition_acts (hp₁.trans hbo) rfl hi _)

theorem Served.trans {t t' t'' : Turn} (h : Served ctx msg t t') (ha : Acts ctx msg t' t'') : Served ctx msg t t'' := by
  rcases h with h | ⟨t₁, hu, h⟩
  · exact .inl (h.trans ha)
  · exact .inr ⟨t₁, hu, h.trans ha⟩

theorem served_refl (t : Turn) : Served ctx msg t t := .inl .refl

theorem serveFacetUse_served {f : Facet} {g : WireId} {kind : UseKind} (hb : t.server.phase = .bound)
    (hob : t.server.objects.get? msg.objectId = some (.facet f g)) (hk : f.useOf msg = .ok kind) :
    Served ctx msg t (t.serveFacetUse ctx msg.objectId g kind).1 := by
  unfold serveFacetUse
  split
  · exact served_refl t
  · rename_i i hi
    exact .inr ⟨_, .intro hb hob hk hi, .refl⟩

theorem dispatchObject_served (hb : t.server.Below) (hbo : t.server.phase = .bound)
    (hob : t.server.objects.get? msg.objectId = some kind) : Served ctx msg t (t.dispatchObject ctx msg kind).1 := by
  cases kind with
  | realm n =>
    simp only [dispatchObject]
    split
    · exact .inl (handleRequestGrant_acts hb hbo n)
    · exact served_refl t
  | grant st =>
    refine .inl ?_
    simp only [dispatchObject]
    split_ifs
    iterate 5 exact getFacet_acts _ _ _ hb hob fun _ h => ⟨rfl, Message.read_eq_ok h⟩
    exact .refl
  | consent => exact served_refl t
  | facet f g =>
    simp only [dispatchObject]
    split
    · exact served_refl t
    · rename_i u hu
      exact serveFacetUse_served hbo hob hu

theorem dispatchHandshake_acts : Acts ctx msg t (t.dispatchHandshake msg).1 := by
  unfold dispatchHandshake
  split_ifs
  · exact .refl
  · split
    · exact .refl
    · exact send_acts
  · exact .refl

theorem dispatch_served (hb : t.server.Below) : Served ctx msg t (t.dispatch ctx msg).1 := by
  unfold dispatch
  split
  · exact served_refl t
  · rename_i hp
    split
    · rename_i hm
      exact .inl (handleHello_acts hp hm.1)
    · exact served_refl t
  · rename_i hp
    split_ifs
    · exact .inl dispatchHandshake_acts
    · exact .inl (handleGetRealm_acts hb)
    · exact served_refl t
    · split
      · rename_i kind hob
        exact dispatchObject_served hb hp hob
      · exact served_refl t

/-- **Serving a message** is a sequence of acts, or a use followed by acts. -/
theorem handleMessage_served (hb : t.server.Below) : Served ctx msg t (t.handleMessage ctx msg).1 := by
  have hd : Served ctx msg t (t.dispatch ctx msg).1 := dispatch_served hb
  unfold handleMessage
  split
  · rename_i t' _ h
    exact congrArg Prod.fst h ▸ hd
  · rename_i t' f h
    exact (congrArg Prod.fst h ▸ hd).trans (goodbye_acts f)

theorem handleMessage_error {f : PrincipalFault} (h : (t.handleMessage ctx msg).2 = .error f) :
    (t.handleMessage ctx msg).1.server.phase = .dead := by
  unfold handleMessage at h ⊢
  split at h
  · cases h
  · cases h
    cases f with
    | transport e => rfl
    | violation v =>
      simp only [goodbye]
      split <;> rfl

end Turn

end Vitrin
