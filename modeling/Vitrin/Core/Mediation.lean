import Vitrin.Core.Connections

/-!
# Complete mediation

An agent's only way to have an effect is to send messages. Here every call of an
effect sink, in any run, is traced back to the authority it rests on: the row that was
checked, the handle that names the row, the facet that was minted with the handle, and
the `hello` that bound the connection to its identity.

The runs are those of `systemStep`. What lies in the past of a state is said with
`Machine.Happened`: the step that minted a facet, the `hello` that was answered well,
a message that was answered with a fault.

`Progress` says what a step can do to one connection's server; `History` is the
invariant it carries through a run. `complete_mediation` puts it together with the
chokepoint's `judge_ok`.
-/

namespace Vitrin

open Lib PrincipalSystem

/-! ### What the sinks are handed -/

/-- A call that acts for a principal under a row, on a realm; a frame read is of what that realm shows. -/
def SinkCall.On (ctx : ServerCtx) (principal : PrincipalIdentity) (grant : GrantId) (realm : RealmId) : SinkCall → Prop
  | .actuate target _ => target = realm
  | .layout (.focus target) => target = realm
  | .layout (.arrange target _) => target = realm
  | .launch ask => ask.template = realm ∧ ask.principal = principal ∧ ask.grant = grant
  | .designate ask => ask.realm = realm ∧ ask.principal = principal ∧ ask.grant = grant
  | .frame view => ctx.realmIsLive realm = true ∧ ctx.realmView realm = some view

/-- What a sink is called with comes from the request and from what it is performed against. -/
def SinkCall.From (req : UseRequest) (env : UseEnv) (grant : GrantId) : SinkCall → Prop
  | .actuate target _ => env.grantRealm = some target
  | .layout (.focus target) => env.grantRealm = some target
  | .layout (.arrange target _) => env.grantRealm = some target
  | .launch ask => env.grantRealm = some ask.template ∧ ask.principal = req.principal ∧ ask.grant = grant
  | .designate ask => env.grantRealm = some ask.realm ∧ ask.principal = req.principal ∧ ask.grant = grant
  | .frame view => env.realmView = some view

theorem Chokepoint.liveView_eq_some {vi : Option RealmViewFrame} {v : RealmViewFrame} (h : liveView vi = some v) :
    vi = some v :=
  (Option.filter_eq_some_iff.mp h).1

variable {now : Instant} {ca : SinkCall}

theorem Chokepoint.perform_calls {re : UseRequest} {e : UseEnv} {g : GrantId} {so cl : Bool}
    (h : ca ∈ (perform re e g so cl now).calls) : ca.From re e g := by
  cases hk : re.kind with
  | capture =>
    simp only [perform, hk] at h
    split at h
    · cases h
    · rename_i v hv
      split at h <;>
      · obtain rfl := List.mem_singleton.mp h
        exact liveView_eq_some hv
  | egress =>
    simp only [perform, hk] at h
    cases h
  | launch | designate asked =>
    -- the sink's answer decides what is said of the use, not what the sink was handed
    simp only [perform, hk] at h
    split at h
    · cases h
    · rename_i r hr
      split at h <;>
      · obtain rfl := List.mem_singleton.mp h
        exact ⟨hr, rfl, rfl⟩
  | _ =>
    simp only [perform, hk] at h
    split at h
    · cases h
    · rename_i r hr
      obtain rfl := List.mem_singleton.mp h
      exact hr

/-- In the environment of a facet's request, that is the realm of the row its handle names. -/
theorem SinkCall.From.on {t : Turn} {ctx : ServerCtx} {f g : WireId} {i : PrincipalIdentity} {k : UseKind}
    {gr : GrantId} {e : Entry} (hro : t.server.grantRowId g = some gr) (he : t.grants.entryOf gr = some e)
    (h : ca.From (t.useRequest f g i k) (t.useEnv ctx g k) gr) : ca.On ctx i gr e.row.realmId := by
  have hrea : (t.server.grantRowId g).bind t.grants.realmOf = some e.row.realmId := by
    simp [hro, GrantTable.realmOf, he]
  have hre : ∀ r, (t.useEnv ctx g k).grantRealm = some r → r = e.row.realmId := by
    intro r hr
    simp only [Turn.useEnv, hrea] at hr
    split at hr
    · exact (Option.some.inj hr).symm
    · cases hr
  cases ca with
  | actuate ta inp => exact hre ta h
  | layout a => cases a with
    | focus ta | arrange ta mode => exact hre ta h
  | launch | designate => exact ⟨hre _ h.1, h.2⟩
  | frame v =>
    have hv : (t.useEnv ctx g k).realmView = some v := h
    simp only [Turn.useEnv, hrea, Option.bind_eq_some_iff, Option.filter_eq_some_iff] at hv
    obtain ⟨r, ⟨hs, hl⟩, hv⟩ := hv
    cases hs
    exact ⟨hl, hv⟩

/-! ### What a step can do to one connection -/

/-- A `hello` of a peer whose credential is verified to be `identity`. -/
def Message.Binds (msg : Message) (ctx : ServerCtx) (peer : PeerCred) (identity : PrincipalIdentity) : Prop :=
  msg.objectId = handshakeId ∧ ∃ hello : Hello, msg.decode .hello = .ok hello ∧
    ctx.verify ⟨hello.identity, hello.credentialType, hello.credential, peer⟩ = .bound identity

namespace PrincipalServer

/-- What can become of a server: `minted` says which facets may be new, `bound` what it may be newly bound to. -/
structure Progress (minted : WireId → Facet → WireId → Prop) (bound : PrincipalIdentity → Prop)
    (s s' : PrincipalServer) : Prop where
  facets : ∀ id facet grant, s'.objects.get? id = some (.facet facet grant) →
    s.objects.get? id = some (.facet facet grant) ∨ minted id facet grant
  binding : s'.phase = .bound →
    (s.phase = .bound ∧ s'.identity = s.identity) ∨ ∃ identity, bound identity ∧ s'.identity = some identity
  dead : s.phase = .dead → s'.phase = .dead
  peer : s'.peer = s.peer

variable {m : WireId → Facet → WireId → Prop} {b : PrincipalIdentity → Prop} {s s' s'' : PrincipalServer}

theorem Progress.refl (s : PrincipalServer) : Progress m b s s :=
  ⟨fun _ _ _ h => .inl h, fun h => .inl ⟨h, rfl⟩, id, rfl⟩

theorem Progress.trans (h₁ : Progress m b s s') (h₂ : Progress m b s' s'') :
    Progress m b s s'' where
  facets id facet grant h := by
    rcases h₂.facets id facet grant h with h | h
    · exact h₁.facets id facet grant h
    · exact .inr h
  binding h := by
    rcases h₂.binding h with ⟨hb, hi⟩ | hn
    · rcases h₁.binding hb with ⟨hb, hi'⟩ | ⟨i, hn, hi'⟩
      · exact .inl ⟨hb, hi.trans hi'⟩
      · exact .inr ⟨i, hn, hi.trans hi'⟩
    · exact .inr hn
  dead h := h₂.dead (h₁.dead h)
  peer := h₂.peer.trans h₁.peer

theorem Progress.fade {phase : Phase} (h : phase = s.phase ∨ phase = .dead) :
    Progress m b s { s with phase } where
  facets _ _ _ h := .inl h
  binding hb := by
    rcases h with h | h
    · exact .inl ⟨h.symm.trans hb, rfl⟩
    · exact absurd (h.symm.trans hb) (by decide)
  dead hd := by
    rcases h with h | h
    · exact h.trans hd
    · exact h
  peer := rfl

theorem Progress.addHandle (w : WireId) (st : GrantHandleState) :
    Progress m b s (s.addObject w (.grant st)) where
  facets id facet grant h := by
    by_cases hi : id = w
    · subst hi
      simp [addObject] at h
    · exact .inl (by simpa [addObject, OrdMap.get?_insert_of_ne hi] using h)
  binding h := .inl ⟨h, rfl⟩
  dead h := h
  peer := rfl

end PrincipalServer

open PrincipalServer

namespace Turn

variable {ctx : ServerCtx} {msg : Message} {t t' : Turn} {b : PrincipalIdentity → Prop}
  {m : WireId → Facet → WireId → Prop}

theorem Settles.progress {r : Resolution} (h : t.Settles now r t') : Progress m b t.server t'.server := by
  cases h with
  | granted | declined => exact .addHandle ..

theorem Settles.calls {r : Resolution} (h : t.Settles now r t') : t'.calls = t.calls := by
  cases h <;> rfl

theorem Act.calls (h : t.Act ctx msg t') : t'.calls = t.calls := by
  cases h with
  | grow | bind | park => rfl
  | settle hb hc hi hr ha hs => exact hs.calls

theorem Acts.calls (h : Acts ctx msg t t') : t'.calls = t.calls := by
  induction h with
  | refl => rfl
  | tail _ ha ih => exact ha.calls.trans ih

theorem Act.progress (h : t.Act ctx msg t') :
    Progress msg.Mints (msg.Binds ctx t.server.peer) t.server t'.server := by
  cases h with
  | grow wire hgr =>
    refine ⟨fun id facet grant hg => ?_, fun hb => ?_, fun hd => ?_, hgr.peer⟩
    · rcases hgr.new id _ hg with hg | ⟨-, -, hm, -⟩
      · exact .inl hg
      · exact .inr hm
    · rcases hgr.phase with hs | hd
      · exact .inl ⟨hs.symm.trans hb, hgr.identity⟩
      · exact absurd (hd.symm.trans hb) (by decide)
    · rcases hgr.phase with hs | hd'
      · exact hs.trans hd
      · exact hd'
  | bind wire hp hob hh hv =>
    refine ⟨fun _ _ _ hg => .inl hg, fun _ => .inr ⟨_, ⟨hob, _, hh, hv⟩, rfl⟩, fun hd => ?_, rfl⟩
    exact absurd (hp.symm.trans hd) (by decide)
  | park wire hb hc hi hp => exact .fade hp
  | settle hb hc hi hr ha hse => exact hse.progress

theorem Acts.progress (h : Acts ctx msg t t') :
    Progress msg.Mints (msg.Binds ctx t.server.peer) t.server t'.server := by
  induction h with
  | refl => exact .refl _
  | tail _ ha ih => exact ih.trans (ih.peer ▸ ha.progress)

theorem Served.progress (h : Served ctx msg t t') :
    Progress msg.Mints (msg.Binds ctx t.server.peer) t.server t'.server := by
  rcases h with ha | ⟨t₁, hus, ha⟩
  · exact ha.progress
  · have hu : Progress msg.Mints (msg.Binds ctx t.server.peer) t.server t₁.server := by
      cases hus with
      | intro hb hob hk hi => exact ⟨fun _ _ _ h => .inl h, fun h => .inl ⟨h, rfl⟩, id, rfl⟩
    exact hu.trans (hu.peer ▸ ha.progress)

theorem deliverResolution_progress (t : Turn) (r : Resolution) (now : Instant) :
    Progress m b t.server (t.deliverResolution r now).1.server := by
  rcases t.deliverResolution_cases r now with ⟨phase, wire, hp, he⟩ | ⟨-, hs⟩
  · rw [he]
    exact .fade hp
  · exact hs.progress

end Turn

/-- The step is a message on `c` that mints a facet. -/
def SystemOp.Mints (op : SystemOp) (c : ConnectionId) (id : WireId) (facet : Facet) (grant : WireId) : Prop :=
  ∃ ctx msg wire, op = .message c ctx msg wire ∧ msg.Mints id facet grant

/-- The step is a `hello` on `c`, of the peer it has, that is verified to come from `identity`. -/
def SystemOp.Binds (op : SystemOp) (c : ConnectionId) (peer : PeerCred) (identity : PrincipalIdentity) : Prop :=
  ∃ ctx msg wire, op = .message c ctx msg wire ∧ msg.Binds ctx peer identity

variable {s : PrincipalSystem} {c : ConnectionId}

theorem systemStep_conn (h : s.Inv) {conn : Conn} (hc : s.conns.get? c = some conn) (op : SystemOp) :
    ∃ conn', (systemStep s op).1.conns.get? c = some conn' ∧
      Progress (op.Mints c) (op.Binds c conn.server.peer) conn.server conn'.server := by
  have hs : ∀ {c' : ConnectionId} {conn' : Conn}, c ≠ c' → (s.conns.insert c' conn').get? c = some conn :=
    fun hn => by rw [OrdMap.get?_insert_of_ne hn, hc]
  cases op with
  | connect peer =>
    have hn : c ≠ s.petitions.nextConnectionId := (h.conns c conn hc).minted.ne
    exact ⟨conn, hs hn, .refl _⟩
  | message c' ctx msg wire =>
    by_cases hcc : c = c'
    · subst hcc
      have hse : Turn.Served ctx msg (s.turn conn.server wire) _ :=
        Turn.handleMessage_served (h.conns c conn hc).below
      have hp := hse.progress
      simp only [systemStep, hc]
      refine ⟨_, OrdMap.get?_insert_self, fun id facet grant hg => ?_, fun hbo => ?_, hp.dead, hp.peer⟩
      · exact (hp.facets id facet grant hg).imp_right fun hm => ⟨ctx, msg, wire, rfl, hm⟩
      · refine (hp.binding hbo).imp_right ?_
        rintro ⟨identity, hb, hi⟩
        exact ⟨identity, ⟨ctx, msg, wire, rfl, hb⟩, hi⟩
    · simp only [systemStep]
      split
      · exact ⟨conn, hc, .refl _⟩
      · exact ⟨conn, hs hcc, .refl _⟩
  | deliver c' index now wire =>
    simp only [systemStep]
    split
    · rename_i conn' r hc' hr
      by_cases hcc : c = c'
      · subst hcc
        cases hc.symm.trans hc'
        exact ⟨_, OrdMap.get?_insert_self, Turn.deliverResolution_progress (s.turn conn.server wire) r now⟩
      · exact ⟨conn, hs hcc, .refl _⟩
    · exact ⟨conn, hc, .refl _⟩
  | teardown c' =>
    simp only [systemStep]
    split
    · exact ⟨conn, hc, .refl _⟩
    · rename_i conn' hc'
      by_cases hcc : c = c'
      · subst hcc
        cases hc.symm.trans hc'
        exact ⟨_, OrdMap.get?_insert_self, .fade (.inr rfl)⟩
      · exact ⟨conn, hs hcc, .refl _⟩
  | resolveHuman | resolveScripted | expirePetitions | promptShown | promptHidden | expireGrants | revoke
  | revokePrincipal | deadMan | attention => exact ⟨conn, hc, .refl _⟩

theorem systemStep_conn_new {co' : Conn} (hc : s.conns.get? c = none) {op : SystemOp}
    (hc' : (systemStep s op).1.conns.get? c = some co') : ∃ p, co'.server = .new p c := by
  have hot : ∀ {c' : ConnectionId} {x y : Conn}, s.conns.get? c' = some x →
      (s.conns.insert c' y).get? c ≠ some co' := fun {c' x y} hx hg => by
    have hn : c ≠ c' := by
      rintro rfl
      cases hc.symm.trans hx
    rw [OrdMap.get?_insert_of_ne hn, hc] at hg
    cases hg
  cases op with
  | connect p =>
    have hg : (s.conns.insert s.petitions.nextConnectionId ⟨.new p s.petitions.nextConnectionId, false⟩).get? c =
      some co' := hc'
    rw [OrdMap.get?_insert] at hg
    split at hg
    · rename_i hcc
      cases hg
      exact ⟨p, by rw [hcc]⟩
    · cases hc.symm.trans hg
  | message | teardown =>
    simp only [systemStep] at hc'
    split at hc'
    · cases hc.symm.trans hc'
    · rename_i co hg
      exact absurd hc' (hot hg)
  | deliver c₁ i now w =>
    simp only [systemStep] at hc'
    split at hc'
    · rename_i co r hg hr
      exact absurd hc' (hot hg)
    · cases hc.symm.trans hc'
  | resolveHuman | resolveScripted | expirePetitions | promptShown | promptHidden | expireGrants | revoke
  | revokePrincipal | deadMan | attention => cases hc.symm.trans hc'

/-! ### What lies in the past of a connection -/

/-- A message on `c` was answered with a fault. -/
def Faulted (s₀ : PrincipalSystem) (ops : List SystemOp) (c : ConnectionId) : Prop :=
  systemStep.Happened s₀ ops fun op out =>
    ∃ ctx msg wire fault, op = .message c ctx msg wire ∧ out.result = some (.error fault)

/-- A `hello` on `c`, of this peer, was verified to come from `identity` and answered well. -/
def SaidHello (s₀ : PrincipalSystem) (ops : List SystemOp) (c : ConnectionId) (peer : PeerCred)
    (identity : PrincipalIdentity) : Prop :=
  systemStep.Happened s₀ ops fun op out => op.Binds c peer identity ∧ out.result = some (.ok ())

/-- A message on `c` minted the facet `id`: together with the handle `grant`, or on it. -/
def CoMinted (s₀ : PrincipalSystem) (ops : List SystemOp) (c : ConnectionId) (id : WireId) (facet : Facet)
    (grant : WireId) : Prop :=
  systemStep.Happened s₀ ops fun op _ => op.Mints c id facet grant

/-- What a state says of the run that led to it. -/
structure History (s₀ : PrincipalSystem) (ops : List SystemOp) (s : PrincipalSystem) : Prop where
  inv : s.Inv
  facets : ∀ c conn id facet grant, s.conns.get? c = some conn →
    conn.server.objects.get? id = some (.facet facet grant) → CoMinted s₀ ops c id facet grant
  bound : ∀ c conn, s.conns.get? c = some conn → conn.server.phase = .bound →
    ∃ identity, conn.server.identity = some identity ∧ SaidHello s₀ ops c conn.server.peer identity
  faulted : ∀ c, Faulted s₀ ops c → ∃ conn, s.conns.get? c = some conn ∧ conn.server.phase = .dead

theorem systemStep_result {ctx : ServerCtx} {msg : Message} {w : Wire} {r : Except PrincipalFault Unit}
    (h : (systemStep s (.message c ctx msg w)).2.result = some r) :
    ∃ co c', s.conns.get? c = some co ∧ (systemStep s (.message c ctx msg w)).1.conns.get? c = some c' ∧
      ((s.turn co.server w).handleMessage ctx msg).2 = r ∧
      c'.server = ((s.turn co.server w).handleMessage ctx msg).1.server := by
  cases hc : s.conns.get? c with
  | none => simp [systemStep, hc] at h
  | some co =>
    simp only [systemStep, hc] at h ⊢
    exact ⟨co, _, rfl, OrdMap.get?_insert_self, Option.some.inj h, rfl⟩

theorem History.step {s₀ : PrincipalSystem} {ops : List SystemOp} (op : SystemOp)
    (h : History s₀ ops (systemStep.exec s₀ ops)) :
    History s₀ (ops ++ [op]) (systemStep (systemStep.exec s₀ ops) op).1 := by
  generalize hs : systemStep.exec s₀ ops = s at h
  refine ⟨systemStep_inv s op h.inv, fun c c' id f g hc' hg => ?_, fun c c' hc' hb => ?_,
    fun c hf => ?_⟩
  · refine Machine.happened_concat.mpr ?_
    cases hc : s.conns.get? c with
    | none =>
      obtain ⟨p, hn⟩ := systemStep_conn_new hc hc'
      simp [hn, PrincipalServer.new] at hg
    | some co =>
      obtain ⟨c'', hc'', hp⟩ := systemStep_conn h.inv hc op
      cases hc'.symm.trans hc''
      exact (hp.facets id f g hg).imp_left (h.facets c co id f g hc)
  · cases hc : s.conns.get? c with
    | none =>
      obtain ⟨p, hn⟩ := systemStep_conn_new hc hc'
      simp [hn, PrincipalServer.new] at hb
    | some co =>
      obtain ⟨c'', hc'', hp⟩ := systemStep_conn h.inv hc op
      cases hc'.symm.trans hc''
      rcases hp.binding hb with ⟨hb, hi⟩ | ⟨i, hbi, hi⟩
      · obtain ⟨i, hi', hello⟩ := h.bound c co hc hb
        exact ⟨i, hi.trans hi', Machine.happened_concat.mpr (.inl (hp.peer ▸ hello))⟩
      · refine ⟨i, hi, Machine.happened_concat.mpr (.inr ⟨hp.peer ▸ hbi, ?_⟩)⟩
        -- a fault would have killed the connection
        obtain ⟨ctx, msg, w, rfl, -⟩ := hbi
        rw [hs]
        have hre : (systemStep s (.message c ctx msg w)).2.result =
            some ((s.turn co.server w).handleMessage ctx msg).2 := by simp [systemStep, hc]
        obtain ⟨c₁, c₁', hc₁, hc₁', he, hse⟩ := systemStep_result hre
        cases hc.symm.trans hc₁
        cases hc'.symm.trans hc₁'
        rw [hre]
        cases hr : ((s.turn co.server w).handleMessage ctx msg).2 with
        | ok u => rfl
        | error fa =>
          rw [hse, Turn.handleMessage_error hr] at hb
          cases hb
  · rcases Machine.happened_concat.mp hf with hf | ⟨ctx, msg, w, fa, rfl, hre⟩
    · obtain ⟨co, hc, hd⟩ := h.faulted c hf
      obtain ⟨c', hc', hp⟩ := systemStep_conn h.inv hc op
      exact ⟨c', hc', hp.dead hd⟩
    · rw [hs] at hre
      obtain ⟨co, c', hc, hc', he, hse⟩ := systemStep_result hre
      exact ⟨c', hc', by rw [hse, Turn.handleMessage_error he]⟩

theorem history (p : ConsentPolicy) (co : PetitionConfig) (ch : AttentionChord) (ops : List SystemOp) :
    History (.new p co ch) ops (systemStep.exec (.new p co ch) ops) := by
  refine Machine.exec_past (P := fun ops s => History (.new p co ch) ops s) ?_
    (fun pa op h => h.step op) ops
  refine ⟨.new p co ch, fun c con id f g hc => ?_, fun c con hc => ?_, fun c hf => ?_⟩
  · simp [PrincipalSystem.new] at hc
  · simp [PrincipalSystem.new] at hc
  · exact absurd hf Machine.not_happened_nil

/-! ### Every call of a sink -/

/-- What a call of a sink rests on: the message came in on a facet of a bound connection, the facet's handle
names a row, and the row was checked at that instant and confers the verb of the request. -/
structure Mediated (s : PrincipalSystem) (c : ConnectionId) (ctx : ServerCtx) (msg : Message)
    (identity : PrincipalIdentity) (facet : Facet) (grant : WireId) (kind : UseKind) (row : GrantId) (e : Entry) :
    Prop where
  conn : ∃ conn, s.conns.get? c = some conn ∧ conn.server.phase = .bound ∧ conn.server.identity = some identity ∧
    conn.server.objects.get? msg.objectId = some (.facet facet grant) ∧
    conn.server.objects.get? grant = some (.grant (.resolved (some row)))
  request : facet.useOf msg = .ok kind
  checked : s.grants.checkUseGrant row identity kind.verb ctx.now = .ok ⟨row, e.row.constraints.maxEventRate⟩
  entry : s.grants.entryOf row = some e
  principal : e.row.principalId = identity
  verb : e.row.verbs.contains kind.verb = true

/-- A facet's request was let through: its handle names a row, which was checked and then charged, and the sink was
called. -/
structure Turn.LetThrough (t : Turn) (ctx : ServerCtx) (facetId grant : WireId) (identity : PrincipalIdentity)
    (kind : UseKind) (row : GrantId) (e : Entry) (claimed : Bool) : Prop where
  named : t.server.grantRowId grant = some row
  checked : t.grants.checkUseGrant row identity kind.verb ctx.now = .ok ⟨row, e.row.constraints.maxEventRate⟩
  entry : t.grants.entryOf row = some e
  principal : e.row.principalId = identity
  verb : e.row.verbs.contains kind.verb = true
  live : e.Live ctx.now
  grants : (t.enforced ctx facetId grant identity kind).grants = (t.grants.commitUse row).1
  calls : (t.enforced ctx facetId grant identity kind).calls =
    (Chokepoint.perform (t.useRequest facetId grant identity kind) (t.useEnv ctx grant kind) row
      (t.grants.commitUse row).2 claimed ctx.now).calls

theorem Turn.enforced_cases (t : Turn) (ctx : ServerCtx) (f g : WireId) (i : PrincipalIdentity) (k : UseKind) :
    ((t.enforced ctx f g i k).calls = [] ∧ (t.enforced ctx f g i k).grants = t.grants) ∨
    ∃ ro e cl, t.LetThrough ctx f g i k ro e cl := by
  cases hj : (t.server.chokepoint.judge (t.useRequest f g i k) t.grants t.petitions
      t.attention (t.useEnv ctx g k) ctx.now).2 with
  | error r =>
    have hco := Chokepoint.enforceUse_refused (w := t.wire) hj
    exact .inl ⟨hco.noCalls, hco.sameGrants⟩
  | ok a =>
    obtain ⟨al, ex⟩ := a
    obtain ⟨hg, -, -, hca⟩ := Chokepoint.enforceUse_of_ok (w := t.wire) hj
    obtain ⟨ro, hr, hc, -, -, -⟩ := Chokepoint.judge_ok hj
    have hch : t.grants.checkUseGrant ro i k.verb ctx.now = .ok al := hc
    obtain ⟨-, e, he, hp, hv, hl, rfl⟩ := GrantTable.checkUseGrant_eq_ok_iff.mp hc
    exact .inr ⟨ro, e, ex.isSome, hr, hch, he, hp, hv, hl, hg, hca⟩

/-- A call made while a message is served was made by the chokepoint, for a use of a facet of the connection. -/
theorem mediated_of_call (h : s.Inv) {ctx : ServerCtx} {msg : Message} {w : Wire}
    (hca : ca ∈ (systemStep s (.message c ctx msg w)).2.calls) :
    ∃ i f g k r e, Mediated s c ctx msg i f g k r e ∧
      ca.On ctx i r e.row.realmId := by
  cases hc : s.conns.get? c with
  | none => simp [systemStep, hc] at hca
  | some co =>
    simp only [systemStep, hc] at hca
    have hs : Turn.Served ctx msg (s.turn co.server w) _ := Turn.handleMessage_served (h.conns c co hc).below
    rcases hs with ha | ⟨t₁, hu, ha⟩
    · rw [ha.calls] at hca
      cases hca
    · rw [ha.calls] at hca
      cases hu with
      | intro hb hob hk hi =>
        rename_i f g k i
        have hc' : ca ∈ ((s.turn co.server w).enforced ctx msg.objectId g i k).calls := by
          simpa [Turn.absorb, turn] using hca
        rcases (s.turn co.server w).enforced_cases ctx msg.objectId g i k with
          ⟨hn, -⟩ | ⟨r, e, cl, ht⟩
        · rw [hn] at hc'
          cases hc'
        · rw [ht.calls] at hc'
          exact ⟨i, f, g, k, r, e, ⟨⟨co, hc, hb, hi, hob, PrincipalServer.grantRowId_eq_some.mp ht.named⟩, hk,
              ht.checked, ht.entry, ht.principal, ht.verb⟩,
            SinkCall.From.on ht.named ht.entry (Chokepoint.perform_calls hc')⟩

/-- **Complete mediation.** In every run, from nothing, of any messages on any connections among anything else
that happens: a call of an effect sink is made only while a message is served, and then there are a facet and
a grant handle of that connection, minted together or the one on the other, such that the message is a request
on the facet, the handle is resolved and names a row, and that row was just checked: it is held by the identity
the connection's credential was verified to be, confers the verb of the request, and is about the realm the
sink was handed. The connection's peer said a `hello` that was answered well, and no message on it was ever answered
with a fault. -/
theorem complete_mediation (policy : ConsentPolicy) (config : PetitionConfig) (chord : AttentionChord)
    (ops : List SystemOp) (op : SystemOp) :
    let s₀ := PrincipalSystem.new policy config chord
    let s := systemStep.exec s₀ ops
    ∀ ca ∈ (systemStep s op).2.calls, ∃ c ctx msg w, op = .message c ctx msg w ∧
      ∃ i f g k r e, Mediated s c ctx msg i f g k r e ∧
        CoMinted s₀ ops c msg.objectId f g ∧ ca.On ctx i r e.row.realmId ∧
        (∃ conn, s.conns.get? c = some conn ∧ SaidHello s₀ ops c conn.server.peer i) ∧ ¬ Faulted s₀ ops c := by
  intro s₀ s ca hca
  have hh : History s₀ ops s := history policy config chord ops
  cases op with
  | message c ctx msg w =>
    refine ⟨c, ctx, msg, w, rfl, ?_⟩
    obtain ⟨i, f, g, k, r, e, hm, hon⟩ := mediated_of_call hh.inv hca
    obtain ⟨co, hc, hb, hi, hob, -⟩ := hm.conn
    obtain ⟨i', hi', hhe⟩ := hh.bound c co hc hb
    cases hi.symm.trans hi'
    refine ⟨i, f, g, k, r, e, hm, hh.facets c co _ f g hc hob, hon, ⟨co, hc, hhe⟩, ?_⟩
    intro hf
    obtain ⟨c', hc', hd⟩ := hh.faulted c hf
    cases hc.symm.trans hc'
    exact absurd (hb.symm.trans hd) (by decide)
  | deliver | teardown =>
    simp only [systemStep] at hca
    split at hca <;> cases hca
  | connect | resolveHuman | resolveScripted | expirePetitions | promptShown | promptHidden | expireGrants
  | revoke | revokePrincipal | deadMan | attention => cases hca

namespace Sample

/-- A capture through the view facet of handle 4. -/
def captureFrame : Message where
  objectId := 6
  opcode := 0
  decode
    | .captureFrame => .ok ()
    | _ => .error undecodable

end Sample

open Sample in
/-- The sample agent captures a frame, and the `hello` the frame rests on was said. -/
theorem complete_mediation_capture :
    SinkCall.frame ⟨[1, 2, 3, 255], 1, 1⟩ ∈
      (systemStep (systemStep.exec (.new .autoApprove .default .super) petitioning)
        (.message 1 ctx captureFrame ⟨[], []⟩)).2.calls ∧
    ∃ peer identity, SaidHello (.new .autoApprove .default .super) petitioning 1 peer identity := by
  have hca : SinkCall.frame ⟨[1, 2, 3, 255], 1, 1⟩ ∈
      (systemStep (systemStep.exec (.new .autoApprove .default .super) petitioning)
        (.message 1 ctx captureFrame ⟨[], []⟩)).2.calls := by decide
  obtain ⟨c, c', msg, w, he, identity, f, g, k, r, e, -, -, -, ⟨conn, -, hh⟩, -⟩ :=
    complete_mediation .autoApprove .default .super petitioning (.message 1 ctx captureFrame ⟨[], []⟩) _ hca
  have hc := (SystemOp.message.inj he).1
  exact ⟨hca, _, identity, hc ▸ hh⟩

end Vitrin
