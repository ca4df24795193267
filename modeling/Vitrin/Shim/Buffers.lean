import Vitrin.Shim.Server

/-!
# Buffers and frames are given back

What becomes of the buffers a shim attaches and of the commits it makes, over every run of
a connection.

`Custody` is what the core has of the shim's: the buffer each surface has pending, the
dmabuf that is retained, and the commits that are owed a `frame_done`. `Custody.Step` has
one constructor for each thing a message can do to them. `handleMessage_custody` says that
handling a message is one of these, whatever the message and whatever the kernel and the
renderer answer; a presentation only pays what is owed.

Every attach has been answered once or is held in one place (`Custody.Conserves`), and
commits are answered in order, unless a presentation owes more than the outbox takes.
-/

namespace Vitrin

open Lib ShimEvent ShimServer ShimConn Attached
open Function (update update_self update_of_ne)
open List (append_nil map_cons range flatMap_append flatMap_singleton append_assoc)
open Option (toList_none toList_some)

/-! ### Custody -/

/-- What the core has of a shim's. -/
@[ext]
structure Custody where
  pending : Nat → Option Attached
  retained : Option Attached
  owed : List Nat
  attaches : Nat

/-- The event that gives a buffer back. -/
def Attached.release (a : Attached) : ShimEvent := .bufferDone a .released

variable {k : Custody} {out : ShimOut} {k' : Custody}

namespace Custody

/-- What a message can do to it, and what comes of it. -/
inductive Step (k : Custody) : ShimOut → Custody → Prop where
  | idle : Step k ⟨[], [], []⟩ k
  /-- A buffer is staged; the one before it goes back unused. -/
  | attach (a : Attached) (h : a.number = k.attaches) :
      Step k ⟨[a], [], (k.pending a.surface).toList.map Attached.release⟩
        { k with pending := Function.update k.pending a.surface (some a), attaches := k.attaches + 1 }
  | repaint (s : Nat) (h : k.pending s = none) : Step k ⟨[], [s], []⟩ { k with owed := k.owed ++ [s] }
  | refuse (a : Attached) (status : BufferStatus) (h : k.pending a.surface = some a) (hstatus : status ≠ .released) :
      Step k ⟨[], [a.surface], [.bufferDone a status]⟩
        { k with pending := Function.update k.pending a.surface none, owed := k.owed ++ [a.surface] }
  /-- A commit whose buffer is copied; a retained one goes back. -/
  | copy (a : Attached) (h : k.pending a.surface = some a) :
      Step k ⟨[], [a.surface], k.retained.toList.map Attached.release ++ [a.release]⟩
        { k with
            pending := Function.update k.pending a.surface none
            retained := none
            owed := k.owed ++ [a.surface] }
  | retain (a : Attached) (h : k.pending a.surface = some a) :
      Step k ⟨[], [a.surface], k.retained.toList.map Attached.release⟩
        { k with
            pending := Function.update k.pending a.surface none
            retained := some a
            owed := k.owed ++ [a.surface] }

theorem Step.trans_eq {k'' : Custody} (h : k.Step out k') (he : k' = k'') : k.Step out k'' := he ▸ h

end Custody

def ShimServer.pendingOf (s : ShimServer) (surfaceId : Nat) : Option Attached :=
  (s.surfaces.get? surfaceId).bind fun state => state.pendingBuffer.map (·.attached surfaceId)

def ShimConn.custody (c : ShimConn) : Custody where
  pending := c.server.pendingOf
  retained := c.server.retainedDmabuf.map (·.attached)
  owed := c.server.owedFrameDones
  attaches := c.server.attaches

/-! ### A step is a step of custody -/

namespace ShimServer

variable {s se : ShimServer} {si : Nat} {st : SurfaceState}

theorem pendingOf_eq (h : s.surfaces.get? si = some st) : s.pendingOf si = st.pendingBuffer.map (·.attached si) := by
  rw [pendingOf, h]
  rfl

theorem pendingOf_insert (s : ShimServer) (si : Nat) (st : SurfaceState) :
    ({ s with surfaces := s.surfaces.insert si st } : ShimServer).pendingOf =
      update s.pendingOf si (st.pendingBuffer.map (·.attached si)) := by
  funext id
  simp only [pendingOf, OrdMap.get?_insert]
  by_cases hi : id = si
  · subst hi
    rw [if_pos rfl, update_self]
    rfl
  · rw [if_neg hi, update_of_ne hi]
    rfl

theorem pendingOf_insert_same (s : ShimServer) (si : Nat) (st : SurfaceState)
    (hs : s.pendingOf si = st.pendingBuffer.map (·.attached si)) :
    ({ s with surfaces := s.surfaces.insert si st } : ShimServer).pendingOf = s.pendingOf := by
  rw [pendingOf_insert, ← hs, Function.update_eq_self]

/-- Every surface was minted under an id the watermark has passed. -/
def Minted (s : ShimServer) : Prop := ∀ id, (s.surfaces.get? id).isSome → id ≤ s.watermark

theorem Minted.insert (hm : s.Minted) (ht : (s.surfaces.get? si).isSome) (h : se.surfaces = s.surfaces.insert si st)
    (hma : se.watermark = s.watermark) : se.Minted := by
  intro id hi
  rw [h, OrdMap.get?_insert] at hi
  rw [hma]
  split_ifs at hi with he
  · exact he ▸ hm si ht
  · exact hm id hi

theorem allocateId_ok {id : Nat} (h : s.allocateId id = .ok se) :
    s.watermark < id ∧ se = { s with watermark := id } := by
  unfold allocateId at h
  split_ifs at h with hr
  exact ⟨not_le.mp fun hl => hr (.inl hl), (Except.ok.inj h).symm⟩

end ShimServer

variable {m : ShimMessage} {x : ShimConn × List ShimEvent} {env : CommitEnv} {turn : ShimTurn}

namespace ShimConn

variable {c : ShimConn}

/-- A step of the server that leaves the shim's buffers and frames alone. -/
structure Spares (s server : ShimServer) : Prop where
  pending : server.pendingOf = s.pendingOf
  retained : server.retainedDmabuf = s.retainedDmabuf
  owed : server.owedFrameDones = s.owedFrameDones
  attaches : server.attaches = s.attaches

variable {server : ShimServer}

theorem Spares.custody (h : Spares c.server server) : ({ c with server } : ShimConn).custody = c.custody := by
  simp [ShimConn.custody, h.pending, h.retained, h.owed, h.attaches]

/-- A request to the session mints an object or parks an ask; no buffer changes hands. -/
theorem handleSession_spares {r : SessionRequest} (hm : c.server.Minted) (h : c.handleSession r = .ok server) :
    Spares c.server server ∧ server.Minted := by
  cases r with
  | createSurface surface =>
    simp only [handleSession] at h
    split_ifs at h
    cases ha : c.server.allocateId surface with
    | error v => simp [ha] at h
    | ok mi =>
      rw [ha] at h
      cases h
      obtain ⟨hf, rfl⟩ := allocateId_ok ha
      -- The id is above the watermark, so no surface has it.
      have hn : c.server.surfaces.get? surface = none := by
        rw [← Option.not_isSome_iff_eq_none]
        exact fun hs => absurd (hm surface hs) (not_le.mpr hf)
      have hp : c.server.pendingOf surface = none := by
        rw [pendingOf, hn]
        rfl
      refine ⟨⟨c.server.pendingOf_insert_same surface .new hp, rfl, rfl, rfl⟩, fun id hi => ?_⟩
      rw [OrdMap.get?_insert] at hi
      split_ifs at hi with he
      · exact he.le
      · exact (hm id hi).trans hf.le
  | getSeat se =>
    simp only [handleSession] at h
    cases ha : c.server.allocateId se with
    | error v => simp [ha] at h
    | ok mi =>
      rw [ha] at h
      obtain ⟨hf, rfl⟩ := allocateId_ok ha
      dsimp only at h
      split_ifs at h
      cases h
      exact ⟨⟨rfl, rfl, rfl, rfl⟩, fun id hi => (hm id hi).trans hf.le⟩
  | selection =>
    cases h
    exact ⟨⟨rfl, rfl, rfl, rfl⟩, hm⟩
  | pointerConstraint | idleInhibit =>
    simp only [handleSession] at h
    split at h
    · cases h
    · cases h
      exact ⟨⟨rfl, rfl, rfl, rfl⟩, hm⟩

variable {si : Nat} {state : SurfaceState}

theorem handleAttach_custody {r : AttachRequest} {x : ShimServer × List ShimEvent} (hm : c.server.Minted)
    (hs : c.server.surfaces.get? si = some state) (h : c.server.handleAttach si state r = .ok x) :
    c.custody.Step ⟨[⟨si, r.bufferId, c.server.attaches⟩], [], x.2⟩
      ({ c with server := x.1 } : ShimConn).custody ∧
      x.1.Minted := by
  unfold handleAttach at h
  split at h
  · cases h
  · split at h
    · cases h
    · cases h
      refine ⟨?_, hm.insert (by rw [hs]; rfl) rfl rfl⟩
      have he :
          state.pendingBuffer.toList.map (fun ol => bufferDone (ol.attached si) .released) =
            (c.custody.pending si).toList.map release := by
        have hp : c.custody.pending si = state.pendingBuffer.map (·.attached si) := pendingOf_eq hs
        rw [hp]
        cases state.pendingBuffer <;> rfl
      rw [he]
      refine (Custody.Step.attach ⟨si, r.bufferId, c.server.attaches⟩ rfl).trans_eq
        (Custody.ext ?_ rfl rfl rfl)
      exact (c.server.pendingOf_insert si { state with
        everAttached := true
        pendingBuffer := some ⟨r.bufferId, r.kind, r.format, r.width, r.height, c.server.attaches⟩ }).symm

theorem handleDamage_spares {r : DamageRect} (hm : c.server.Minted) (hs : c.server.surfaces.get? si = some state)
    (h : c.server.handleDamage si state r = .ok server) : Spares c.server server ∧ server.Minted := by
  unfold ShimServer.handleDamage at h
  split_ifs at h
  cases h
  have hsa : c.server.pendingOf si = state.pendingBuffer.map (·.attached si) := ShimServer.pendingOf_eq hs
  exact ⟨⟨c.server.pendingOf_insert_same si _ hsa, rfl, rfl, rfl⟩, hm.insert (by rw [hs]; rfl) rfl rfl⟩

/-- What a commit does with its buffer: it is refused and nothing changes, it is copied, or it is retained. -/
inductive Applied (c : ShimConn) (surfaceId : Nat) (pending : PendingBuffer) :
    ShimConn × List ShimEvent × Option BufferStatus → Prop where
  | refused (status : BufferStatus) (h : status ≠ .released) : Applied c surfaceId pending (c, [], some status)
  | copied (scene : Scene) (gpu : Option GpuContent) : Applied c surfaceId pending
      ({ c with scene, gpu, server := { c.server with retainedDmabuf := none } }, c.deferredRelease, some .released)
  | retained (gpu : Option GpuContent) : Applied c surfaceId pending
      ({ c with
          gpu
          server := { c.server with retainedDmabuf := some ⟨surfaceId, pending.bufferId, pending.number⟩ } },
        c.deferredRelease, none)

variable {p : PendingBuffer}

theorem applyDmabuf_applied {i : Option DmabufImporter} {x : ShimConn × List ShimEvent × Option BufferStatus}
    (h : c.applyDmabuf si p i = .ok x) : Applied c si p x := by
  unfold applyDmabuf at h
  split at h
  · cases h
    exact .refused _ (by simp)
  · cases i with
    | none =>
      cases h
      exact .refused _ (by simp)
    | some i =>
      dsimp only at h
      split at h
      · cases h
        exact .refused _ (by simp)
      · cases hou : i.outcome with
        | imported =>
          rw [hou] at h
          cases h
          exact .retained _
        | fdLie d =>
          rw [hou] at h
          cases h
        | refusal =>
          rw [hou] at h
          cases h
          exact .refused _ (by simp)

theorem applyBuffer_applied {hint : Option DamageRect} {x : ShimConn × List ShimEvent × Option BufferStatus}
    (h : c.applyBuffer si p hint env = .ok x) : Applied c si p x := by
  unfold applyBuffer at h
  split at h
  · exact applyDmabuf_applied h
  · split at h
    · cases h
      exact .refused _ (by simp)
    · split at h
      · cases h
      · split at h
        · cases h
          exact .copied _ _
        · cases h

theorem deferredRelease_eq : c.deferredRelease = c.custody.retained.toList.map release := by
  unfold deferredRelease
  simp only [custody]
  cases c.server.retainedDmabuf <;> rfl

/-- The commit of a buffer takes it from the surface; the rest follows from what becomes of it. -/
theorem handleCommit_custody (hm : c.server.Minted) (hs : c.server.surfaces.get? si = some state)
    (h : c.handleCommit si state env = .ok x) : c.custody.Step ⟨[], [si], x.2⟩ x.1.custody ∧ x.1.server.Minted := by
  unfold handleCommit at h
  split_ifs at h
  have hp : c.custody.pending si = state.pendingBuffer.map (·.attached si) := pendingOf_eq hs
  generalize hl : c.putSurface si { state with pendingBuffer := none, pendingDamage := [] } = latched at h
  have hc : latched.custody = { c.custody with pending := update c.custody.pending si none } := by
    subst hl
    exact Custody.ext (c.server.pendingOf_insert si { state with pendingBuffer := none, pendingDamage := [] })
      rfl rfl rfl
  have hmi : latched.server.Minted := by
    subst hl
    exact hm.insert (by rw [hs]; rfl) rfl rfl
  cases hb : state.pendingBuffer with
  | none =>
    rw [hb] at h hp
    cases h
    refine ⟨?_, hmi⟩
    have hn : c.custody.pending si = none := hp
    have hsa : latched.custody = c.custody := by
      rw [hc, ← hn, Function.update_eq_self]
    have how : (latched.owe si).custody = { c.custody with owed := c.custody.owed ++ [si] } :=
      congrArg (fun k : Custody => { k with owed := k.owed ++ [si] }) hsa
    rw [how]
    exact .repaint si hn
  | some p =>
    rw [hb] at h hp
    dsimp only at h
    cases ha : latched.applyBuffer si p (damageHint state.pendingDamage) env with
    | error v => simp [ha] at h
    | ok y =>
      rw [ha] at h
      have hr : latched.custody.retained = c.custody.retained := by rw [hc]
      -- What the commit leaves, but for the dmabuf that is retained afterwards.
      have how (retained : Option Attached) :
          ({ latched.custody with retained, owed := latched.custody.owed ++ [si] } : Custody) =
            { c.custody with
                pending := update c.custody.pending si none
                retained
                owed := c.custody.owed ++ [si] } :=
        congrArg (fun k : Custody => { k with retained, owed := k.owed ++ [si] }) hc
      cases applyBuffer_applied ha with
      | refused st hst =>
        cases h
        refine ⟨?_, hmi⟩
        refine (Custody.Step.refuse (p.attached si) st hp hst).trans_eq ?_
        exact (how c.custody.retained).symm.trans (hr ▸ rfl)
      | copied scene gpu =>
        cases h
        refine ⟨?_, hmi⟩
        rw [deferredRelease_eq, hr]
        exact (Custody.Step.copy (p.attached si) hp).trans_eq (how none).symm
      | retained gpu =>
        cases h
        refine ⟨?_, hmi⟩
        rw [deferredRelease_eq, hr, toList_none, List.map_nil, append_nil]
        exact (Custody.Step.retain (p.attached si) hp).trans_eq (how (some _)).symm

/-- What handling a message comes to when it does not fault. -/
inductive Dispatched (c : ShimConn) (m : ShimMessage) (env : CommitEnv) : ShimTurn → Prop where
  | session {req : SessionRequest} {server : ShimServer} (h : c.handleSession req = .ok server) :
      Dispatched c m env ⟨{ c with server }, [], [], []⟩
  | attach {state : SurfaceState} {req : AttachRequest} {x : ShimServer × List ShimEvent}
      (hstate : c.server.surfaces.get? m.objectId = some state) (hreq : m.surface = .ok (.attach req))
      (h : c.server.handleAttach m.objectId state req = .ok x) :
      Dispatched c m env ⟨{ c with server := x.1 }, x.2, [⟨m.objectId, req.bufferId, c.server.attaches⟩], []⟩
  | damage {state : SurfaceState} {rect : DamageRect} {server : ShimServer}
      (hstate : c.server.surfaces.get? m.objectId = some state)
      (h : c.server.handleDamage m.objectId state rect = .ok server) :
      Dispatched c m env ⟨{ c with server }, [], [], []⟩
  | commit {state : SurfaceState} {x : ShimConn × List ShimEvent}
      (hstate : c.server.surfaces.get? m.objectId = some state) (h : c.handleCommit m.objectId state env = .ok x) :
      Dispatched c m env ⟨x.1, x.2, [], [m.objectId]⟩

theorem handleMessage_dispatched (h : c.handleMessage m env = .ok turn) : Dispatched c m env turn := by
  have hok {α : Type} {f : α → ShimTurn} {x : Except ShimViolation α} (h : x.map f = .ok turn) :
      ∃ a, x = .ok a ∧ turn = f a := by
    cases x with
    | error v => cases h
    | ok a => exact ⟨a, rfl, (Except.ok.inj h).symm⟩
  unfold handleMessage at h
  split at h
  · cases hr : m.session with
    | error v => simp [hr] at h
    | ok re =>
      rw [hr] at h
      obtain ⟨server, hse, rfl⟩ := hok h
      exact .session hse
  · cases hs : c.server.surfaces.get? m.objectId with
    | none =>
      rw [hs] at h
      dsimp only at h
      split at h <;> cases h
    | some state =>
      cases hr : m.surface with
      | error v => simp [hs, hr] at h
      | ok re =>
        rw [hs, hr] at h
        cases re with
        | attach re =>
          obtain ⟨x, ha, rfl⟩ := hok h
          exact .attach hs hr ha
        | damage r =>
          obtain ⟨server, hd, rfl⟩ := hok h
          exact .damage hs hd
        | commit =>
          obtain ⟨x, hc, rfl⟩ := hok h
          exact .commit hs hc

theorem handleMessage_custody (hm : c.server.Minted) (h : c.handleMessage m env = .ok turn) :
    c.custody.Step ⟨turn.attached, turn.latched, turn.events⟩ turn.conn.custody ∧ turn.conn.server.Minted ∧
      ∀ a ∈ turn.attached, a.surface = m.objectId ∧ ∃ r, m.surface = .ok (.attach r) := by
  have hsp {server : ShimServer} (hs : Spares c.server server ∧ server.Minted) :
      c.custody.Step ⟨[], [], []⟩ ({ c with server } : ShimConn).custody ∧ server.Minted := by
    rw [hs.1.custody]
    exact ⟨.idle, hs.2⟩
  cases handleMessage_dispatched h with
  | session hse =>
    obtain ⟨hst, hmi⟩ := hsp (handleSession_spares hm hse)
    exact ⟨hst, hmi, fun a ha => nomatch ha⟩
  | attach hsta hr hat =>
    obtain ⟨hst, hmi⟩ := handleAttach_custody hm hsta hat
    refine ⟨hst, hmi, fun a ha => ?_⟩
    cases List.mem_singleton.mp ha
    exact ⟨rfl, _, hr⟩
  | damage hsta hd =>
    obtain ⟨hst, hmi⟩ := hsp (handleDamage_spares hm hsta hd)
    exact ⟨hst, hmi, fun a ha => nomatch ha⟩
  | commit hsta hc =>
    obtain ⟨hst, hmi⟩ := handleCommit_custody hm hsta hc
    exact ⟨hst, hmi, fun a ha => nomatch ha⟩

/-- The attach of a step is what its message asks for. -/
def Names (op : ShimOp) (attached : List Attached) : Prop :=
  ∀ a ∈ attached, ∃ m env takes req, op = .message m env takes ∧ m.objectId = a.surface ∧ m.surface = .ok (.attach req)

/-- What a step of the connection is: a step of custody, a presentation, or the end of it, before which it sends the
beginning of what a step of custody would. -/
inductive Steps (c : ShimConn) (op : ShimOp) : ShimConn × ShimOut → Prop where
  | handled {x : ShimConn × ShimOut} (h : c.custody.Step x.2 x.1.custody) (hm : x.1.server.Minted)
      (hnames : Names op x.2.attached) : Steps c op x
  | presented {timeMs : Nat} (h : op = .presented timeMs) : Steps c op (c.present timeMs)
  | ended {x : ShimConn × ShimOut} {out : ShimOut} {k : Custody} (h : c.custody.Step out k)
      (hnames : Names op out.attached) (hclosed : x.1.closed = true) (hattached : x.2.attached = [])
      (hevents : x.2.events <+: out.events) : Steps c op x

theorem shimStep_steps (hm : c.server.Minted) (hop : c.closed = false) (op : ShimOp) : Steps c op (shimStep c op) := by
  have hi : Names op [] := fun a ha => nomatch ha
  simp only [shimStep, hop, Bool.false_eq_true, if_false]
  cases op with
  | message m env takes =>
    dsimp only
    cases hme : c.handleMessage m env with
    | error v => exact .ended .idle hi rfl rfl (List.prefix_refl _)
    | ok turn =>
      obtain ⟨hs, hmi, hat⟩ := handleMessage_custody hm hme
      have hn : Names (.message m env takes) turn.attached := fun a ha => by
        obtain ⟨hsu, r, hr⟩ := hat a ha
        exact ⟨m, env, takes, r, rfl, hsu.symm, hr⟩
      simp only [post]
      split_ifs
      · exact .handled hs hmi hn
      · exact .ended hs hn rfl rfl (List.take_prefix _ _)
  | presented t => exact .presented rfl
  | seat | drain => exact .handled .idle hm hi

theorem shimStep_closed (hc : c.closed = true) (op : ShimOp) : shimStep c op = (c, .none) := by
  simp [shimStep, hc]

end ShimConn

/-! ### Conservation -/

def ShimEvent.answered : ShimEvent → Option Attached
  | .bufferDone a _ => some a
  | .frameDone _ _ => none

def ShimEvent.framed : ShimEvent → Option Nat
  | .bufferDone _ _ => none
  | .frameDone surface _ => some surface

def attachedIn (outs : List ShimOut) : List Attached := outs.flatMap (·.attached)

def answeredIn (outs : List ShimOut) : List Attached := outs.flatMap fun o => o.events.filterMap ShimEvent.answered

def latchedIn (outs : List ShimOut) : List Nat := outs.flatMap (·.latched)

/-- The surfaces of the commits answered so far. -/
def framedIn (outs : List ShimOut) : List Nat := outs.flatMap fun o => o.events.filterMap ShimEvent.framed

@[simp] theorem answered_release (a : Attached) : a.release.answered = some a := rfl

@[simp] theorem framed_release (a : Attached) : a.release.framed = none := rfl

@[simp] theorem filterMap_answered_release {l : List Attached} : (l.map release).filterMap answered = l := by
  induction l with
  | nil => rfl
  | cons a l ih => rw [map_cons, List.filterMap_cons_some (answered_release a), ih]

@[simp] theorem filterMap_framed_release {l : List Attached} : (l.map release).filterMap framed = [] := by
  induction l with
  | nil => rfl
  | cons a l ih => rw [map_cons, List.filterMap_cons_none (framed_release a), ih]

variable {outs : List ShimOut}

namespace Custody

/-- Every attach so far has been answered or is in custody, counted. -/
structure Conserves (outs : List ShimOut) (k : Custody) : Prop where
  filed : ∀ s a, k.pending s = some a → a.surface = s
  numbers : (attachedIn outs).map (·.number) = List.range k.attaches
  balance : ∀ a, (attachedIn outs).count a =
    (answeredIn outs).count a + (k.pending a.surface).toList.count a + k.retained.toList.count a

theorem Conserves.concat (h : Conserves outs k) (hf : ∀ s a, k'.pending s = some a → a.surface = s)
    (hn : range k.attaches ++ out.attached.map (·.number) = range k'.attaches)
    (hb : ∀ a, out.attached.count a + (k.pending a.surface).toList.count a + k.retained.toList.count a =
      (out.events.filterMap answered).count a + (k'.pending a.surface).toList.count a +
        k'.retained.toList.count a) : Conserves (outs ++ [out]) k' := by
  refine ⟨hf, ?_, fun a => ?_⟩
  · rw [attachedIn, flatMap_append, flatMap_singleton, List.map_append, ← hn]
    exact congrArg (· ++ _) h.numbers
  · have hold := h.balance a
    have hne := hb a
    simp only [attachedIn, answeredIn, flatMap_append, flatMap_singleton, List.count_append] at hold ⊢
    omega

section Update

variable {f : Nat → Option Attached} (h : ∀ s a, f s = some a → a.surface = s) {s : Nat} {o : Option Attached}
  (ho : ∀ a, o = some a → a.surface = s)

include h ho

theorem filed_update (s' : Nat) (a : Attached) (ha : update f s o s' = some a) : a.surface = s' := by
  by_cases hs : s' = s
  · subst hs
    rw [update_self] at ha
    exact ho a ha
  · rw [update_of_ne hs] at ha
    exact h s' a ha

/-- A change of what a surface has pending takes the old buffer out and puts the new one in. -/
theorem count_update (a : Attached) : (update f s o a.surface).toList.count a + (f s).toList.count a =
    (f a.surface).toList.count a + o.toList.count a := by
  by_cases hs : a.surface = s
  · rw [hs, update_self]
    omega
  · have hold : a ∉ (f s).toList := fun hm => hs (h s a (Option.mem_toList.mp hm))
    have hn : a ∉ o.toList := fun hm => hs (ho a (Option.mem_toList.mp hm))
    rw [update_of_ne hs, List.count_eq_zero_of_not_mem hold, List.count_eq_zero_of_not_mem hn]

end Update

theorem Conserves.step (h : Conserves outs k) (hst : k.Step out k') : Conserves (outs ++ [out]) k' := by
  have hn {s : Nat} : ∀ a : Attached, (none : Option Attached) = some a → a.surface = s := fun _ ha => nomatch ha
  have hs (a : Attached) : ∀ b, some a = some b → b.surface = a.surface := fun b hb => by cases hb; rfl
  cases hst with
  | idle | repaint => exact h.concat h.filed (by simp) fun b => rfl
  | attach a hnu =>
    refine h.concat (filed_update h.filed (hs a)) ?_ fun b => ?_
    · rw [List.map_singleton, hnu, List.range_succ]
    · have hc := count_update h.filed (hs a) b
      rw [filterMap_answered_release]
      simp only [toList_some] at hc ⊢
      omega
  | refuse a st ha hsta =>
    refine h.concat (filed_update h.filed hn) (by simp) fun b => ?_
    have hc := count_update h.filed (hn (s := a.surface)) b
    have han : [bufferDone a st].filterMap answered = [a] := rfl
    rw [ha] at hc
    rw [han]
    simp only [toList_some, toList_none] at hc ⊢
    omega
  | copy a ha =>
    refine h.concat (filed_update h.filed hn) (by simp) fun b => ?_
    have hc := count_update h.filed (hn (s := a.surface)) b
    have han : [a.release].filterMap answered = [a] := rfl
    rw [ha] at hc
    rw [List.filterMap_append, filterMap_answered_release, han, List.count_append]
    simp only [toList_some, toList_none, List.count_nil] at hc ⊢
    omega
  | retain a ha =>
    refine h.concat (filed_update h.filed hn) (by simp) fun b => ?_
    have hc := count_update h.filed (hn (s := a.surface)) b
    rw [ha] at hc
    rw [filterMap_answered_release]
    simp only [toList_none] at hc ⊢
    omega

theorem Conserves.present (h : Conserves outs k) (owed sent : List Nat) (timeMs : Nat) :
    Conserves (outs ++ [⟨[], [], sent.map fun s => .frameDone s timeMs⟩]) { k with owed } := by
  refine h.concat h.filed (by simp) fun b => ?_
  have ha : (sent.map fun s => frameDone s timeMs).filterMap answered = [] := by simp [answered]
  rw [ha]

end Custody

theorem shimStep_outs_concat {p : List ShimOp} {op : ShimOp} :
    shimStep.outs .new (p ++ [op]) = shimStep.outs .new p ++ [(shimStep (shimStep.exec .new p) op).2] :=
  shimStep.outs_append .new p [op]

theorem conserves_run (ops : List ShimOp) : (shimStep.exec .new ops).closed = false →
    (shimStep.exec .new ops).server.Minted ∧
      Custody.Conserves (shimStep.outs .new ops) (shimStep.exec .new ops).custody := by
  refine shimStep.exec_past (P := fun past c => c.closed = false → c.server.Minted ∧
    Custody.Conserves (shimStep.outs .new past) c.custody) ?_ (fun past op ih hope => ?_) ops
  · exact fun _ => ⟨fun id hi => (nomatch hi), ⟨fun s a ha => (nomatch ha), rfl, fun a => rfl⟩⟩
  · rw [shimStep_outs_concat]
    generalize shimStep.exec .new past = c at ih hope ⊢
    cases hc : c.closed with
    | true =>
      rw [shimStep_closed hc] at hope
      cases hc.symm.trans hope
    | false =>
      obtain ⟨hmi, hco⟩ := ih hc
      generalize hx : shimStep c op = x at hope
      have hst := shimStep_steps hmi hc op
      rw [hx] at hst
      cases hst with
      | handled hs hm _ => exact ⟨hm, hco.step hs⟩
      | presented hop => exact ⟨hmi, hco.present _ _ _⟩
      | ended hs _ hcl _ _ => cases hcl.symm.trans hope

/-! ### Frames -/

theorem ShimServer.presented_of_le {ow : List Nat} {r : Nat} (h : ow.length ≤ r) : presented ow r = (ow, []) := by
  induction ow generalizing r with
  | nil => rfl
  | cons s ow ih =>
    obtain ⟨r, rfl⟩ := Nat.exists_eq_add_of_le' (Nat.one_le_of_lt h)
    rw [presented, ih (Nat.le_of_succ_le_succ h)]

/-- A presentation finds room in the outbox for all that is owed. -/
def Roomy (c : ShimConn) : ShimOp → Prop
  | .presented _ => c.server.owedFrameDones.length ≤ c.room
  | _ => True

theorem filterMap_framed_frameDone {se : List Nat} {t : Nat} :
    (se.map fun s => frameDone s t).filterMap framed = se := by
  induction se with
  | nil => rfl
  | cons s se ih => exact congrArg (s :: ·) ih

/-- A message answers no commit, and a commit joins those that are owed an answer. -/
theorem Custody.Step.frames (h : k.Step out k') :
    out.events.filterMap framed = [] ∧ k'.owed = k.owed ++ out.latched := by
  cases h with
  | idle => exact ⟨rfl, (append_nil _).symm⟩
  | attach a hn => exact ⟨filterMap_framed_release, (append_nil _).symm⟩
  | repaint | refuse => exact ⟨rfl, rfl⟩
  | copy a ha =>
    refine ⟨?_, rfl⟩
    rw [List.filterMap_append, filterMap_framed_release]
    rfl
  | retain a ha => exact ⟨filterMap_framed_release, rfl⟩

/-- Commits are answered in order: those answered and those owed an answer are all there were. -/
theorem frames_run (ops : List ShimOp) : shimStep.Along Roomy .new ops → (shimStep.exec .new ops).closed = false →
    framedIn (shimStep.outs .new ops) ++ (shimStep.exec .new ops).server.owedFrameDones =
      latchedIn (shimStep.outs .new ops) := by
  refine shimStep.exec_past (P := fun p c => shimStep.Along Roomy .new p → c.closed = false →
    framedIn (shimStep.outs .new p) ++ c.server.owedFrameDones = latchedIn (shimStep.outs .new p))
    (fun _ _ => rfl) (fun p op ih hro hope => ?_) ops
  obtain ⟨hp, hr, -⟩ := (shimStep.along_append Roomy .new p [op]).mp hro
  have hmi := fun hc => (conserves_run p hc).1
  rw [shimStep_outs_concat]
  generalize shimStep.exec .new p = c at ih hope hr hmi ⊢
  simp only [framedIn, latchedIn, flatMap_append, flatMap_singleton] at ih ⊢
  cases hc : c.closed with
  | true =>
    rw [shimStep_closed hc] at hope
    cases hc.symm.trans hope
  | false =>
    have ih := ih hp hc
    generalize hx : shimStep c op = x at hope ⊢
    have hst := shimStep_steps (hmi hc) hc op
    rw [hx] at hst
    cases hst with
    | handled hs hm _ =>
      obtain ⟨hf, how⟩ := hs.frames
      have how : x.1.server.owedFrameDones = c.server.owedFrameDones ++ x.2.latched := how
      rw [hf, how, append_nil, ← append_assoc, ih]
    | presented hop =>
      subst hop
      have ha := presented_of_le hr
      simp only [present, ha, filterMap_framed_frameDone, append_nil]
      exact ih
    | ended hs _ hcl _ _ => cases hcl.symm.trans hope

/-! ### A refused buffer -/

variable {a : Attached} {op : ShimOp}

namespace ShimConn

variable {c : ShimConn}

def shown (c : ShimConn) : Scene × Option GpuContent × Option RetainedDmabuf :=
  (c.scene, c.gpu, c.server.retainedDmabuf)

variable {st : BufferStatus}

/-- Neither a superseded buffer nor a replaced one is answered with a failure. -/
theorem mem_release {l : List Attached} (h : bufferDone a st ∈ l.map release) : st = .released := by
  obtain ⟨b, -, hb⟩ := List.mem_map.mp h
  cases hb
  rfl

theorem handleCommit_refused {si : Nat} {state : SurfaceState} (h : c.handleCommit si state env = .ok x)
    (hm : .bufferDone a st ∈ x.2) (hs : st ≠ .released) : x.1.shown = c.shown := by
  unfold handleCommit at h
  split at h
  · cases h
  · dsimp only at h
    cases hb : state.pendingBuffer with
    | none =>
      rw [hb] at h
      cases h
      rfl
    | some pe =>
      rw [hb] at h
      generalize hl : c.putSurface si _ = latched at h
      dsimp only at h
      cases ha : latched.applyBuffer si pe (damageHint state.pendingDamage) env with
      | error v => simp [ha] at h
      | ok y =>
        rw [ha] at h
        cases applyBuffer_applied ha with
        | refused _ _ =>
          cases h
          subst hl
          rfl
        | copied sc g =>
          cases h
          rcases List.mem_append.mp hm with hm | hm
          · exact absurd (mem_release (deferredRelease_eq ▸ hm)) hs
          · cases List.mem_singleton.mp hm
            exact absurd rfl hs
        | retained g =>
          cases h
          rcases List.mem_append.mp hm with hm | hm
          · exact absurd (mem_release (deferredRelease_eq ▸ hm)) hs
          · cases hm

/-- A message that leads to a failure status changes nothing of what is shown. -/
theorem handleMessage_refused (h : c.handleMessage m env = .ok turn) (hm : .bufferDone a st ∈ turn.events)
    (hst : st ≠ .released) : turn.conn.shown = c.shown := by
  cases handleMessage_dispatched h with
  | session | damage => cases hm
  | attach hs hr ha =>
    unfold handleAttach at ha
    split at ha
    · cases ha
    · split at ha
      · cases ha
      · cases ha
        rfl
  | commit hs hc => exact handleCommit_refused hc hm hst

/-- A step that leads to a failure status, and not to the end, changes nothing of what is shown. -/
theorem shimStep_refused (hop : (shimStep c op).1.closed = false) (hm : .bufferDone a st ∈ (shimStep c op).2.events)
    (hst : st ≠ .released) : (shimStep c op).1.shown = c.shown := by
  cases hc : c.closed with
  | true =>
    rw [shimStep_closed hc] at hm
    cases hm
  | false =>
    simp only [shimStep, hc, Bool.false_eq_true, if_false] at hop hm ⊢
    cases op with
    | message m env takes =>
      dsimp only at hop hm ⊢
      cases hme : c.handleMessage m env with
      | error v =>
        rw [hme] at hm
        cases hm
      | ok turn =>
        rw [hme] at hop hm
        simp only [post] at hop hm ⊢
        split_ifs at hop hm ⊢
        · exact handleMessage_refused hme hm hst
        · cases hop
    | presented t =>
      obtain ⟨s, -, hs⟩ := List.mem_map.mp hm
      cases hs
    | seat | drain => cases hm

end ShimConn

/-! ### The result on conservation -/

/-- Where an attach stands: answered once, pending, or retained; in one of these, and answered only in the first. -/
def Stands (c : ShimConn) (answered : List Attached) (a : Attached) : Prop :=
  answered.count a = 1 ∧ c.server.pendingOf a.surface ≠ some a ∧ c.custody.retained ≠ some a ∨
  answered.count a = 0 ∧ c.server.pendingOf a.surface = some a ∧ c.custody.retained ≠ some a ∨
  answered.count a = 0 ∧ c.server.pendingOf a.surface ≠ some a ∧ c.custody.retained = some a

theorem count_toList {o : Option Attached} : o.toList.count a = if o = some a then 1 else 0 := by
  cases o with
  | none => simp
  | some b => simp [List.count_singleton]

variable {c : ShimConn}

theorem Custody.Conserves.stands (h : Custody.Conserves outs c.custody) (ha : a ∈ attachedIn outs) :
    Stands c (answeredIn outs) a := by
  have hn : (attachedIn outs).Nodup := by
    refine List.Nodup.of_map (·.number) ?_
    rw [h.numbers]
    exact List.nodup_range
  have hon : (attachedIn outs).count a = 1 := List.count_eq_one_of_mem hn ha
  have hb := h.balance a
  rw [hon, count_toList, count_toList] at hb
  have hpe : c.custody.pending a.surface = c.server.pendingOf a.surface := rfl
  rw [hpe] at hb
  by_cases hp : c.server.pendingOf a.surface = some a
  · by_cases hr : c.custody.retained = some a
    · rw [if_pos hp, if_pos hr] at hb
      omega
    · rw [if_pos hp, if_neg hr] at hb
      exact .inr (.inl ⟨by omega, hp, hr⟩)
  · by_cases hr : c.custody.retained = some a
    · rw [if_neg hp, if_pos hr] at hb
      exact .inr (.inr ⟨by omega, hp, hr⟩)
    · rw [if_neg hp, if_neg hr] at hb
      exact .inl ⟨by omega, hp, hr⟩

theorem Custody.Conserves.answered (h : Custody.Conserves outs k) (ha : a ∈ answeredIn outs) : a ∈ attachedIn outs := by
  have hp : 0 < (answeredIn outs).count a := List.count_pos_iff.mpr ha
  have hb := h.balance a
  exact List.count_pos_iff.mp (by omega)

/-- **Buffers and frames are conserved.** While a connection is open, every attach has been answered once and is not in
the core's hands, or has not been answered and is the pending buffer of its surface or the retained dmabuf, one of them.
Commits are answered once each, in order, by the next presentation, if every presentation finds room in the outbox for
what is owed. A commit whose buffer is refused leaves the scene and what is retained as they were. -/
theorem shim_buffers_conserved (ops : List ShimOp) (hopen : (shimStep.exec .new ops).closed = false) :
    let c := shimStep.exec .new ops
    let outs := shimStep.outs .new
    (attachedIn (outs ops)).map (·.number) = List.range c.server.attaches ∧
    (∀ a ∈ attachedIn (outs ops), Stands c (answeredIn (outs ops)) a) ∧
    (∀ a ∈ answeredIn (outs ops), a ∈ attachedIn (outs ops)) ∧
    (shimStep.Along Roomy .new ops →
      framedIn (outs ops) ++ c.server.owedFrameDones = latchedIn (outs ops) ∧
      ∀ p t r, ops = p ++ .presented t :: r →
        framedIn (outs (p ++ [.presented t])) = latchedIn (outs p)) ∧
    ∀ p op r a st, ops = p ++ op :: r →
      .bufferDone a st ∈ (shimStep (shimStep.exec .new p) op).2.events → st ≠ .released →
      (shimStep (shimStep.exec .new p) op).1.shown = (shimStep.exec .new p).shown := by
  obtain ⟨-, hco⟩ := conserves_run ops hopen
  -- A connection that is open now was open all along.
  have hst {p r : List ShimOp} (he : ops = p ++ r) : (shimStep.exec .new p).closed = false := by
    rw [he, Machine.exec_append] at hopen
    by_contra hcl
    have hstay := shimStep.exec_inv (P := fun c => c.closed = true)
      (fun c op hc => by rw [shimStep_closed hc]; exact hc) (Bool.not_eq_false _ ▸ hcl) r
    cases hstay.symm.trans hopen
  refine ⟨hco.numbers, fun a ha => hco.stands ha, fun a ha => hco.answered ha,
    fun hr => ⟨frames_run ops hr hopen, ?_⟩, ?_⟩
  · intro p t r he
    have hs : ops = p ++ [.presented t] ++ r := by rw [he, append_assoc, List.singleton_append]
    have hb : shimStep.Along Roomy .new (p ++ [.presented t]) :=
      ((shimStep.along_append Roomy .new _ r).mp (hs ▸ hr)).1
    obtain ⟨-, hro, -⟩ := (shimStep.along_append Roomy .new p _).mp hb
    have hal := frames_run (p ++ [.presented t]) hb (hst hs)
    have hp := presented_of_le hro
    -- Nothing is owed after a presentation that found room for all.
    have hn : (shimStep.exec .new (p ++ [.presented t])).server.owedFrameDones = [] := by
      have hc : (shimStep.exec .new p).closed = false := hst he
      rw [Machine.exec_concat]
      simp [shimStep, hc, present, hp]
    rw [hn, append_nil] at hal
    refine hal.trans ?_
    have hl : (shimStep (shimStep.exec .new p) (.presented t)).2.latched = [] := by
      simp only [shimStep]
      split_ifs <;> rfl
    rw [shimStep_outs_concat, latchedIn, flatMap_append, flatMap_singleton, hl, append_nil]
    rfl
  · intro p op r a st he hm hsta
    have hs : ops = p ++ [op] ++ r := by rw [he, append_assoc, List.singleton_append]
    have haf := hst hs
    rw [Machine.exec_concat] at haf
    exact shimStep_refused haf hm hsta

namespace Sample

def renderer : DmabufImporter := ⟨fun _ => true, .imported⟩

/-- The kernel reads what it is asked to, and there is a renderer. -/
def commitEnv : CommitEnv := ⟨.ok fun _ _ => letterboxRgba, some renderer⟩

def mint : ShimOp := .message ⟨shimSessionId, .ok (.createSurface 2), .error .malformed⟩ commitEnv 2

def toSurface (req : SurfaceRequest) : ShimOp := .message ⟨2, .error .malformed, .ok req⟩ commitEnv 2

def attach (kind : BufferKind) (cookie : Nat) : ShimOp :=
  toSurface (.attach ⟨cookie, kind, .xrgb8888, 1, 1, 4, true, 4⟩)

/-- A shim that commits sixty-five times before a frame is presented. -/
def repaints : List ShimOp :=
  [mint, attach .shm 7] ++ List.replicate 65 (toSurface .commit) ++ [.presented 0]

end Sample

open Sample in
/-- Of sixty-five commits on a connection that stays open, one is never answered. -/
theorem frame_lost : let c := shimStep.exec .new repaints
    c.closed = false ∧ c.server.owedFrameDones = [] ∧
      (latchedIn (shimStep.outs .new repaints)).length = 65 ∧
      (framedIn (shimStep.outs .new repaints)).length = 64 := by
  refine ⟨?_, ?_, ?_, ?_⟩ <;> decide +kernel

open Sample in
/-- A buffer that was copied has been answered and is held nowhere. -/
theorem shim_buffers_conserved_copied : let ops := [mint, attach .shm 7, toSurface .commit]
    Stands (shimStep.exec .new ops) (answeredIn (shimStep.outs .new ops)) ⟨2, 7, 0⟩ := by
  intro ops
  exact (shim_buffers_conserved ops (by decide +kernel)).2.1 ⟨2, 7, 0⟩ (by decide +kernel)

/-! ### Order -/

def ShimEvent.releaseOf (surface : Nat) : ShimEvent → Option Nat
  | .bufferDone a .released => if a.surface = surface then some a.number else none
  | _ => none

/-- The attaches of a surface released so far, in the order of their releases. -/
def releasesOf (surface : Nat) (outs : List ShimOut) : List Nat :=
  outs.flatMap fun o => o.events.filterMap (ShimEvent.releaseOf surface)

theorem releasesOf_concat (surface : Nat) (outs : List ShimOut) (out : ShimOut) : releasesOf surface (outs ++ [out]) =
      releasesOf surface outs ++ out.events.filterMap (releaseOf surface) := by
  rw [releasesOf, flatMap_append, flatMap_singleton]
  rfl

def numbersOf (surface : Nat) (l : List Attached) : List Nat := (l.filter (·.surface = surface)).map (·.number)

theorem filterMap_releaseOf_release (surface : Nat) (l : List Attached) :
    (l.map release).filterMap (releaseOf surface) = numbersOf surface l := by
  induction l with
  | nil => rfl
  | cons a l ih =>
    by_cases ha : a.surface = surface
    · have hr : a.release.releaseOf surface = some a.number := if_pos ha
      rw [map_cons, List.filterMap_cons_some hr, ih, numbersOf, numbersOf,
        List.filter_cons_of_pos (by simpa), map_cons]
    · have hr : a.release.releaseOf surface = none := if_neg ha
      rw [map_cons, List.filterMap_cons_none hr, ih, numbersOf, numbersOf, List.filter_cons_of_neg (by simpa)]

theorem numbersOf_singleton {surface : Nat} :
    numbersOf surface [a] = if a.surface = surface then [a.number] else [] := by
  by_cases ha : a.surface = surface <;> simp [numbersOf, ha]

variable {surface : Nat}

namespace Custody

/-- The attaches of a surface from the first release to the buffer that is pending, with the retained one between. -/
def chain (surface : Nat) (outs : List ShimOut) (k : Custody) : List Nat :=
  releasesOf surface outs ++ numbersOf surface k.retained.toList ++ numbersOf surface (k.pending surface).toList

structure Ordered (surface : Nat) (outs : List ShimOut) (k : Custody) : Prop where
  filed : ∀ s a, k.pending s = some a → a.surface = s
  sorted : (chain surface outs k).Pairwise (· < ·)
  fresh : ∀ n ∈ chain surface outs k, n < k.attaches

/-- No buffer is superseded on a surface while an earlier one of the surface is retained. -/
def Calm (k : Custody) (attached : List Attached) : Prop :=
  ∀ a ∈ attached, (k.pending a.surface).isSome → ∀ r, k.retained = some r → r.surface ≠ a.surface

variable {o' : List ShimOut}

section

variable (h : Ordered surface outs k)

include h

section

variable (hf : ∀ s a, k'.pending s = some a → a.surface = s)

include hf

variable (ha : k'.attaches = k.attaches)

include ha

theorem Ordered.sublist
    (hc : (chain surface o' k').Sublist (chain surface outs k)) :
    Ordered surface o' k' :=
  ⟨hf, h.sorted.sublist hc, fun n hn => ha ▸ h.fresh n (hc.subset hn)⟩

theorem Ordered.congr
    (hc : chain surface o' k' = chain surface outs k) : Ordered surface o' k' :=
  h.sublist hf ha (hc ▸ List.Sublist.refl _)

end

omit h in
/-- Taking the buffer a surface has pending empties the end of that surface's chain, and leaves that of another. -/
theorem numbersOf_take (surface : Nat) (k : Custody) (a : Attached) (ha : k.pending a.surface = some a) :
    numbersOf surface (k.pending surface).toList = numbersOf surface [a] ∧
      numbersOf surface (update k.pending a.surface none surface).toList = [] ∨
    numbersOf surface [a] = [] ∧ numbersOf surface (update k.pending a.surface none surface).toList =
        numbersOf surface (k.pending surface).toList := by
  by_cases hs : a.surface = surface
  · subst hs
    rw [update_self, ha]
    exact .inl ⟨rfl, rfl⟩
  · rw [update_of_ne (Ne.symm hs), numbersOf_singleton, if_neg hs]
    exact .inr ⟨rfl, rfl⟩

/-- **A step keeps the chain in order**: what it releases stays where it was, and what it attaches comes last. -/
theorem Ordered.step (hste : k.Step out k') (hca : k.Calm out.attached) : Ordered surface (outs ++ [out]) k' := by
  have hno {s : Nat} : ∀ a : Attached, (none : Option Attached) = some a → a.surface = s := fun _ ha => nomatch ha
  have hsa {e : List ShimEvent} {att : List Attached} {l : List Nat}
      (he : e.filterMap (releaseOf surface) = []) :
      releasesOf surface (outs ++ [⟨att, l, e⟩]) = releasesOf surface outs := by
    rw [releasesOf_concat, he, append_nil]
  cases hste with
  | idle | repaint => exact h.congr h.filed rfl (by rw [chain, hsa rfl, chain])
  | attach a hnu =>
    have hf := filed_update h.filed (s := a.surface) (o := some a) fun b hb => by cases hb; rfl
    have hre := releasesOf_concat surface outs ⟨[a], [], (k.pending a.surface).toList.map release⟩
    rw [filterMap_releaseOf_release] at hre
    by_cases hs : a.surface = surface
    · subst hs
      -- Of a retained and a superseded buffer there is at most one: their order does not matter.
      have hco : numbersOf a.surface (k.pending a.surface).toList ++ numbersOf a.surface k.retained.toList =
          numbersOf a.surface k.retained.toList ++ numbersOf a.surface (k.pending a.surface).toList := by
        cases hp : k.pending a.surface with
        | none => simp [numbersOf]
        | some ol =>
          have hot : numbersOf a.surface k.retained.toList = [] := by
            cases hr : k.retained with
            | none => rfl
            | some r =>
              rw [toList_some, numbersOf_singleton,
                if_neg (hca a (.head _) (by rw [hp]; rfl) r hr)]
          rw [hot, append_nil, List.nil_append]
      have hc : chain a.surface
          (outs ++ [⟨[a], [], (k.pending a.surface).toList.map release⟩])
          { k with pending := update k.pending a.surface (some a), attaches := k.attaches + 1 } =
          chain a.surface outs k ++ [k.attaches] := by
        rw [chain, hre, chain]
        dsimp only
        rw [update_self, toList_some, numbersOf_singleton, if_pos rfl, hnu,
          append_assoc (releasesOf a.surface outs), hco, ← append_assoc (releasesOf a.surface outs)]
      refine ⟨hf, ?_, fun n hn => ?_⟩
      · rw [hc]
        refine List.pairwise_append.mpr ⟨h.sorted, List.pairwise_singleton _ _, fun n hn m hm => ?_⟩
        exact List.mem_singleton.mp hm ▸ h.fresh n hn
      · rw [hc] at hn
        rcases List.mem_append.mp hn with hn | hn
        · exact Nat.lt_succ_of_lt (h.fresh n hn)
        · exact List.mem_singleton.mp hn ▸ Nat.lt_succ_self _
    · -- The attach is to another surface, and so was the buffer it supersedes.
      have hold : numbersOf surface (k.pending a.surface).toList = [] := by
        cases hp : k.pending a.surface with
        | none => rfl
        | some ol => rw [toList_some, numbersOf_singleton, if_neg (h.filed _ _ hp ▸ hs)]
      have hc : chain surface (outs ++ [⟨[a], [], (k.pending a.surface).toList.map release⟩])
          { k with pending := update k.pending a.surface (some a), attaches := k.attaches + 1 } =
          chain surface outs k := by
        rw [chain, hre, hold, chain, append_nil]
        dsimp only
        rw [update_of_ne (Ne.symm hs)]
      exact ⟨hf, hc ▸ h.sorted, fun n hn => Nat.lt_succ_of_lt (h.fresh n (hc ▸ hn))⟩
  | refuse a st ha hst =>
    refine h.sublist (filed_update h.filed hno) rfl ?_
    have he : [bufferDone a st].filterMap (releaseOf surface) = [] := by
      cases st <;> first | rfl | exact absurd rfl hst
    rw [chain, hsa he, chain]
    refine List.Sublist.append_left ?_ _
    rcases numbersOf_take surface k a ha with ⟨-, hni⟩ | ⟨-, hk⟩
    · exact hni ▸ List.nil_sublist _
    · exact hk ▸ List.Sublist.refl _
  | copy a ha =>
    refine h.congr (filed_update h.filed hno) rfl ?_
    have hrel : [a.release].filterMap (releaseOf surface) = numbersOf surface [a] :=
      filterMap_releaseOf_release surface [a]
    rw [chain, releasesOf_concat, List.filterMap_append, filterMap_releaseOf_release, hrel, chain]
    rw [toList_none, show numbersOf surface [] = [] from rfl, append_nil, ← append_assoc]
    rcases numbersOf_take surface k a ha with ⟨hl, hni⟩ | ⟨hot, hk⟩
    · rw [hni, hl, append_nil]
    · rw [hot, hk, append_nil]
  | retain a ha =>
    refine h.congr (filed_update h.filed hno) rfl ?_
    rw [chain, releasesOf_concat, filterMap_releaseOf_release, chain]
    rw [toList_some]
    rcases numbersOf_take surface k a ha with ⟨hl, hni⟩ | ⟨hot, hk⟩
    · rw [hni, hl, append_nil]
    · rw [hot, hk, append_nil]

theorem Ordered.present (owed sent : List Nat) (timeMs : Nat) :
    Ordered surface (outs ++ [⟨[], [], sent.map fun s => .frameDone s timeMs⟩]) { k with owed } := by
  refine h.congr h.filed rfl ?_
  have he : (sent.map fun s => frameDone s timeMs).filterMap (releaseOf surface) = [] := by simp [releaseOf]
  rw [chain, releasesOf_concat, he, append_nil, chain]

end

theorem Step.answers (h : k.Step out k') (ha : a ∈ out.events.filterMap answered) :
    (∃ s, k.pending s = some a) ∨ k.retained = some a := by
  cases h with
  | idle | repaint => cases ha
  | attach b hn =>
    rw [filterMap_answered_release] at ha
    exact .inl ⟨_, Option.mem_toList.mp ha⟩
  | refuse b st hb hs =>
    cases List.mem_singleton.mp ha
    exact .inl ⟨_, hb⟩
  | copy b hb =>
    rw [List.filterMap_append, filterMap_answered_release] at ha
    rcases List.mem_append.mp ha with ha | ha
    · exact .inr (Option.mem_toList.mp ha)
    · cases List.mem_singleton.mp ha
      exact .inl ⟨_, hb⟩
  | retain b hb =>
    rw [filterMap_answered_release] at ha
    exact .inr (Option.mem_toList.mp ha)

theorem Conserves.attached (h : Conserves outs k) (ha : (∃ s, k.pending s = some a) ∨ k.retained = some a) :
    a ∈ attachedIn outs := by
  have hb := h.balance a
  refine List.count_pos_iff.mp ?_
  rcases ha with ⟨s, hs⟩ | hr
  · obtain rfl := h.filed s a hs
    rw [hs, toList_some, List.count_singleton_self] at hb
    omega
  · rw [hr, toList_some, List.count_singleton_self] at hb
    omega

end Custody

/-- An attach does not supersede a pending buffer of a surface of which an earlier buffer is retained. -/
def Orderly (c : ShimConn) : ShimOp → Prop
  | .message m _ _ => ∀ req, m.surface = .ok (.attach req) → (c.server.pendingOf m.objectId).isSome →
      ∀ r, c.server.retainedDmabuf = some r → r.surfaceId ≠ m.objectId
  | _ => True

theorem Orderly.calm (h : Orderly c op) {att : List Attached} (hn : ShimConn.Names op att) : c.custody.Calm att := by
  intro a ha hp r hr
  obtain ⟨m, env, takes, re, rfl, hs, hre⟩ := hn a ha
  obtain ⟨r', hr', rfl⟩ := Option.map_eq_some_iff.mp hr
  rw [← hs] at hp ⊢
  exact h re hre hp r' hr'

theorem Custody.Conserves.numbers_length (h : Custody.Conserves outs k) :
    (attachedIn outs).map (·.number) = range (attachedIn outs).length := by
  have hl := congrArg List.length h.numbers
  rw [List.length_map, List.length_range] at hl
  rw [h.numbers, hl]

/-- What was released so far is in order and was attached; while the connection is open, so is what it has. -/
structure Released (surface : Nat) (outs : List ShimOut) (c : ShimConn) : Prop where
  numbers : (attachedIn outs).map (·.number) = List.range (attachedIn outs).length
  answered : ∀ a ∈ answeredIn outs, a ∈ attachedIn outs
  sorted : (releasesOf surface outs).Pairwise (· < ·)
  ordered : c.closed = false → Custody.Ordered surface outs c.custody

theorem Custody.Ordered.releases (h : Custody.Ordered surface outs k) : (releasesOf surface outs).Pairwise (· < ·) := by
  refine h.sorted.sublist ?_
  rw [Custody.chain, append_assoc]
  exact List.sublist_append_left _ _

theorem Released.of_custody (hc : Custody.Conserves outs c.custody) (hor : Custody.Ordered surface outs c.custody) :
    Released surface outs c :=
  ⟨hc.numbers_length, fun _ => hc.answered, hor.releases, fun _ => hor⟩

theorem Released.step (h : Released surface outs c)
    (hmi : c.closed = false → c.server.Minted ∧ Custody.Conserves outs c.custody) (hord : Orderly c op) :
    Released surface (outs ++ [(shimStep c op).2]) (shimStep c op).1 := by
  cases hc : c.closed with
  | true =>
    rw [shimStep_closed hc]
    have hs : attachedIn (outs ++ [.none]) = attachedIn outs := by simp [attachedIn, ShimOut.none]
    refine ⟨?_, ?_, ?_, fun hope => absurd (hc.symm.trans hope) (by simp)⟩
    · rw [hs]
      exact h.numbers
    · rw [hs, show answeredIn (outs ++ [.none]) = answeredIn outs by simp [answeredIn, ShimOut.none]]
      exact h.answered
    · rw [show releasesOf surface (outs ++ [.none]) = releasesOf surface outs by simp [releasesOf, ShimOut.none]]
      exact h.sorted
  | false =>
    obtain ⟨hm, hco⟩ := hmi hc
    have hor := h.ordered hc
    generalize hx : shimStep c op = x
    have hste := shimStep_steps hm hc op
    rw [hx] at hste
    cases hste with
    | handled hst _ hn => exact .of_custody (hco.step hst) (hor.step hst (hord.calm hn))
    | presented hop => exact .of_custody (hco.present _ _ _) (hor.present _ _ _)
    | @ended x out k hst hn hcl hat he =>
      have hs : attachedIn (outs ++ [x.2]) = attachedIn outs := by
        rw [attachedIn, flatMap_append, flatMap_singleton, hat, append_nil]
        rfl
      refine ⟨?_, fun a ha => ?_, ?_, fun hope => absurd (hcl.symm.trans hope) (by simp)⟩
      · rw [hs]
        exact h.numbers
      · rw [answeredIn, flatMap_append, flatMap_singleton] at ha
        rw [hs]
        rcases List.mem_append.mp ha with ha | ha
        · exact h.answered a ha
        · exact hco.attached (hst.answers ((he.sublist.filterMap _).subset ha))
      · -- What is sent before the end is the beginning of what would have been sent in order.
        have hal := (hor.step hst (hord.calm hn)).releases
        rw [releasesOf_concat] at hal ⊢
        exact hal.sublist ((he.sublist.filterMap _).append_left _)

/-- **Releases come in the order of attaches.** In every run, the attaches of a connection are numbered in their order,
only what was attached is answered, and the buffers of a surface that are released come back in the order in which they
were attached: if no attach supersedes a pending buffer of a surface of which an earlier buffer is retained. -/
theorem releases_in_attach_order (ops : List ShimOp) (horderly : shimStep.Along Orderly .new ops) (surface : Nat) :
    let outs := shimStep.outs .new ops
    (attachedIn outs).map (·.number) = List.range (attachedIn outs).length ∧
    (∀ a ∈ answeredIn outs, a ∈ attachedIn outs) ∧
    (releasesOf surface outs).Pairwise (· < ·) := by
  have hr := shimStep.exec_past (s := .new)
    (P := fun p c => shimStep.Along Orderly .new p → Released surface (shimStep.outs .new p) c)
    (fun _ => ⟨rfl, fun a ha => (nomatch ha), List.Pairwise.nil,
      fun _ => ⟨fun s a ha => (nomatch ha), List.Pairwise.nil, fun n hn => (nomatch hn)⟩⟩)
    (fun p op ih hc => ?_) ops horderly
  · exact ⟨hr.numbers, hr.answered, hr.sorted⟩
  · obtain ⟨hp, horderly, -⟩ := (shimStep.along_append Orderly .new p [op]).mp hc
    rw [shimStep_outs_concat]
    exact (ih hp).step (conserves_run p) horderly

namespace Sample

/-- A dmabuf is shown; the next buffer is superseded before it is committed. -/
def supersedes : List ShimOp :=
  [mint, attach .dmabuf 10, toSurface .commit, attach .shm 11, attach .shm 12, toSurface .commit]

/-- A dmabuf is shown and replaced by a copied buffer. -/
def replaces : List ShimOp := [mint, attach .dmabuf 10, toSurface .commit, attach .shm 11, toSurface .commit]

end Sample

open Sample in
/-- The superseded buffer comes back before the one that was attached earlier and is retained. -/
theorem release_overtakes : releasesOf 2 (shimStep.outs .new supersedes) = [1, 0, 2] := by
  decide +kernel

open Sample in
/-- A replaced dmabuf comes back before the buffer that replaced it. -/
theorem releases_in_attach_order_replaced : releasesOf 2 (shimStep.outs .new replaces) = [0, 1] ∧
      (releasesOf 2 (shimStep.outs .new replaces)).Pairwise (· < ·) := by
  refine ⟨by decide +kernel, (releases_in_attach_order replaces ?_ 2).2.2⟩
  -- No attach finds a pending buffer.
  refine ⟨fun r hr => ?_, fun r _ h => absurd h (by decide +kernel), fun r hr => ?_,
    fun r _ h => absurd h (by decide +kernel), fun r hr => ?_, trivial⟩ <;> cases hr

end Vitrin
