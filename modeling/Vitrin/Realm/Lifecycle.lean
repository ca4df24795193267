import Vitrin.Lib.Machine
import Vitrin.Scene.Scene
import Vitrin.Seat.Router

/-!
# The end of a realm

A realm dies once. Its connection ends or breaks, its process is found to have exited, the
core takes it down: each of these is noticed on its own, in any order and more than once,
and all run the same teardown, which is behind a latch.

`RealmLifecycle` is what the core keeps of a spawned shim, `RealmTeardown` what a death is
taken out of: the realm's scene, the input router, the clipboard, the idle inhibits and the
realm registry, and the record of the session. What the kernel answers to `waitpid` and
`kill` comes with the call. A shim with its session up and one without are taken down alike
as far as this state goes, so the teardown has one branch for both.

`lifeStep` runs the observers, and between them the commits of the shim, which reach the
core only while it holds the connection.

`Advances` says what any part of the teardown can do; it composes, so the observers have
one lemma each. `death_latched` follows.
-/

namespace Vitrin

open Lib

/-! ### Data -/

/-- How a process ended. -/
inductive ExitClass where
  | exited (code : Int)
  | signaled (signal : Int)
  | unknown
  deriving DecidableEq

inductive DeathCause where
  | connectionClosed
  | connectionFault
  | processExit
  | shutdown
  deriving DecidableEq

inductive RealmRecord where
  | realmDied (realm : RealmId) (pid : Nat) (cause : DeathCause)
  | realmExited (realm : RealmId) (pid : Nat) (exit : ExitClass) (coreInitiated : Bool)
  deriving DecidableEq

def RealmRecord.isDied : RealmRecord → Bool
  | .realmDied .. => true
  | .realmExited .. => false

def RealmRecord.isExited (r : RealmRecord) : Bool := !r.isDied

def RealmRecord.subject : RealmRecord → RealmId × Nat
  | .realmDied realm pid _ | .realmExited realm pid _ _ => (realm, pid)

/-- How far the shutdown had to go. -/
inductive ShutdownRung where
  | alreadyDead
  | hangup
  | term
  | kill
  deriving DecidableEq

/-- What `waitpid` answers of a child that is not reaped. -/
inductive WaitResult where
  | exited (status : ExitClass)
  | running
  | failed
  deriving DecidableEq

def sigkill : Int := 9

def sigterm : Int := 15

/-- What the core keeps of a spawned shim. -/
structure RealmLifecycle where
  realmId : RealmId
  pid : Nat
  child : Bool
  /-- The core holds its end of the connection. -/
  hangup : Bool
  death : Option DeathCause
  exit : Option ExitClass
  coreSignals : List Int
  runtimeDirRemoved : Bool

namespace RealmRegistry

/-- Set a realm's state; whether the realm is known. -/
def mark (rs : RealmRegistry) (id : RealmId) (state : RealmState) : RealmRegistry × Bool :=
  ({ realms := rs.realms.modify id fun r => { r with state }
     keyed := by
      intro id' r h
      rw [OrdMap.get?_modify] at h
      split at h
      · obtain ⟨r', hr', rfl⟩ := Option.map_eq_some_iff.1 h
        exact rs.keyed id' r' hr'
      · exact rs.keyed id' r h },
    (rs.realms.get? id).isSome)

/-- The realm's shim is gone. -/
def markExited (rs : RealmRegistry) (id : RealmId) (pid : Nat) : RealmRegistry × Bool := rs.mark id (.exited pid)

theorem resolveForPetition_markExited (rs : RealmRegistry) (id : RealmId) (p : Nat) :
    (rs.markExited id p).1.resolveForPetition id.name = none := by
  simp only [markExited, mark, resolveForPetition, Option.map_eq_none_iff, Option.filter_eq_none_iff,
    OrdMap.get?_modify]
  intro r hr
  obtain ⟨r', -, rfl⟩ := Option.map_eq_some_iff.1 hr
  simp [Realm.admitsPetitions]

end RealmRegistry

variable {H : Type}

structure RealmTeardown (H : Type) where
  scene : Scene
  router : InputRouter H
  clipboard : ClipboardSlot
  idleInhibits : OrdMap RealmId (Option Nat)
  realms : RealmRegistry
  recorder : List RealmRecord

structure RealmRun (H : Type) where
  life : RealmLifecycle
  teardown : RealmTeardown H

/-! ### The teardown -/

def RealmLifecycle.adopt (realmId : RealmId) (pid : Nat) : RealmLifecycle :=
  ⟨realmId, pid, true, true, none, none, [], false⟩

/-- The signal that ended the process was the core's. -/
def RealmLifecycle.coreInitiated (l : RealmLifecycle) : Bool := match l.exit with
  | some (.signaled signal) => signal ∈ l.coreSignals
  | _ => false

def RealmLifecycle.viewIsLive (l : RealmLifecycle) (scene : Scene) : Bool := l.death.isNone && scene.surfaceSize.isSome

namespace RealmTeardown

def dead (t : RealmTeardown H) (realm : RealmId) (pid : Nat) (cause : DeathCause) : RealmTeardown H where
  scene := t.scene.clearSurface
  router := (t.router.resetFor realm false).1
  clipboard := (t.clipboard.forgetRealm realm).1
  idleInhibits := t.idleInhibits.erase realm
  realms := (t.realms.markExited realm pid).1
  recorder := t.recorder ++ [.realmDied realm pid cause]

end RealmTeardown

namespace RealmRun

/-- The latch: the first cause takes the realm down, and every later one finds it dead. -/
def die (s : RealmRun H) (cause : DeathCause) : RealmRun H × Bool :=
  if s.life.death.isSome then (s, false)
  else (⟨{ s.life with death := some cause, hangup := false }, s.teardown.dead s.life.realmId s.life.pid cause⟩, true)

/-- The handle of the process is given up for how it ended. -/
def reap (s : RealmRun H) (status : ExitClass) : RealmRun H :=
  { s with life := { s.life with child := false, exit := some status } }

def exitRecord (s : RealmRun H) (status : ExitClass) : RealmRecord :=
  .realmExited s.life.realmId s.life.pid status s.life.coreInitiated

def collectExit (s : RealmRun H) (status : ExitClass) : RealmRun H :=
  let s := ((s.reap status).die .processExit).1
  { s with teardown := { s.teardown with recorder := s.teardown.recorder ++ [s.exitRecord status] } }

/-- Ask after the process without waiting; whether this call reaped it. -/
def pollExit (s : RealmRun H) (wait : WaitResult) : RealmRun H × Bool :=
  if s.life.child then
    match wait with
    | .exited status => (s.collectExit status, true)
    | .running => (s, false)
    | .failed => (s, false)
  else (s, false)

def noteCoreSignal (s : RealmRun H) (signal : Int) : RealmRun H :=
  if signal ∈ s.life.coreSignals then s
  else { s with life := { s.life with coreSignals := s.life.coreSignals ++ [signal] } }

/-- Send the process a signal, if it is not reaped; the kernel may refuse. -/
def signal (s : RealmRun H) (signal : Int) (sent : Bool) : RealmRun H :=
  if ¬ s.life.child then s
  else if 2 ^ 31 ≤ s.life.pid then s
  else if ¬ sent then s
  else s.noteCoreSignal signal

/-- The connection ended or broke. Whether this was the death. -/
def noteConnectionClosed (s : RealmRun H) (cause : DeathCause) (wait : WaitResult) (sent : Bool) : RealmRun H × Bool :=
  let died := s.die cause
  let polled := (died.1.pollExit wait).1
  (if polled.life.child then polled.signal sigterm sent else polled, died.2)

/-- Poll until the process is reaped or the time is up; the polls made within the time. -/
def waitForExit (s : RealmRun H) : List WaitResult → RealmRun H × Bool
  | [] => (s, !s.life.child)
  | wait :: waits =>
    if ¬ s.life.child then (s, true)
    else match s.pollExit wait with
      | (s, true) => (s, true)
      | (s, false) => s.waitForExit waits

/-- The last resort: kill and wait. Nothing is reaped if the wait fails. -/
def forceKill (s : RealmRun H) (killed : Bool) (reaped : Option ExitClass) : RealmRun H :=
  if ¬ s.life.child then s
  else
    let s := if killed then s.noteCoreSignal sigkill else s
    match reaped with
    | some status => s.collectExit status
    | none => s

structure ShutdownAnswers where
  hangupWaits : List WaitResult
  termSent : Bool
  termWaits : List WaitResult
  killed : Bool
  reaped : Option ExitClass

/-- Wait, ask, insist: how the process of a dead realm is got rid of. -/
def ladder (s : RealmRun H) (k : ShutdownAnswers) : RealmRun H × ShutdownRung :=
  if ¬ s.life.child then (s, .alreadyDead)
  else match s.waitForExit k.hangupWaits with
    | (s, true) => (s, .hangup)
    | (s, false) => match (s.signal sigterm k.termSent).waitForExit k.termWaits with
      | (s, true) => (s, .term)
      | (s, false) => (s.forceKill k.killed k.reaped, .kill)

/-- The realm's runtime directory is removed, once. -/
def removeRuntimeDir (s : RealmRun H) : RealmRun H := { s with life := { s.life with runtimeDirRemoved := true } }

/-- The core takes the realm down; how far it had to go. -/
def shutdown (s : RealmRun H) (k : ShutdownAnswers) : RealmRun H × ShutdownRung :=
  let gone := (s.die .shutdown).1.ladder k
  (gone.1.removeRuntimeDir, gone.2)

end RealmRun

/-! ### The machine -/

/-- Something that happens to a realm. -/
inductive LifeOp where
  | eof (wait : WaitResult) (sent : Bool)
  /-- A transport fault or a protocol violation on the connection. -/
  | fault (wait : WaitResult) (sent : Bool)
  /-- A child of the core may have exited. -/
  | poll (wait : WaitResult)
  | shutdown (answers : RealmRun.ShutdownAnswers)
  | commit (content : SurfaceContent) (damage : Option DamageRect)

/-- The observer sees the realm's end. -/
def LifeOp.Fires : LifeOp → Bool
  | .eof .. | .fault .. | .shutdown _ => true
  | .poll wait => match wait with
    | .exited _ => true
    | _ => false
  | .commit .. => false

def lifeStep : Machine (RealmRun H) LifeOp Unit := fun s op => (match op with
  | .eof wait sent => (s.noteConnectionClosed .connectionClosed wait sent).1
  | .fault wait sent => (s.noteConnectionClosed .connectionFault wait sent).1
  | .poll wait => (s.pollExit wait).1
  | .shutdown answers => (s.shutdown answers).1
  | .commit content damage =>
    if s.life.hangup then
      { s with teardown := { s.teardown with scene := s.teardown.scene.commitWithDamage content damage } }
    else s, ())

/-! ### What the teardown can do -/

variable {s : RealmRun H}

namespace RealmRun

/-- A dead realm is out of what it was taken out of. -/
structure Retired (s : RealmRun H) : Prop where
  hangup : s.life.hangup = false
  scene : s.teardown.scene.surface = none
  realms : s.teardown.realms.resolveForPetition s.life.realmId.name = none

/-- A realm that lives is not reaped and its connection is held, and a dead one is retired. -/
structure Sound (s : RealmRun H) : Prop where
  alive : s.life.death = none → s.life.child = true ∧ s.life.hangup = true
  dead : s.life.death.isSome → s.Retired

/-- From one state to a later one: the realm is the same, a death and an exit are not undone, and what was recorded in
between is one death if it died and one exit if it was reaped. -/
structure Advances (s s' : RealmRun H) : Prop where
  subject : s'.life.realmId = s.life.realmId ∧ s'.life.pid = s.life.pid
  latched : s.life.death.isSome → s'.life.death = s.life.death
  recorded : ∃ written, s'.teardown.recorder = s.teardown.recorder ++ written ∧
    (∀ r ∈ written, r.subject = (s.life.realmId, s.life.pid)) ∧
    written.countP RealmRecord.isDied + s.life.death.isSome.toNat = s'.life.death.isSome.toNat ∧
    written.countP RealmRecord.isExited + s'.life.child.toNat = s.life.child.toNat
  sound : s.Sound → s'.Sound

theorem Retired.reap (h : s.Retired) (st : ExitClass) : (s.reap st).Retired := ⟨h.hangup, h.scene, h.realms⟩

theorem Advances.of_quiet {s' : RealmRun H} (hs : s'.life.realmId = s.life.realmId ∧ s'.life.pid = s.life.pid)
    (hd : s'.life.death = s.life.death) (hc : s'.life.child = s.life.child)
    (hh : s'.life.hangup = s.life.hangup) (hr : s'.teardown.recorder = s.teardown.recorder)
    (hre : s.Retired → s'.Retired) : s.Advances s' where
  subject := hs
  latched _ := hd
  recorded := ⟨[], by simp [hr, hd, hc]⟩
  sound := by
    intro h
    refine ⟨?_, fun hde => hre (h.dead (hd ▸ hde))⟩
    intro ha
    rw [hc, hh]
    exact h.alive (hd ▸ ha)

theorem Advances.refl (s : RealmRun H) : s.Advances s := .of_quiet ⟨rfl, rfl⟩ rfl rfl rfl rfl id

theorem Advances.trans {s' s'' : RealmRun H} (h : s.Advances s') (h' : s'.Advances s'') : s.Advances s'' := by
  obtain ⟨w, hre, hn, hdi, he⟩ := h.recorded
  obtain ⟨w', hr', hn', hd', he'⟩ := h'.recorded
  refine ⟨⟨h'.subject.1.trans h.subject.1, h'.subject.2.trans h.subject.2⟩, ?_, ⟨w ++ w', ?_, ?_, ?_, ?_⟩,
    fun hs => h'.sound (h.sound hs)⟩
  · intro hd
    have hl := h.latched hd
    exact (h'.latched (hl ▸ hd)).trans hl
  · rw [hr', hre, List.append_assoc]
  · intro r hr
    obtain hr | hr := List.mem_append.1 hr
    · exact hn r hr
    · rw [hn' r hr, h.subject.1, h.subject.2]
  · rw [List.countP_append]
    omega
  · rw [List.countP_append]
    omega

variable {s : RealmRun H}

theorem die_dead (s : RealmRun H) (c : DeathCause) : (s.die c).1.life.death.isSome := by
  simp only [die]
  split
  · assumption
  · rfl

theorem die_retired (h : s.life.death.isSome → s.Retired) (c : DeathCause) : (s.die c).1.Retired := by
  simp only [die]
  split
  · exact h ‹_›
  · exact ⟨rfl, rfl, s.teardown.realms.resolveForPetition_markExited _ _⟩

theorem die_advances (s : RealmRun H) (c : DeathCause) : s.Advances (s.die c).1 where
  subject := by
    simp only [die]
    split <;> exact ⟨rfl, rfl⟩
  latched := by
    intro hd
    rw [die, if_pos hd]
  recorded := by
    simp only [die]
    split
    · exact ⟨[], by simp⟩
    · rename_i ha
      exact ⟨[_], rfl, by simp [RealmRecord.subject], by simp [RealmRecord.isDied, ha],
        by simp [RealmRecord.isExited, RealmRecord.isDied]⟩
  sound := by
    intro hs
    refine ⟨?_, fun _ => die_retired hs.dead c⟩
    intro ha
    have hd := s.die_dead c
    rw [ha] at hd
    cases hd

theorem collectExit_dead (s : RealmRun H) (st : ExitClass) : (s.collectExit st).life.death.isSome := die_dead _ _

theorem collectExit_advances (hc : s.life.child = true) (st : ExitClass) : s.Advances (s.collectExit st) := by
  have hd := (s.reap st).die_advances .processExit
  obtain ⟨w, hrec, hna, hdi, he⟩ := hd.recorded
  refine ⟨hd.subject, hd.latched, ⟨w ++ [((s.reap st).die .processExit).1.exitRecord st], ?_⟩, ?_⟩
  · refine ⟨?_, ?_, ?_, ?_⟩
    · rw [← List.append_assoc]
      exact congrArg (· ++ _) hrec
    · intro r hr
      obtain hr | hr := List.mem_append.1 hr
      · exact hna r hr
      · obtain rfl := List.mem_singleton.1 hr
        exact Prod.ext hd.subject.1 hd.subject.2
    · rw [List.countP_append]
      exact hdi
    · -- The latch records no exit, and the process was not reaped before.
      have hn : w.countP RealmRecord.isExited = 0 ∧ (s.collectExit st).life.child = false := by
        rw [show (s.reap st).life.child.toNat = 0 from rfl, Nat.add_eq_zero_iff] at he
        exact ⟨he.1, Bool.toNat_eq_zero.1 he.2⟩
      rw [List.countP_append, hn.1, hn.2, hc]
      rfl
  · intro hs
    refine ⟨?_, ?_⟩
    · intro ha
      have hde := s.collectExit_dead st
      rw [ha] at hde
      cases hde
    · intro _
      have hre := die_retired (s := s.reap st) (fun hde => (hs.dead hde).reap st) .processExit
      exact ⟨hre.hangup, hre.scene, hre.realms⟩

section

variable (s : RealmRun H)

theorem pollExit_advances (w : WaitResult) : s.Advances (s.pollExit w).1 := by
  simp only [pollExit]
  split
  · cases w with
    | exited st => exact collectExit_advances ‹_› st
    | running | failed => exact .refl s
  · exact .refl s

theorem noteCoreSignal_advances (si : Int) : s.Advances (s.noteCoreSignal si) := by
  simp only [noteCoreSignal]
  split
  · exact .refl s
  · exact .of_quiet ⟨rfl, rfl⟩ rfl rfl rfl rfl fun h => ⟨h.hangup, h.scene, h.realms⟩

theorem signal_advances (si : Int) (se : Bool) : s.Advances (s.signal si se) := by
  simp only [RealmRun.signal]
  split
  · exact .refl s
  · split
    · exact .refl s
    · split
      · exact .refl s
      · exact s.noteCoreSignal_advances si

theorem noteConnectionClosed_advances (c : DeathCause) (w : WaitResult) (se : Bool) :
    (s.die c).1.Advances (s.noteConnectionClosed c w se).1 := by
  simp only [noteConnectionClosed]
  refine (pollExit_advances _ w).trans ?_
  split
  · exact signal_advances _ _ _
  · exact .refl _

theorem waitForExit_advances (w : List WaitResult) : s.Advances (s.waitForExit w).1 := by
  induction w generalizing s with
  | nil => exact .refl s
  | cons wa w ih =>
    simp only [waitForExit]
    split
    · exact .refl s
    · have hp := s.pollExit_advances wa
      split
      · rename_i s' hs
        rwa [hs] at hp
      · rename_i s' hs
        rw [hs] at hp
        exact hp.trans (ih s')

theorem forceKill_advances (k : Bool) (r : Option ExitClass) : s.Advances (s.forceKill k r) := by
  simp only [forceKill]
  split
  · exact .refl s
  · rename_i hc
    have hk : s.Advances (if k then s.noteCoreSignal sigkill else s) := by
      split
      · exact s.noteCoreSignal_advances sigkill
      · exact .refl s
    have hu : (if k then s.noteCoreSignal sigkill else s).life.child = true := by
      rw [Bool.not_eq_true, Bool.not_eq_false] at hc
      simp only [noteCoreSignal]
      split_ifs <;> exact hc
    cases r with
    | none => exact hk
    | some st => exact hk.trans (collectExit_advances hu st)

end

theorem ladder_advances (k : ShutdownAnswers) : s.Advances (s.ladder k).1 := by
  have hh := s.waitForExit_advances k.hangupWaits
  simp only [ladder]
  split
  · exact .refl s
  · split
    · rename_i s' hs
      rwa [hs] at hh
    · rename_i s' hs
      rw [hs] at hh
      have ht := (s'.signal_advances sigterm k.termSent).trans (waitForExit_advances _ k.termWaits)
      split
      · rename_i s'' hs'
        rw [hs'] at ht
        exact hh.trans ht
      · rename_i s'' hs'
        rw [hs'] at ht
        exact (hh.trans ht).trans (s''.forceKill_advances _ _)

theorem shutdown_advances (s : RealmRun H) (k : ShutdownAnswers) : (s.die .shutdown).1.Advances (s.shutdown k).1 :=
  (ladder_advances k).trans (.of_quiet ⟨rfl, rfl⟩ rfl rfl rfl rfl fun h => ⟨h.hangup, h.scene, h.realms⟩)

end RealmRun

/-! ### Runs -/

section Runs

variable {s : RealmRun H}

theorem lifeStep_advances (s : RealmRun H) (op : LifeOp) : s.Advances (lifeStep s op).1 := by
  cases op with
  | eof w sent | fault w sent => exact (s.die_advances _).trans (s.noteConnectionClosed_advances _ w sent)
  | poll w => exact s.pollExit_advances w
  | shutdown a => exact (s.die_advances _).trans (s.shutdown_advances a)
  | commit c d =>
    simp only [lifeStep]
    split
    · rename_i hh
      refine .of_quiet ⟨rfl, rfl⟩ rfl rfl rfl rfl ?_
      intro hr
      -- A retired realm's connection is gone.
      have hg := hr.hangup
      rw [hh] at hg
      cases hg
    · exact .refl s

theorem lifeStep_dead (hs : s.Sound) {op : LifeOp} (hf : op.Fires = true) : (lifeStep s op).1.life.death.isSome := by
  have after {t t' : RealmRun H} (h : t.life.death.isSome) (ha : t.Advances t') : t'.life.death.isSome :=
    ha.latched h ▸ h
  cases op with
  | eof w sent | fault w sent => exact after (s.die_dead _) (s.noteConnectionClosed_advances _ w sent)
  | shutdown a => exact after (s.die_dead _) (s.shutdown_advances a)
  | commit c d => cases hf
  | poll w =>
    cases w with
    | running | failed => cases hf
    | exited st =>
      simp only [lifeStep, RealmRun.pollExit]
      split
      · exact s.collectExit_dead st
      · rename_i hc
        rw [Option.isSome_iff_ne_none]
        intro hal
        exact hc (hs.alive hal).1

theorem lifeStep_quiet {op : LifeOp} (hf : op.Fires = false) : (lifeStep s op).1.life.death = s.life.death := by
  cases op with
  | eof | fault | shutdown => cases hf
  | commit c d =>
    simp only [lifeStep]
    split <;> rfl
  | poll w =>
    simp only [lifeStep, RealmRun.pollExit]
    split
    · cases w with
      | exited st => cases hf
      | running | failed => rfl
    · rfl

theorem adopt_sound (r : RealmId) (p : Nat) (t : RealmTeardown H) : (⟨.adopt r p, t⟩ : RealmRun H).Sound where
  alive _ := ⟨rfl, rfl⟩
  dead h := nomatch h

theorem dead_iff_fired (hs : s.Sound) (hal : s.life.death = none) (ops : List LifeOp) :
    s.Advances (lifeStep.exec s ops) ∧ ((lifeStep.exec s ops).life.death.isSome ↔ ∃ op ∈ ops, op.Fires = true) := by
  refine Machine.exec_past (P := fun p t => s.Advances t ∧ (t.life.death.isSome ↔ ∃ op ∈ p, op.Fires = true))
    ⟨.refl s, by simp [hal]⟩ ?_ ops
  intro p op ⟨ha, hd⟩
  have hst := lifeStep_advances (lifeStep.exec s p) op
  refine ⟨ha.trans hst, ?_⟩
  cases hf : op.Fires with
  | true => simp [lifeStep_dead (ha.sound hs) hf, hf]
  | false => simp [lifeStep_quiet hf, hf, hd]

end Runs

theorem PetitionRegistry.admitPetition_unavailable (r : PetitionRegistry) {req : PetitionRequest} {re : RealmRegistry}
    (h : re.resolveForPetition req.realmName = none) (now : Instant) (l : Bool) :
    r.admitPetition req now re l =
      (r, .resolved ⟨req.connection, req.grantWireId, req.consentWireId, false, .declined .unavailable⟩) := by
  simp [admitPetition, policyCheck, h]

/-- **Death is latched.** Over every sequence of observers and commits from a realm that was adopted into any session:
one death is recorded if an observer fires and none otherwise, at most one exit, both of this realm; and once one has
fired, the realm's view is not live, its scene is empty, and a petition naming it is answered `unavailable`. -/
theorem death_latched (realm : RealmId) (pid : Nat) (t : RealmTeardown H) (ops : List LifeOp) :
    let s := lifeStep.exec ⟨.adopt realm pid, t⟩ ops
    (∃ w, s.teardown.recorder = t.recorder ++ w ∧ (∀ r ∈ w, r.subject = (realm, pid)) ∧
      w.countP RealmRecord.isDied = (if ops.any LifeOp.Fires then 1 else 0) ∧
      w.countP RealmRecord.isExited ≤ 1) ∧
    (ops.any LifeOp.Fires → s.life.viewIsLive s.teardown.scene = false ∧ s.teardown.scene.surface = none ∧
      ∀ (r : PetitionRegistry) (re : PetitionRequest) (now : Instant) (l : Bool),
        re.realmName = realm.name → r.admitPetition re now s.teardown.realms l =
          (r, .resolved ⟨re.connection, re.grantWireId, re.consentWireId, false, .declined .unavailable⟩)) := by
  intro s
  have had : (⟨.adopt realm pid, t⟩ : RealmRun H).Sound := adopt_sound realm pid t
  obtain ⟨ha, hd⟩ := dead_iff_fired had rfl ops
  rw [← List.any_eq_true] at hd
  refine ⟨?_, ?_⟩
  · obtain ⟨w, hrec, hna, hdi, he⟩ := ha.recorded
    refine ⟨w, hrec, hna, ?_, ?_⟩
    · rw [Bool.eq_iff_iff.2 hd] at hdi
      simpa [RealmLifecycle.adopt, Bool.toNat, Bool.cond_eq_ite] using hdi
    · have hon : (RealmLifecycle.adopt realm pid).child.toNat = 1 := rfl
      rw [hon] at he
      omega
  · intro hf
    have hr := (ha.sound had).dead (hd.2 hf)
    refine ⟨?_, hr.scene, ?_⟩
    · have hno : s.life.death.isNone = false := Option.isNone_eq_false_iff.2 (hd.2 hf)
      rw [RealmLifecycle.viewIsLive, hno, Bool.false_and]
    · intro r re now l hn
      have hre : s.life.realmId = realm := ha.subject.1
      refine r.admitPetition_unavailable ?_ now l
      rw [hn, ← hre]
      exact hr.realms

/-- A shim killed from outside: its connection ends first, and the signal the core then sends is not what ended it. -/
example (t : RealmTeardown H) :
    (lifeStep.exec ⟨.adopt ⟨"editor"⟩ 7, t⟩
      [.eof .running true, .poll (.exited (.signaled 9)), .fault .failed false, .poll .running]).teardown.recorder =
    t.recorder ++ [.realmDied ⟨"editor"⟩ 7 .connectionClosed] ++ [.realmExited ⟨"editor"⟩ 7 (.signaled 9) false] := rfl

end Vitrin
