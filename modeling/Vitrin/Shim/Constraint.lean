import Mathlib.Algebra.Order.Ring.Rat
import Mathlib.Tactic.Linarith
import Vitrin.Lib.Machine
import Vitrin.Lib.Marks
import Vitrin.Scene.Scene

/-!
# An app's pointer constraints

An app that locks or confines the pointer may name a region of its surface. The shim sends
the core one rectangle for it, and the core takes `0x0` to mean the whole surface. Of the
app's constraints one is live: the shim asks for it under a serial, and switches it on and
off as the core answers.

`constraintStep` is the shim's record under what the app does with its objects and the
verdicts that come in, with a log of what each side was told.

A constraint is in force only while the pointer is inside the surface and inside the
bounding box of the region, exactly if the region is not empty
(`constraint_within_region`). `resolve_region` sends an empty one as `0x0`, to say that it holds nowhere, and the
core has it hold everywhere (`empty_region_active`).

The app's objects mirror the verdicts (`lock_mirrors_verdict`), as long as the region of an
active one is not changed: `on_live_set_region` forgets that the object is on and does not
switch it off (`moved_region_activates_twice`).
-/

namespace Vitrin

/-! ### What the core makes of a constraint -/

/-- A part of a surface; one without area is all of it. -/
structure ConstraintRegion where
  x : Int
  y : Int
  width : Nat
  height : Nat

def ConstraintRegion.isWholeSurface (r : ConstraintRegion) : Bool := r.width = 0 && r.height = 0

def ConstraintRegion.contains (r : ConstraintRegion) (point : Coord × Coord) : Bool :=
  (point.1.sub r.x).within r.width && (point.2.sub r.y).within r.height

inductive ConstraintState where
  | inactive
  | active
  deriving DecidableEq

/-- A realm's recorded constraint: where it holds, and what the core last found. -/
structure ConstraintRecord where
  region : ConstraintRegion
  state : ConstraintState

structure PresentationGates where
  focused : Option RealmId
  overlayUp : Bool
  active : Bool
  dark : Bool
  surface : Option (Nat × Nat)
  view : ViewGeometry
  pointer : Option (Coord × Coord)

namespace PresentationGates

def liveState (g : PresentationGates) (realm : RealmId) (record : ConstraintRecord) : ConstraintState :=
  if g.focused ≠ some realm then .inactive
  else if !g.active then .inactive
  else if g.dark then .inactive
  else if g.overlayUp then .inactive
  else match g.surface, g.pointer with
    | some surface, some pointer =>
      if !inside (surfaceLocal pointer g.view surface) surface then .inactive
      else if !record.region.isWholeSurface && !record.region.contains (surfaceLocal pointer g.view surface) then
        .inactive
      else .active
    | _, _ => .inactive

end PresentationGates

end Vitrin

namespace Vitrin.Shim

open Lib

/-! ### The rectangle -/

/-- `pixman_box32_t`: from `(x1, y1)` up to `(x2, y2)`. -/
structure Box where
  x1 : Int
  y1 : Int
  x2 : Int
  y2 : Int

def Box.union (a b : Box) : Box := ⟨min a.x1 b.x1, min a.y1 b.y1, max a.x2 b.x2, max a.y2 b.y2⟩

def extents : List Box → Box
  | [] => ⟨0, 0, 0, 0⟩
  | b :: region => region.foldl Box.union b

/-- The rectangle that the core is asked for. -/
def resolveRegion (region : List Box) : ConstraintRegion :=
  if region.isEmpty then ⟨0, 0, 0, 0⟩
  else
    let box := extents region
    let w := box.x2 - box.x1
    let h := box.y2 - box.y1
    if w ≤ 0 ∨ h ≤ 0 then ⟨0, 0, 0, 0⟩ else ⟨box.x1, box.y1, w.toNat, h.toNat⟩

/-- The point is in the smallest box around the region. -/
def InBounds (region : List Box) (point : Coord × Coord) : Prop :=
  ∃ x y : Rat, point = (.finite x, .finite y) ∧
    (∃ b ∈ region, b.x1 ≤ x) ∧ (∃ b ∈ region, x < b.x2) ∧ (∃ b ∈ region, b.y1 ≤ y) ∧ ∃ b ∈ region, y < b.y2

variable {region : List Box}

theorem extents_attained (ed : Box → Int) (hed : ∀ a b, ed (a.union b) = ed a ∨ ed (a.union b) = ed b)
    (hr : region ≠ []) : ∃ b ∈ region, ed (extents region) = ed b := by
  obtain ⟨b, region, rfl⟩ := List.exists_cons_of_ne_nil hr
  rw [extents]
  induction region generalizing b with
  | nil => exact ⟨b, .head _, rfl⟩
  | cons c region ih =>
    obtain ⟨e, he, he'⟩ := ih (b.union c) (List.cons_ne_nil _ _)
    rw [List.foldl_cons, he']
    rcases List.mem_cons.mp he with rfl | he
    · rcases hed b c with hb | hc
      · exact ⟨b, by simp, hb⟩
      · exact ⟨c, by simp, hc⟩
    · exact ⟨e, by simp [he], rfl⟩

theorem foldl_union_covers (region : List Box) (b : Box) : let bo := region.foldl Box.union b
    bo.x1 ≤ b.x1 ∧ bo.y1 ≤ b.y1 ∧ b.x2 ≤ bo.x2 ∧ b.y2 ≤ bo.y2 := by
  induction region generalizing b with
  | nil => simp
  | cons c region ih =>
    have hu := ih (b.union c)
    simp only [Box.union] at hu
    simp only [List.foldl_cons, Box.union]
    omega

theorem resolveRegion_eq (hr : region ≠ []) (hbo : ∀ b ∈ region, b.x1 < b.x2 ∧ b.y1 < b.y2) :
    (extents region).x1 < (extents region).x2 ∧ (extents region).y1 < (extents region).y2 ∧
      resolveRegion region = ⟨(extents region).x1, (extents region).y1,
        ((extents region).x2 - (extents region).x1).toNat, ((extents region).y2 - (extents region).y1).toNat⟩ := by
  have hp : (extents region).x1 < (extents region).x2 ∧ (extents region).y1 < (extents region).y2 := by
    obtain ⟨b, r, rfl⟩ := List.exists_cons_of_ne_nil hr
    have hb := hbo b (.head _)
    have hc := foldl_union_covers r b
    rw [extents]
    omega
  refine ⟨hp.1, hp.2, ?_⟩
  rw [resolveRegion, if_neg (by simpa using hr)]
  exact if_neg (by omega)

theorem within_sub {c : Coord} {lo hi : Int} (hl : lo < hi) (h : (c.sub lo).within (hi - lo).toNat = true) :
    ∃ q : Rat, c = .finite q ∧ lo ≤ q ∧ q < hi := by
  cases c with
  | finite q =>
    simp only [Coord.sub, Coord.within, Bool.and_eq_true, decide_eq_true_eq] at h
    have hw : ((hi - lo).toNat : Rat) = hi - lo := by
      rw [← Int.cast_natCast, Int.toNat_of_nonneg (by omega), Int.cast_sub]
    exact ⟨q, rfl, by linarith, by linarith⟩
  | _ => cases h

/-- The pointer is inside the surface, and inside the bounding box of the region there. -/
def PointsInto (g : PresentationGates) (region : List Box) : Prop :=
  ∃ surface pointer, g.surface = some surface ∧ g.pointer = some pointer ∧
    inside (surfaceLocal pointer g.view surface) surface = true ∧ InBounds region (surfaceLocal pointer g.view surface)

theorem pointsInto_of_active {g : PresentationGates} {realm : RealmId} {state : ConstraintState}
    (hregion : region ≠ []) (hboxes : ∀ b ∈ region, b.x1 < b.x2 ∧ b.y1 < b.y2)
    (hactive : g.liveState realm ⟨resolveRegion region, state⟩ = .active) : PointsInto g region := by
  obtain ⟨hw, hh, hre⟩ := resolveRegion_eq hregion hboxes
  unfold PresentationGates.liveState at hactive
  split_ifs at hactive
  split at hactive
  · rename_i surface pointer hs hp
    refine ⟨surface, pointer, hs, hp, ?_⟩
    split_ifs at hactive with hi hof
    refine ⟨by simpa using hi, ?_⟩
    have hn : (resolveRegion region).isWholeSurface = false := by
      rw [hre]
      simp [ConstraintRegion.isWholeSurface]
      omega
    obtain ⟨hx, hy⟩ : _ ∧ _ := by simpa [hn, ConstraintRegion.contains] using hof
    rw [hre] at hx hy
    obtain ⟨x, hx, hle, hri⟩ := within_sub hw hx
    obtain ⟨y, hy, hto, hbo⟩ := within_sub hh hy
    obtain ⟨l, hl, hl'⟩ := extents_attained Box.x1 (fun _ _ => min_choice ..) hregion
    obtain ⟨r, hr, hr'⟩ := extents_attained Box.x2 (fun _ _ => max_choice ..) hregion
    obtain ⟨t, ht, ht'⟩ := extents_attained Box.y1 (fun _ _ => min_choice ..) hregion
    obtain ⟨b, hb, hb'⟩ := extents_attained Box.y2 (fun _ _ => max_choice ..) hregion
    exact ⟨x, y, Prod.ext hx hy, ⟨l, hl, hl' ▸ hle⟩, ⟨r, hr, hr' ▸ hri⟩, ⟨t, ht, ht' ▸ hto⟩, b, hb, hb' ▸ hbo⟩
  · cases hactive

/-- A surface fills the output below the core's band, and the pointer is at its middle. -/
def centred : PresentationGates where
  focused := some ⟨"a"⟩
  overlayUp := false
  active := true
  dark := false
  surface := some (100, 100)
  view := ⟨(100, 108), 0⟩
  pointer := some (.finite 50, .finite 58)

/-- **A constraint is no wider than asked exactly if its region is not empty.** For a region of boxes that have an
area: that the pointer is inside the surface and inside the bounding box of the region whenever the core, whatever the
presentation, has the rectangle that the shim sends for it in force, holds just of a region with a box in it. -/
theorem constraint_within_region (region : List Box) (hboxes : ∀ b ∈ region, b.x1 < b.x2 ∧ b.y1 < b.y2) :
    (∀ (g : PresentationGates) (realm : RealmId) (state : ConstraintState),
      g.liveState realm ⟨resolveRegion region, state⟩ = .active → PointsInto g region) ↔ region ≠ [] := by
  constructor
  · rintro h rfl
    obtain ⟨-, -, -, -, -, -, -, -, ⟨b, hb, -⟩, -⟩ := h centred ⟨"a"⟩ .inactive (by decide +kernel)
    exact absurd hb List.not_mem_nil
  · intro hregion g realm state hactive
    exact pointsInto_of_active hregion hboxes hactive

theorem constraint_within_region_middle :
    centred.liveState ⟨"a"⟩ ⟨resolveRegion [⟨40, 40, 45, 60⟩, ⟨55, 40, 60, 60⟩], .inactive⟩ = .active ∧
      PointsInto centred [⟨40, 40, 45, 60⟩, ⟨55, 40, 60, 60⟩] := by
  have ha : centred.liveState ⟨"a"⟩ ⟨resolveRegion [⟨40, 40, 45, 60⟩, ⟨55, 40, 60, 60⟩], .inactive⟩ = .active := by
    decide +kernel
  exact ⟨ha, (constraint_within_region _ (by simp)).mpr (by simp) centred _ .inactive ha⟩

/-- The app confines the pointer to a region that misses its surface, and the pointer is confined at once. -/
theorem empty_region_active : centred.liveState ⟨"a"⟩ ⟨resolveRegion [], .inactive⟩ = .active := by
  decide +kernel

/-! ### The shim's record -/

/-- An app's object, `wlr_pointer_constraint_v1`. -/
structure AppConstraint where
  id : Nat
  locked : Bool
  persistent : Bool
  region : List Box

inductive ConstraintStatus where
  | active
  | inactive
  | withdrawn
  | refused
  | superseded
  deriving DecidableEq

inductive ConstraintMark where
  | asked (object : AppConstraint) (serial : UInt32) (region : ConstraintRegion)
  | withdrew (serial : UInt32)
  | activated (id : Nat)
  | deactivated (id : Nat)
  /-- An object is gone. Was it the live one? -/
  | destroyed (id : Nat) (live : Bool)
  /-- The core's answer came in. -/
  | verdict (serial : UInt32) (status : ConstraintStatus)

/-- `vitrin_constraint`. Two fields are not in the source and nothing reads them: `objects` counts what the app has made,
which names each object, and `log` is what happened. -/
structure Constraint where
  live : Option AppConstraint
  serial : UInt32
  nextSerial : UInt32
  activated : Bool
  objects : Nat
  log : List ConstraintMark

namespace Constraint

def new : Constraint := ⟨none, 0, 1, false, 0, []⟩

def note (c : Constraint) (m : ConstraintMark) : Constraint := { c with log := c.log ++ [m] }

def sendWithdrawal (c : Constraint) : Constraint :=
  { c.note (.withdrew c.nextSerial) with nextSerial := c.nextSerial + 1 }

def forgetLive (c : Constraint) : Constraint :=
  match c.live with
  | none => c
  | some _ => { c with live := none, serial := 0, activated := false }

/-- The object goes away; `on_live_destroy`, if it is the live one. -/
def destroy (c : Constraint) (id : Nat) : Constraint :=
  if c.live.map (·.id) = some id then (c.note (.destroyed id true)).forgetLive.sendWithdrawal
  else c.note (.destroyed id false)

/-- `wlr_pointer_constraint_v1_send_deactivated`, which destroys a oneshot. -/
def sendDeactivated (c : Constraint) (object : AppConstraint) : Constraint :=
  if object.persistent then c.note (.deactivated object.id) else (c.note (.deactivated object.id)).destroy object.id

/-- The ask that `adopt` and `on_live_set_region` make. -/
def adopt (c : Constraint) (object : AppConstraint) : Constraint :=
  { c.note (.asked object c.nextSerial (resolveRegion object.region)) with
    live := some object, serial := c.nextSerial, nextSerial := c.nextSerial + 1, activated := false }

def onNewConstraint (c : Constraint) (locked persistent : Bool) (region : List Box) : Constraint :=
  let c' := match c.live with
    | none => c
    | some old => (if c.activated then c.sendDeactivated old else c).forgetLive
  { c' with objects := c'.objects + 1 }.adopt ⟨c'.objects, locked, persistent, region⟩

def onLiveSetRegion (c : Constraint) (id : Nat) (region : List Box) : Constraint :=
  match c.live with
  | none => c
  | some object => if object.id = id then c.adopt { object with region } else c

def handleState (c : Constraint) (serial : UInt32) (status : ConstraintStatus) : Constraint :=
  match c.live with
  | none => c
  | some object =>
    if serial ≠ c.serial then c
    else match status with
      | .active => if c.activated then c else { c.note (.activated object.id) with activated := true }
      | .inactive => if c.activated then { c with activated := false }.sendDeactivated object else c
      | .withdrawn => (if c.activated then { c with activated := false }.sendDeactivated object else c).forgetLive
      | .refused => c.forgetLive
      | .superseded => c

end Constraint

/-- What the app asks for, and what the core answers. -/
inductive ConstraintOp where
  | create (locked persistent : Bool) (region : List Box)
  | setRegion (id : Nat) (region : List Box)
  | destroy (id : Nat)
  | state (serial : UInt32) (status : ConstraintStatus)

def constraintStep : Machine Constraint ConstraintOp Unit := fun c op => match op with
  | .create locked persistent region => (c.onNewConstraint locked persistent region, ())
  | .setRegion id region => (c.onLiveSetRegion id region, ())
  | .destroy id => (if id < c.objects then c.destroy id else c, ())
  | .state serial status => ((c.note (.verdict serial status)).handleState serial status, ())

/-! ### What the app and the core were told -/

/-- What an object is to the app. -/
inductive ObjectView where
  | on
  | off
  | gone

namespace ConstraintMark

def shows (id : Nat) : ConstraintMark → Option ObjectView
  | .activated i => if i = id then some .on else none
  | .deactivated i => if i = id then some .off else none
  | .destroyed i _ => if i = id then some .gone else none
  | _ => none

def askedAs (id : Nat) : ConstraintMark → Option UInt32
  | .asked object serial _ => if object.id = id then some serial else none
  | _ => none

def verdictOn (serial : UInt32) : ConstraintMark → Option ConstraintStatus
  | .verdict s status => if s = serial then some status else none
  | _ => none

/-- Only an object that is off is activated, only one that is on deactivated; if the live one goes, a withdrawal is next. -/
def Fits (past : List ConstraintMark) (m : ConstraintMark) : Prop :=
  (match m with
    | .activated id => lastOf (shows id) past ≠ some .on ∧ lastOf (shows id) past ≠ some .gone
    | .deactivated id => lastOf (shows id) past = some .on
    | _ => True) ∧
    ∀ id, past.getLast? = some (.destroyed id true) → ∃ serial, m = .withdrew serial

end ConstraintMark

open ConstraintMark

namespace Constraint

variable {c : Constraint} {object : AppConstraint} {m : ConstraintMark}

/-- The record agrees with what the app and the core were told. -/
structure Mirrors (c : Constraint) : Prop where
  log : Fitting Fits c.log
  settled : ∀ id, c.log.getLast? ≠ some (.destroyed id true)
  on : ∀ id, lastOf (shows id) c.log = some .on ↔ c.activated = true ∧ c.live.map (·.id) = some id
  live : ∀ object, c.live = some object → object.id < c.objects ∧
    lastOf (askedAs object.id) c.log = some c.serial ∧ lastOf (shows object.id) c.log ≠ some .gone
  fresh : ∀ id, c.objects ≤ id → lastOf (shows id) c.log = none

/-- An active record is of a live object whose last ask was last answered `active`. -/
def Told (c : Constraint) : Prop :=
  c.activated = true → c.live.isSome = true ∧ lastOf (verdictOn c.serial) c.log = some .active

/-- The region of an active object stays as it is, and an active ask is neither refused nor superseded. -/
def Steady (c : Constraint) : ConstraintOp → Prop
  | .setRegion id _ => c.live.map (·.id) = some id → c.activated = false
  | .state serial status => serial = c.serial → status = .refused ∨ status = .superseded → c.activated = false
  | .create .. | .destroy _ => True

attribute [local grind .] Fitting.concat
attribute [local grind =] lastOf_append lastOf_cons lastOf_nil note shows askedAs verdictOn Fits sendWithdrawal forgetLive

theorem mirrors_new : new.Mirrors := ⟨.nil, nofun, by simp [new], nofun, fun _ _ => rfl⟩

/-! Each of the moves of the record keeps it so. -/

variable (h : c.Mirrors)

include h

theorem Mirrors.verdict (s : UInt32) (st : ConstraintStatus) : (c.note (.verdict s st)).Mirrors where
  log := h.log.concat ⟨trivial, fun id hg => absurd hg (h.settled id)⟩
  settled id := by simp [note]
  on id := by simpa [note, shows] using h.on id
  live object hob := by simpa [note, shows, askedAs] using h.live object hob
  fresh id hid := by simpa [note, shows] using h.fresh id hid

/-- Nothing is on but the live object of an active record. -/
theorem Mirrors.off {id : Nat} (hof : c.activated = true → c.live = none) : lastOf (shows id) c.log ≠ some .on := by
  intro hon
  obtain ⟨ha, hl⟩ := (h.on id).mp hon
  simp [hof ha] at hl

theorem Mirrors.adopt (hof : c.activated = true → c.live = none) (hi : object.id < c.objects)
    (hsh : lastOf (shows object.id) c.log ≠ some .gone) : (c.adopt object).Mirrors where
  log := h.log.concat ⟨trivial, fun id hg => absurd hg (h.settled id)⟩
  settled id := by simp [Constraint.adopt, note]
  on id := by simpa [Constraint.adopt, note, shows] using h.off hof
  live object' hob := by
    cases hob
    exact ⟨hi, by simp [Constraint.adopt, note, askedAs], by simpa [Constraint.adopt, note, shows] using hsh⟩
  fresh id hid := by simpa [Constraint.adopt, note, shows] using h.fresh id hid

theorem Mirrors.activate (hob : c.live = some object) (hof : c.activated = false) :
    { c.note (.activated object.id) with activated := true }.Mirrors where
  log := by
    refine h.log.concat ⟨⟨h.off (by simp [hof]), (h.live object hob).2.2⟩, fun id hg => absurd hg (h.settled id)⟩
  settled id := by simp [note]
  on id := by
    have hno : lastOf (shows id) c.log ≠ some .on := h.off (by simp [hof])
    by_cases hid : object.id = id <;> simp [note, shows, hob, hid, hno]
  live object' hob' := by
    obtain rfl : object = object' := Option.some.inj (hob.symm.trans hob')
    obtain ⟨hi, ha, -⟩ := h.live object hob
    exact ⟨hi, by simpa [note, askedAs] using ha, by simp [note, shows]⟩
  fresh id hid := by
    have hne : object.id ≠ id := ((h.live object hob).1.trans_le hid).ne
    simpa [note, shows, hne] using h.fresh id hid

theorem Mirrors.destroy {id : Nat} (hi : id < c.objects) : (c.destroy id).Mirrors := by
  have hlog (live : Bool) : Fitting Fits (c.log ++ [.destroyed id live]) :=
    h.log.concat ⟨trivial, fun id hg => absurd hg (h.settled id)⟩
  have hfresh (id' : Nat) (hid : c.objects ≤ id') : id ≠ id' := (hi.trans_le hid).ne
  unfold Constraint.destroy
  split
  case isTrue hl =>
    -- the live object goes, so that a withdrawal follows
    obtain ⟨object, hob, rfl⟩ := Option.map_eq_some_iff.mp hl
    simp only [forgetLive, note, hob, sendWithdrawal]
    refine ⟨(hlog true).concat ⟨trivial, fun _ _ => ⟨_, rfl⟩⟩, by simp, fun id' => ?_, nofun, fun id' hid => ?_⟩
    · have hon := h.on id'
      by_cases hid : object.id = id' <;> simp_all [shows]
    · simpa [shows, hfresh id' hid] using h.fresh id' hid
  case isFalse hl =>
    refine ⟨hlog false, by simp [note], fun id' => ?_, fun object (hob : c.live = some object) => ?_, fun id' hid => ?_⟩
    · by_cases hid : id = id'
      · subst hid
        simp [note, shows, hl]
      · simpa [note, shows, hid] using h.on id'
    · have hne : id ≠ object.id := fun he => hl (by rw [hob, he]; rfl)
      simpa [note, shows, askedAs, hne] using h.live object hob
    · simpa [note, shows, hfresh id' hid] using h.fresh id' hid

theorem Mirrors.deactivate (hob : c.live = some object) (ha : c.activated = true) :
    ({ c with activated := false }.sendDeactivated object).Mirrors ∧
      ({ c with activated := false }.sendDeactivated object).activated = false := by
  have hof : ({ c with activated := false }.note (.deactivated object.id)).Mirrors := by
    obtain ⟨hlo, hs, hon, hl, hf⟩ := h
    constructor <;> grind
  unfold sendDeactivated
  split
  · exact ⟨hof, rfl⟩
  · exact ⟨hof.destroy (h.live object hob).1, by grind [Constraint.destroy]⟩

theorem Mirrors.forget (hof : c.activated = false) : c.forgetLive.Mirrors ∧ c.forgetLive.activated = false := by
  obtain ⟨hlo, hs, hon, hl, hf⟩ := h
  exact ⟨by constructor <;> grind, by grind⟩

omit h in
theorem live_forgetLive : c.forgetLive.live = none := by
  cases hl : c.live with
  | none | some => simp [forgetLive, hl]

omit h in
theorem forgetLive_sendDeactivated (hob : c.live = some object) :
    (c.sendDeactivated object).forgetLive = ({ c with activated := false }.sendDeactivated object).forgetLive := by
  cases hk : object.persistent with
  | true | false => simp [sendDeactivated, hk, Constraint.destroy, sendWithdrawal, forgetLive, note, hob]

theorem Mirrors.onNewConstraint (l p : Bool) (region : List Box) : (c.onNewConstraint l p region).Mirrors := by
  -- whether or not there was an older object, there is no live one when the new one is asked for
  suffices hn : ∀ c' : Constraint, c'.Mirrors → c'.live = none →
      ({ c' with objects := c'.objects + 1 }.adopt ⟨c'.objects, l, p, region⟩).Mirrors by
    unfold Constraint.onNewConstraint
    split
    case h_1 hno => exact hn c h hno
    case h_2 old hold =>
      refine hn _ ?_ live_forgetLive
      split
      case isTrue hon =>
        rw [forgetLive_sendDeactivated hold]
        exact ((h.deactivate hold hon).1.forget (h.deactivate hold hon).2).1
      case isFalse hof => exact (h.forget (Bool.eq_false_iff.mpr hof)).1
  rintro c' ⟨hlo, hs, hon, hl, hf⟩ hno
  constructor <;> grind [Constraint.adopt]

omit h in
theorem told_of_off (hof : c.activated = false) : c.Told := fun hon => absurd hon (by simp [hof])

theorem handleState_mirrors {s : UInt32} {st : ConstraintStatus}
    (hl : lastOf (verdictOn s) c.log = some st) (hli : c.activated = true → c.live.isSome = true)
    (ht : s ≠ c.serial → c.Told) (hst : Steady c (.state s st)) :
    (c.handleState s st).Mirrors ∧ (c.handleState s st).Told := by
  unfold handleState
  split
  case h_1 hn => exact ⟨h, told_of_off (Bool.eq_false_iff.mpr fun hon => by simp [hn] at hli; simp [hli] at hon)⟩
  case h_2 object hob =>
    split
    case isTrue hs => exact ⟨h, ht hs⟩
    case isFalse hse =>
      obtain rfl : s = c.serial := not_not.mp hse
      cases st with
      | active =>
        dsimp only
        split
        case isTrue hon => exact ⟨h, fun _ => ⟨hli hon, hl⟩⟩
        case isFalse hof =>
          refine ⟨h.activate hob (Bool.eq_false_iff.mpr hof), fun _ => ⟨by simp [note, hob], ?_⟩⟩
          simpa [note, verdictOn] using hl
      | inactive =>
        dsimp only
        split
        case isTrue hon => exact (h.deactivate hob hon).imp_right told_of_off
        case isFalse hof => exact ⟨h, told_of_off (Bool.eq_false_iff.mpr hof)⟩
      | withdrawn =>
        dsimp only
        split
        case isTrue hon =>
          obtain ⟨hm, hof⟩ := h.deactivate hob hon
          exact (hm.forget hof).imp_right told_of_off
        case isFalse hof => exact (h.forget (Bool.eq_false_iff.mpr hof)).imp_right told_of_off
      | refused => exact (h.forget (hst rfl (.inl rfl))).imp_right told_of_off
      | superseded => exact ⟨h, told_of_off (hst rfl (.inr rfl))⟩

theorem constraintStep_mirrors {op : ConstraintOp} (ht : c.Told) (hs : Steady c op) :
    (constraintStep c op).1.Mirrors ∧ (constraintStep c op).1.Told := by
  cases op with
  | create l p region => exact ⟨h.onNewConstraint l p region, nofun⟩
  | setRegion id region =>
    have hl := h.live
    have ha object := @Mirrors.adopt c object h
    grind [constraintStep, onLiveSetRegion, Constraint.adopt, Steady, Told]
  | destroy id =>
    have hg := @Mirrors.destroy c h id
    grind [constraintStep, Constraint.destroy, Told]
  | state s st => exact handleState_mirrors (h.verdict s st) (by grind) (by grind [Told]) (by grind [Told]) hs

end Constraint

/-- **The app's lock mirrors the core's verdict**: an object is activated and deactivated in turn, it is on only if its
last ask was last answered `active`, and a withdrawal follows the end of a live one. -/
theorem lock_mirrors_verdict {ops : List ConstraintOp} (h : constraintStep.Along Constraint.Steady .new ops) :
    let log := (constraintStep.exec .new ops).log
    Fitting Fits log ∧ (∀ id, log.getLast? ≠ some (.destroyed id true)) ∧
      ∀ id, lastOf (shows id) log = some .on →
        ∃ s, lastOf (askedAs id) log = some s ∧ lastOf (verdictOn s) log = some .active := by
  have ha : (constraintStep.exec .new ops).Mirrors ∧ (constraintStep.exec .new ops).Told :=
    constraintStep.exec_along (P := fun c => c.Mirrors ∧ c.Told)
      (fun _ _ hs hc => Constraint.constraintStep_mirrors hc.1 hc.2 hs) ⟨Constraint.mirrors_new, nofun⟩ h
  refine ⟨ha.1.log, ha.1.settled, fun id hon => ?_⟩
  obtain ⟨hac, hl⟩ := (ha.1.on id).mp hon
  obtain ⟨object, hob, rfl⟩ := Option.map_eq_some_iff.mp hl
  exact ⟨_, (ha.1.live object hob).2.1, (ha.2 hac).2⟩

theorem lock_mirrors_verdict_persistent :
    let ops : List ConstraintOp := [.create true true [], .state 1 .active, .state 1 .inactive, .state 1 .active]
    let l := (constraintStep.exec .new ops).log
    constraintStep.Along Constraint.Steady .new ops ∧ Fitting Fits l ∧ lastOf (shows 0) l = some .on := by
  have hs : constraintStep.Along Constraint.Steady .new
      [.create true true [], .state 1 .active, .state 1 .inactive, .state 1 .active] := by
    simp [Machine.Along, Constraint.Steady]
  exact ⟨hs, (lock_mirrors_verdict hs).1, rfl⟩

/-- The region of an active lock is changed. If the core goes on to answer `active`, the app is told twice; if it
answers `inactive`, the app is not told. -/
theorem moved_region_activates_twice :
    let moved : List ConstraintOp := [.create true true [], .state 1 .active, .setRegion 0 [⟨0, 0, 9, 9⟩]]
    let l status := (constraintStep.exec .new (moved ++ [.state 2 status])).log.filterMap (shows 0)
    l .active = [.on, .on] ∧ l .inactive = [.on] :=
  ⟨rfl, rfl⟩

end Vitrin.Shim
