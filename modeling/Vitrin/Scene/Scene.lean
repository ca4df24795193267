import Vitrin.Scene.View

/-!
# A realm's scene

What the core keeps of a client's picture: the last buffer it committed, a counter that
every change moves, and the part of it that has changed since somebody last asked. The
scenes of all realms, and which of them the output is bound to.

A picture is a function from a point to a pixel; the source's byte buffers are its rows.
The damage of a commit is a list of rectangles off the wire, in 32-bit integers with
saturating arithmetic. Generations are unbounded.

What a damage rectangle covers, and that folding two rectangles loses no pixel of the
surface unless one of them lies so far to the left or the top that 31 bits do not span the
distance (`DamageRect.union_covers`). What of the composed view a change of the surface
inside a rectangle can touch (`compose_of_damage`).
-/

namespace Vitrin

open Lib

/-! ### Pictures -/

structure Pixel where
  r : UInt8
  g : UInt8
  b : UInt8
  a : UInt8
  deriving DecidableEq

def Pixel.solid (p : Pixel) : Pixel := { p with a := 0xff }

abbrev Picture := Nat → Nat → Pixel

/-- What is around a surface that does not fill the view. -/
def letterboxRgba : Pixel := ⟨0x0f, 0x0f, 0x14, 0xff⟩

/-! #### The background of an empty scene -/

namespace TestPattern

def barsHeightPct : Nat := 70

def checkerCell : Nat := 16

def marker : Nat := 24

def bars : List Pixel :=
  [⟨0xff, 0xff, 0xff, 0xff⟩, ⟨0xff, 0xff, 0x00, 0xff⟩, ⟨0x00, 0xff, 0xff, 0xff⟩, ⟨0x00, 0xff, 0x00, 0xff⟩,
    ⟨0xff, 0x00, 0xff, 0xff⟩, ⟨0xff, 0x00, 0x00, 0xff⟩, ⟨0x00, 0x00, 0xff, 0xff⟩, ⟨0x20, 0x20, 0x20, 0xff⟩]

def checkerLight : Pixel := ⟨0xaa, 0xaa, 0xaa, 0xff⟩

def checkerDark : Pixel := ⟨0x33, 0x33, 0x33, 0xff⟩

def markerTopLeft : Pixel := ⟨0xff, 0x00, 0x00, 0xff⟩

def markerTopRight : Pixel := ⟨0x00, 0xff, 0x00, 0xff⟩

def markerBottomLeft : Pixel := ⟨0x00, 0x00, 0xff, 0xff⟩

def markerBottomRight : Pixel := ⟨0xff, 0xff, 0xff, 0xff⟩

/-- One pixel of the pattern at this size: colour bars over a checkerboard, a marker in each corner. -/
def pixel (size : Nat × Nat) : Picture := fun x y =>
  let m := max (min (min marker (size.1 / 4)) (size.2 / 4)) 1
  if x < m ∧ y < m then markerTopLeft
  else if size.1 - m ≤ x ∧ y < m then markerTopRight
  else if x < m ∧ size.2 - m ≤ y then markerBottomLeft
  else if size.1 - m ≤ x ∧ size.2 - m ≤ y then markerBottomRight
  else if y < size.2 * barsHeightPct / 100 then bars.getD (x * bars.length / size.1) checkerDark
  else if (x / checkerCell + y / checkerCell) % 2 = 0 then checkerLight
  else checkerDark

end TestPattern

/-! ### Damage -/

/-- A rectangle of a buffer, as it came off the wire. -/
structure DamageRect where
  x : Int
  y : Int
  width : Int
  height : Int
  deriving DecidableEq

namespace DamageRect

def Covers (r : DamageRect) (x y : Nat) : Prop :=
  r.x ≤ x ∧ (x : Int) < r.x + r.width ∧ r.y ≤ y ∧ (y : Int) < r.y + r.height

instance (r : DamageRect) (x y : Nat) : Decidable (r.Covers x y) := inferInstanceAs (Decidable (_ ∧ _))

/-- A box around both rectangles, saturating. -/
def union (r other : DamageRect) : DamageRect :=
  let x2 := max (saturate 31 (r.x + r.width)) (saturate 31 (other.x + other.width))
  let y2 := max (saturate 31 (r.y + r.height)) (saturate 31 (other.y + other.height))
  { x := min r.x other.x
    y := min r.y other.y
    width := saturate 31 (x2 - min r.x other.x)
    height := saturate 31 (y2 - min r.y other.y) }

/-- From the rectangle's corner, 31 bits reach past a surface of this size. -/
structure Reaches (r : DamageRect) (size : Nat × Nat) : Prop where
  x : (size.1 : Int) ≤ r.x + (2 ^ 31 - 1)
  y : (size.2 : Int) ≤ r.y + (2 ^ 31 - 1)

instance (r : DamageRect) (size : Nat × Nat) : Decidable (r.Reaches size) :=
  decidable_of_iff ((size.1 : Int) ≤ r.x + (2 ^ 31 - 1) ∧ (size.2 : Int) ≤ r.y + (2 ^ 31 - 1))
    ⟨fun h => ⟨h.1, h.2⟩, fun h => ⟨h.x, h.y⟩⟩

theorem Reaches.union {r o : DamageRect} {s : Nat × Nat} (h : r.Reaches s) (h' : o.Reaches s) :
    (r.union o).Reaches s where
  x := by
    have hx := h.x
    have hx' := h'.x
    simp only [DamageRect.union]
    omega
  y := by
    have hy := h.y
    have hy' := h'.y
    simp only [DamageRect.union]
    omega

/-- The bounding box loses no point of a surface that is within reach of both corners. -/
theorem union_covers {r o : DamageRect} {s : Nat × Nat} (h : r.Reaches s) (h' : o.Reaches s)
    (hs : s.1 < 2 ^ 31 ∧ s.2 < 2 ^ 31) {x y : Nat} (hx : x < s.1) (hy : y < s.2)
    (hc : r.Covers x y ∨ o.Covers x y) : (r.union o).Covers x y := by
  obtain ⟨hxr, hyr⟩ := h
  obtain ⟨hxo, hyo⟩ := h'
  simp only [Covers, union, saturate] at hc ⊢
  omega

end DamageRect

def maxDamageRects : Nat := 64

/-- A damage request joins the pending ones (`handle_damage`): past the cap it is folded into the last. -/
def handleDamage (pending : List DamageRect) (r : DamageRect) : List DamageRect :=
  if pending.length < maxDamageRects then pending ++ [r]
  else pending.dropLast ++ (pending.getLast?.map fun last => last.union r).toList

/-- The hint a commit gives: a box around its rectangles, or nothing if it named none. -/
def damageHint (rects : List DamageRect) : Option DamageRect := match rects with
  | [] => none
  | r :: rects => some (rects.foldl DamageRect.union r)

/-- What has changed since somebody last asked. -/
inductive PendingDamage where
  | clean
  | rect (r : DamageRect)
  | unbounded
  deriving DecidableEq

def PendingDamage.fold (d : PendingDamage) (hint : Option DamageRect) : PendingDamage := match d, hint with
  | .unbounded, _ | _, none => .unbounded
  | .clean, some r => .rect r
  | .rect acc, some r => .rect (acc.union r)

/-! ### Scenes -/

/-- The largest side of a buffer that is copied in. -/
def maxSurfaceDim : Nat := 16384

def maxSurfaceBytes : Nat := 128 * 1024 * 1024

/-- A committed buffer, which is not empty and within the renderer's limits. -/
structure SurfaceContent where
  width : Nat
  height : Nat
  pixel : Picture
  positive : 0 < width ∧ 0 < height
  limited : width ≤ maxSurfaceDim ∧ height ≤ maxSurfaceDim ∧ width * height * 4 ≤ maxSurfaceBytes

def SurfaceContent.size (c : SurfaceContent) : Nat × Nat := (c.width, c.height)

theorem SurfaceContent.size_lt (c : SurfaceContent) : c.size.1 < 2 ^ 31 ∧ c.size.2 < 2 ^ 31 := by
  have h := c.limited
  simp only [size, maxSurfaceDim] at h ⊢
  omega

structure Scene where
  surface : Option SurfaceContent
  generation : Nat
  pendingDamage : PendingDamage

namespace Scene

def new : Scene := ⟨none, 0, .clean⟩

def surfaceSize (s : Scene) : Option (Nat × Nat) := s.surface.map (·.size)

/-- Replace the buffer; a hint counts only if the size stays. -/
def commitWithDamage (s : Scene) (content : SurfaceContent) (damage : Option DamageRect) : Scene where
  surface := some content
  generation := s.generation + 1
  pendingDamage := if s.surfaceSize = some content.size then s.pendingDamage.fold damage else .unbounded

def clearSurface (s : Scene) : Scene := ⟨none, s.generation + 1, .unbounded⟩

/-- `i64::clamp` to `[0, hi]`. -/
def clampView (n : Int) (hi : Nat) : Int := max 0 (min n hi)

def onView (r : DamageRect) (size : Nat × Nat) (g : ViewGeometry) : DamageRect :=
  let p := g.place size
  let x1 := clampView (p.x + r.x) g.output.1
  let y1 := clampView (p.y + r.y) g.output.2
  let x2 := clampView (p.x + r.x + max r.width 0) g.output.1
  let y2 := clampView (p.y + r.y + max r.height 0) g.output.2
  ⟨x1, y1, max (x2 - x1) 0, max (y2 - y1) 0⟩

def takeDamageView (s : Scene) (g : ViewGeometry) : Scene × Option DamageRect :=
  ({ s with pendingDamage := .clean }, match s.pendingDamage, s.surface with
    | .rect r, some c => some (onView r c.size g)
    | _, _ => none)

/-- The view: the buffer where it is placed, cropped, and the letterbox around it; without one the pattern. -/
def composeSurface (surface : Option SurfaceContent) (g : ViewGeometry) : Picture := match surface with
  | none => TestPattern.pixel g.output
  | some c => fun x y =>
    let p := g.place c.size
    let dstX := p.x.toNat
    let dstY := min p.y.toNat g.output.2
    let srcX := (-p.x).toNat
    let srcY := (-p.y).toNat
    let copyW := min (g.output.1 - dstX) (c.width - srcX)
    let copyH := min (g.output.2 - dstY) (c.height - srcY)
    if dstX ≤ x ∧ x < dstX + copyW ∧ dstY ≤ y ∧ y < dstY + copyH then
      (c.pixel (srcX + (x - dstX)) (srcY + (y - dstY))).solid
    else letterboxRgba

def compose (s : Scene) (g : ViewGeometry) : Picture := composeSurface s.surface g

/-- A point of the view shows the buffer's pixel that is placed there, or the letterbox. -/
theorem composeSurface_apply (c : SurfaceContent) {g : ViewGeometry} {x y : Nat} (hx : x < g.output.1)
    (hy : y < g.output.2) :
    composeSurface (some c) g x y =
      if 0 ≤ (x : Int) - (g.place c.size).x ∧ (x : Int) - (g.place c.size).x < c.width ∧
          0 ≤ (y : Int) - (g.place c.size).y ∧ (y : Int) - (g.place c.size).y < c.height then
        (c.pixel ((x : Int) - (g.place c.size).x).toNat ((y : Int) - (g.place c.size).y).toNat).solid
      else letterboxRgba := by
  simp only [composeSurface]
  generalize g.place c.size = p
  split
  · rename_i hi
    have hc : p.x.toNat ≤ x ∧ (-p.x).toNat + (x - p.x.toNat) = ((x : Int) - p.x).toNat := by omega
    have hr : (-p.y).toNat + (y - min p.y.toNat g.output.2) = ((y : Int) - p.y).toNat := by omega
    rw [if_pos (by omega), hc.2, hr]
  · rename_i hou
    rw [if_neg (by omega)]

/-- **Damage covers what it changes.** If two buffers of one size differ only inside a rectangle, their views differ
only inside where the rectangle is on the view. -/
theorem compose_of_damage {o n : SurfaceContent} {r : DamageRect} (hs : o.size = n.size)
    (hc : ∀ x y, x < n.width → y < n.height → o.pixel x y ≠ n.pixel x y → r.Covers x y) {g : ViewGeometry}
    {x y : Nat} (hx : x < g.output.1) (hy : y < g.output.2)
    (hn : composeSurface (some o) g x y ≠ composeSurface (some n) g x y) : (onView r n.size g).Covers x y := by
  have hw : o.width = n.width := congrArg Prod.fst hs
  have hh : o.height = n.height := congrArg Prod.snd hs
  rw [composeSurface_apply o hx hy, composeSurface_apply n hx hy, hs, hw, hh] at hn
  split_ifs at hn with hi
  · -- The point shows a pixel of the buffers, and they differ there.
    have hd : o.pixel _ _ ≠ n.pixel _ _ := fun e => hn (congrArg Pixel.solid e)
    obtain ⟨hx1, hx2, hy1, hy2⟩ := hc _ _ (by omega) (by omega) hd
    simp only [DamageRect.Covers, onView, clampView]
    omega
  · exact absurd rfl hn

end Scene

/-! ### The scenes of all realms -/

structure RealmScenes where
  scenes : OrdMap RealmId Scene
  bound : Option RealmId
  vacant : Scene

namespace RealmScenes

def new : RealmScenes := ⟨.empty, none, .new⟩

/-- A realm's scene; it is made when it is first asked for. -/
def scene (s : RealmScenes) (realm : RealmId) : Scene := (s.scenes.get? realm).getD .new

/-- Change a realm's scene (`scene_mut`). -/
def update (s : RealmScenes) (realm : RealmId) (f : Scene → Scene) : RealmScenes :=
  { s with scenes := s.scenes.insert realm (f (s.scene realm)) }

def shown (s : RealmScenes) (bound : Option RealmId) : Scene := (bound.bind s.scenes.get?).getD s.vacant

/-- The scene the output shows (`bound`). -/
def boundScene (s : RealmScenes) : Scene := s.shown s.bound

def takeBoundDamage (s : RealmScenes) (g : ViewGeometry) : RealmScenes × Option DamageRect := match s.bound with
  | none => (s, none)
  | some realm => match s.scenes.get? realm with
    | none => (s, none)
    | some scene => ({ s with scenes := s.scenes.insert realm (scene.takeDamageView g).1 }, (scene.takeDamageView g).2)

def bind (s : RealmScenes) (realm : RealmId) : RealmScenes :=
  if s.bound = some realm then s else { s.update realm id with bound := some realm }

def unbind (s : RealmScenes) : RealmScenes := { s with bound := none }

end RealmScenes

end Vitrin
