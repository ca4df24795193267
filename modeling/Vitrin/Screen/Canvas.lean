import Vitrin.Consent.Surface
import Vitrin.Lib.Layers
import Vitrin.Scene.Scene

/-!
# The canvas

What the core paints on the CPU it paints with four operations on a buffer of pixels:
filling a rectangle, stroking one, darkening everything and copying a picture. Rectangles
may lie outside the buffer on any side and are clipped to it.

A buffer is a picture of a given size, and an operation on it is a layer (`Paint`).
A rectangle's corner is signed and its sides are not; sums of the two are taken in wider
integers, so they do not wrap. A channel is a byte and blended as the source blends it.

Where each operation draws: a fill and a copy change exactly the buffer's points that are
in the rectangle (`fillRect_apply`, `blitOpaque_apply`), and an opaque fill leaves its own
colour there (`fillRect_shows`).
-/

namespace Vitrin

open Lib

/-- A painted picture and its size. -/
structure Raster where
  width : Nat
  height : Nat
  pixel : Picture

/-- What an operation makes of the points of a canvas. -/
abbrev Paint := Layer (Nat × Nat) Pixel

/-! ### Colours -/

/-- One channel of a colour drawn over another, rounded. -/
def «over» (src dst alpha : UInt8) : UInt8 :=
  UInt8.ofNat ((src.toNat * alpha.toNat + dst.toNat * (255 - alpha.toNat) + 127) / 255)

/-- A colour drawn over another; the result is opaque. -/
def Pixel.blend (rgba dst : Pixel) : Pixel :=
  ⟨«over» rgba.r dst.r rgba.a, «over» rgba.g dst.g rgba.a, «over» rgba.b dst.b rgba.a, 0xff⟩

@[simp] theorem over_solid {src d : UInt8} : «over» src d 0xff = src := by
  have hr : (src.toNat * 255 + d.toNat * (255 - 255) + 127) / 255 = src.toNat := by omega
  simp only [«over», UInt8.reduceToNat, hr]
  exact UInt8.ofNat_toNat

variable {r : Pixel}

theorem Pixel.blend_solid (h : r.a = 0xff) (d : Pixel) : r.blend d = r := by
  cases r
  simp_all [blend]

namespace Canvas

/-! ### Clipping -/

/-- The part of a rectangle that is on a canvas of this size: first column and row, and the ones past the last. -/
def clip (size : Nat × Nat) (rect : Rect) : Option (Nat × Nat × Nat × Nat) :=
  let x0 := max rect.x 0
  let y0 := max rect.y 0
  let x1 := min (rect.x + rect.w) size.1
  let y1 := min (rect.y + rect.h) size.2
  if x1 ≤ x0 ∨ y1 ≤ y0 then none else some (x0.toNat, y0.toNat, x1.toNat, y1.toNat)

/-- The point is on a canvas of this size and in the rectangle. -/
def Reached (size : Nat × Nat) (rect : Rect) (p : Nat × Nat) : Prop :=
  p.1 < size.1 ∧ p.2 < size.2 ∧ rect.x ≤ p.1 ∧ (p.1 : Int) < rect.x + rect.w ∧ rect.y ≤ p.2 ∧
    (p.2 : Int) < rect.y + rect.h

instance (size : Nat × Nat) (rect : Rect) (p : Nat × Nat) : Decidable (Reached size rect p) :=
  inferInstanceAs (Decidable (_ ∧ _))

variable {s : Nat × Nat} {re : Rect}

theorem clip_none (h : clip s re = none) (p : Nat × Nat) : ¬ Reached s re p := by
  simp only [clip, ite_eq_left_iff, reduceCtorEq, imp_false] at h
  simp only [Reached]
  omega

theorem clip_some {x0 y0 x1 y1 : Nat} (h : clip s re = some (x0, y0, x1, y1)) :
    x0 = re.x.toNat ∧ y0 = re.y.toNat ∧
      ∀ p : Nat × Nat, Reached s re p ↔ x0 ≤ p.1 ∧ p.1 < x1 ∧ y0 ≤ p.2 ∧ p.2 < y1 := by
  simp only [clip, Option.ite_none_left_eq_some] at h
  obtain ⟨hs, rfl, rfl, rfl, rfl⟩ := h
  refine ⟨by omega, by omega, fun p => ?_⟩
  simp only [Reached]
  omega

/-! ### The operations -/

def fillRect (size : Nat × Nat) (rect : Rect) (rgba : Pixel) : Paint := fun p a => match clip size rect with
  | none => a
  | some (x0, y0, x1, y1) =>
    if rgba.a = 0 then a
    else if x0 ≤ p.1 ∧ p.1 < x1 ∧ y0 ≤ p.2 ∧ p.2 < y1 then rgba.blend a else a

/-- A coordinate further on, within 32 bits. -/
def offset (base : Int) (delta : Nat) : Int := saturate 31 (base + delta)

/-- Draw a rectangle's outline, inside it; one as thick as the rectangle fills it. -/
def strokeRect (size : Nat × Nat) (rect : Rect) (rgba : Pixel) (thickness : Nat) : Paint :=
  if thickness = 0 then .stack []
  else
    let t := min (min thickness rect.w) rect.h
    let middle := rect.h - 2 * t
    .stack ([fillRect size { rect with h := t } rgba,
        fillRect size { rect with y := offset rect.y (rect.h - t), h := t } rgba] ++
      -- The sides are drawn between the two bars only, so that no point is blended twice.
      if 0 < middle then
        [fillRect size ⟨rect.x, offset rect.y t, t, middle⟩ rgba,
          fillRect size ⟨offset rect.x (rect.w - t), offset rect.y t, t, middle⟩ rgba]
      else [])

def darken (alpha : UInt8) : Paint := fun _ a =>
  if alpha = 0 then a else ⟨«over» 0 a.r alpha, «over» 0 a.g alpha, «over» 0 a.b alpha, 0xff⟩

/-- Copy an opaque picture with its corner at a point. -/
def blitOpaque (size : Nat × Nat) (src : Raster) (dx dy : Int) : Paint := fun p a =>
  match clip size ⟨dx, dy, src.width, src.height⟩ with
  | none => a
  | some (x0, y0, x1, y1) =>
    if x0 ≤ p.1 ∧ p.1 < x1 ∧ y0 ≤ p.2 ∧ p.2 < y1 then
      src.pixel ((x0 - dx).toNat + (p.1 - x0)) ((y0 - dy).toNat + (p.2 - y0))
    else a

/-! ### Where they draw -/

variable {p : Nat × Nat}

theorem fillRect_apply {a : Pixel} : fillRect s re r p a = if Reached s re p ∧ r.a ≠ 0 then r.blend a else a := by
  unfold fillRect
  split
  · next h => rw [if_neg fun hp => clip_none h p hp.1]
  · next x0 y0 x1 y1 h =>
    obtain ⟨-, -, hreached⟩ := clip_some h
    by_cases hz : r.a = 0
    · rw [if_pos hz, if_neg fun hp => hp.2 hz]
    · rw [if_neg hz]
      simp [hreached p, hz]

theorem fillRect_clear {r : Pixel} (h : ¬ Reached s re p) : (fillRect s re r).Clear p := by
  intro a
  rw [fillRect_apply, if_neg fun hp => h hp.1]

theorem fillRect_shows (hs : r.a = 0xff) (h : Reached s re p) : (fillRect s re r).Shows p r := by
  intro a
  have hn : r.a ≠ 0 := by
    rw [hs]
    decide
  rw [fillRect_apply, if_pos ⟨h, hn⟩, Pixel.blend_solid hs]

variable {src : Raster}

theorem blitOpaque_apply {dx dy : Int} {a : Pixel} :
    blitOpaque s src dx dy p a =
      if Reached s ⟨dx, dy, src.width, src.height⟩ p then src.pixel (p.1 - dx).toNat (p.2 - dy).toNat
      else a := by
  unfold blitOpaque
  split
  · next h => rw [if_neg (clip_none h p)]
  · next x0 y0 x1 y1 h =>
    obtain ⟨hx0, hy0, hreached⟩ := clip_some h
    simp only at hx0 hy0
    simp only [hreached p]
    split
    · next hi =>
      -- The copied run starts where the visible part of the source does.
      have hc : ((x0 : Int) - dx).toNat + (p.1 - x0) = ((p.1 : Int) - dx).toNat := by omega
      have hr : ((y0 : Int) - dy).toNat + (p.2 - y0) = ((p.2 : Int) - dy).toNat := by omega
      rw [hc, hr]
    · rfl

theorem blitOpaque_clear {dx dy : Int} (h : ¬ Reached s ⟨dx, dy, src.width, src.height⟩ p) :
    (blitOpaque s src dx dy).Clear p := by
  intro a
  rw [blitOpaque_apply, if_neg h]

theorem blitOpaque_shows {dx dy : Int} (h : Reached s ⟨dx, dy, src.width, src.height⟩ p) :
    (blitOpaque s src dx dy).Shows p (src.pixel (p.1 - dx).toNat (p.2 - dy).toNat) := by
  intro a
  rw [blitOpaque_apply, if_pos h]

end Canvas

end Vitrin
