import Vitrin.Scene.Window
import Vitrin.Screen.Canvas

/-!
# What the human sees

The core's own drawing on the output. Over the bound realm's view it paints its status
strip, the consent card, the lock's cover, the blank cover, the trusted band, the
attention marker, a notice, two pointers and the hold indicator. It does so in two places:
on the CPU over a composed view, and, when a client's buffer is shown without a copy, as a
list of draws for the GPU. The top rows are the human's check on all of it: they have the
session's secret colour, which no client knows.

The painters are the source's, as operations on a canvas (`Canvas`); the pictures that
text was drawn on (cards, strip, notice) are any rasters. `windowPixels` is the CPU's
order, `humanVisibleFrame` the GPU's list, and `Draw.paint` what the executor of the list
makes of one draw. What a client's texture makes of the matte below it is any layer.
A rectangle of the list is in 32-bit signed integers, and sizes become such by wrapping.

Nothing is painted on the band in either order, except that a hold's bar covers its own
rows (`trust_band_kept`). The CPU's half is the last-writer argument over `Layer.stack`,
and the painters above the band need one fact each: they are clear there. No run of a
nested window changes that, not even one that leaves it stale (`window_keeps_band`). A side
of 2^31 or more, which no backend has, wraps to a negative one (`trust_band_lost`).
-/

namespace Vitrin

open Lib

/-! ### The session's colour -/

/-- The colour of a session's trusted band and frames. -/
structure TrustedIndicator where
  rgba : Pixel
  solid : rgba.a = 0xff

/-- A colour for the band, drawn from three random bytes (`generate`); it is never dark. -/
def TrustedIndicator.ofRandom (r g b : UInt8) : TrustedIndicator :=
  let scale (c : UInt8) : UInt8 := UInt8.ofNat (64 + c.toNat * 192 / 256)
  ⟨⟨scale r, scale g, scale b, 0xff⟩, rfl⟩

def TrustedIndicator.color (i : TrustedIndicator) : Pixel := i.rgba

/-! ### Painters -/

structure StatusStrip where
  enabled : Bool
  configHeight : Nat
  /-- The picture of what was last sampled, by the strip's width. -/
  snapshot : Option (Nat → Picture)

namespace StatusStrip

def height (s : StatusStrip) : Nat := if s.enabled then s.configHeight else 0

def strip (s : StatusStrip) (width : Nat) : Option Raster :=
  if s.enabled then s.snapshot.map fun picture => ⟨width, s.configHeight, picture width⟩ else none

def compositeOver (s : StatusStrip) (size : Nat × Nat) : Paint := match s.strip size.1 with
  | none => .stack []
  | some strip => Canvas.blitOpaque size strip 0 stripTop

end StatusStrip

def trustFrameThickness : Nat := 12

/-- How dark the view is behind a consent card. -/
def scrimAlpha : UInt8 := 150

def lockCoverRgba : Pixel := ⟨0x0a, 0x0b, 0x0f, 0xff⟩

def blankCoverRgba : Pixel := ⟨0x00, 0x00, 0x00, 0xff⟩

/-- The attention marker's colour and size. -/
def markerRgba : Pixel := ⟨0x30, 0xc0, 0xff, 0xff⟩

def markerW : Nat := 96

def markerH : Nat := 6

/-- `u32` addition. -/
def satAdd32 (a b : Nat) : Nat := min (a + b) (2 ^ 32 - 1)

/-- A card in the middle of the view, in a frame of the session's colour. -/
def framedCard (indicator : TrustedIndicator) (card : Raster) (size : Nat × Nat) : Paint :=
  let corner := centered card.width card.height size.1 size.2
  let t := trustFrameThickness
  .stack [
    Canvas.strokeRect size
      ⟨corner.1 - t, corner.2 - t, satAdd32 card.width (2 * t), satAdd32 card.height (2 * t)⟩ indicator.color t,
    Canvas.blitOpaque size card corner.1 corner.2]

/-- Draw the consent surface's card, a prompt's or the picker's, over a darkened view. -/
def consentOver (indicator : TrustedIndicator) (card : Option Raster) (size : Nat × Nat) : Paint := match card with
  | none => .stack []
  | some card => .stack [Canvas.darken scrimAlpha, framedCard indicator card size]

/-- Draw the lock's card over a cover. -/
def lockOver (indicator : TrustedIndicator) (card : Option Raster) (size : Nat × Nat) : Paint := match card with
  | none => .stack []
  | some card =>
    .stack [Canvas.fillRect size ⟨0, 0, size.1, size.2⟩ lockCoverRgba, framedCard indicator card size]

def blankOver (covering : Bool) (size : Nat × Nat) : Paint :=
  if covering then Canvas.fillRect size ⟨0, 0, size.1, size.2⟩ blankCoverRgba else .stack []

def compositeTrustBand (indicator : TrustedIndicator) (size : Nat × Nat) : Paint :=
  Canvas.fillRect size ⟨0, 0, size.1, min trustBandHeight size.2⟩ indicator.color

def compositeAttentionMarker (size : Nat × Nat) : Paint :=
  if size.1 = 0 ∨ size.2 ≤ trustBandHeight then .stack []
  else Canvas.fillRect size
    ⟨0, trustBandHeight, min markerW size.1, min markerH (size.2 - trustBandHeight)⟩ markerRgba

/-- A number as 32 signed bits (`as i32`). -/
def asI32 (n : Int) : Int := n.bmod (2 ^ 32)

def noticeOver (notice : Option Raster) (size : Nat × Nat) : Paint := match notice with
  | none => .stack []
  | some raster =>
    Canvas.blitOpaque size raster 0 (asI32 (max (size.2 - raster.height : Nat) trustBandHeight : Nat))

/-! #### Pointers -/

structure CursorRect where
  rect : Rect
  rgba : Pixel

/-- The arms of the two pointers, how thick they are, and their edge. -/
def agentArm : Nat := 9

def humanArm : Nat := 5

def cursorThick : Nat := 3

def cursorHalf : Nat := cursorThick / 2

def cursorEdge : Nat := 1

def agentCursorHalo : Pixel := ⟨0x08, 0x08, 0x0c, 0xff⟩

def agentCursorCore : Pixel := ⟨0x4c, 0xf0, 0xff, 0xff⟩

def humanCursorCore : Pixel := ⟨0xff, 0xff, 0xff, 0xff⟩

/-- A rectangle of a pointer without what of it is on the band (`piece`). -/
def cursorPiece (x y : Int) (w h : Nat) (rgba : Pixel) : CursorRect :=
  if y < trustBandHeight then
    let lost := (min (trustBandHeight - y) h).toNat
    ⟨⟨saturate 31 x, saturate 31 trustBandHeight, w, h - lost⟩, rgba⟩
  else ⟨⟨saturate 31 x, saturate 31 y, w, h⟩, rgba⟩

/-- A pointer with its tip on a pixel: a dark cross and a bright one on it. -/
def crosshairPieces (tip : Int × Int) (arm : Nat) (core : Pixel) : List CursorRect :=
  let bar := 2 * arm + 1
  [cursorPiece (tip.1 - (arm + cursorEdge : Nat)) (tip.2 - (cursorHalf + cursorEdge : Nat)) (bar + 2 * cursorEdge)
      (cursorThick + 2 * cursorEdge) agentCursorHalo,
    cursorPiece (tip.1 - (cursorHalf + cursorEdge : Nat)) (tip.2 - (arm + cursorEdge : Nat))
      (cursorThick + 2 * cursorEdge) (bar + 2 * cursorEdge) agentCursorHalo,
    cursorPiece (tip.1 - arm) (tip.2 - cursorHalf) bar cursorThick core,
    cursorPiece (tip.1 - cursorHalf) (tip.2 - arm) cursorThick bar core]

/-- The pieces of a pointer, if there is room below the band and the position is one. -/
def crosshairRects (size : Nat × Nat) (position : Coord × Coord) (arm : Nat) (core : Pixel) :
    Option (List CursorRect) :=
  if size.1 = 0 ∨ size.2 ≤ trustBandHeight then none
  else (hotspot position).map fun tip => crosshairPieces tip arm core

def agentCursorRects (size : Nat × Nat) (position : Coord × Coord) : Option (List CursorRect) :=
  crosshairRects size position agentArm agentCursorCore

def humanCursorRects (size : Nat × Nat) (position : Coord × Coord) : Option (List CursorRect) :=
  crosshairRects size position humanArm humanCursorCore

/-- Draw a pointer (`fill`). -/
def fillCursor (size : Nat × Nat) (rects : Option (List CursorRect)) : Paint :=
  .stack ((rects.getD []).map fun piece => Canvas.fillRect size piece.rect piece.rgba)

/-! ### The order on the CPU -/

/-- What the core draws, as it stands. -/
structure HumanView where
  indicator : TrustedIndicator
  status : StatusStrip
  /-- The raster of the consent surface's card: a petition's, or the picker's. -/
  consent : Option Raster
  lock : Option Raster
  blank : Bool
  attention : Bool
  notice : Option Raster
  hold : Option Rat
  agentCursor : Option (Coord × Coord)
  humanCursor : Option (Coord × Coord)

namespace HumanView

/-- What is drawn on every output, from below (`human_visible_from_view`). -/
def overView (v : HumanView) (size : Nat × Nat) : List Paint :=
  [v.status.compositeOver size, consentOver v.indicator v.consent size, lockOver v.indicator v.lock size,
    blankOver v.blank size, compositeTrustBand v.indicator size] ++
  if v.attention then [compositeAttentionMarker size] else []

def overBand (v : HumanView) (g : ViewGeometry) : List Paint :=
  [noticeOver v.notice g.output,
    fillCursor g.output (v.agentCursor.bind (agentCursorRects g.output)),
    fillCursor g.output (v.humanCursor.bind (humanCursorRects g.output))] ++
  v.hold.toList.map fun progress p a => holdIndicator progress g p.1 p.2 a

/-- The human-visible output over a composed view (`human_visible_from_view`). -/
def humanVisibleFromView (v : HumanView) (view : Picture) (size : Nat × Nat) : Picture := fun x y =>
  Layer.stack (v.overView size) (x, y) (view x y)

def composeHumanVisible (v : HumanView) (scene : Scene) (g : ViewGeometry) : Picture :=
  v.humanVisibleFromView (scene.compose g) g.output

/-- A window's or panel's picture (`window_pixels`). -/
def windowPixels (v : HumanView) (scene : Scene) (g : ViewGeometry) : Picture := fun x y =>
  Layer.stack (v.overBand g) (x, y) (v.composeHumanVisible scene g x y)

end HumanView

/-! ### The list for the GPU -/

/-- A rectangle of the output, in signed integers. -/
structure Rectangle where
  loc : Int × Int
  size : Int × Int

def Rectangle.Holds (r : Rectangle) (p : Nat × Nat) : Prop :=
  r.loc.1 ≤ p.1 ∧ (p.1 : Int) < r.loc.1 + r.size.1 ∧ r.loc.2 ≤ p.2 ∧ (p.2 : Int) < r.loc.2 + r.size.2

instance (r : Rectangle) : DecidablePred r.Holds := fun _ => inferInstanceAs (Decidable (_ ∧ _))

inductive Draw where
  | nothing
  | matte
  | content (dst : Rectangle)
  | agentCursor (rect : Rectangle) (rgba : Pixel)
  | humanCursor (rect : Rectangle) (rgba : Pixel)
  | statusStrip (rect : Rectangle)
  | trustBand (rect : Rectangle) (rgba : Pixel)

/-- The view's size in signed integers. -/
def physical (output : Nat × Nat) : Int × Int := (asI32 output.1, asI32 output.2)

def trustBandRect (view : Int × Int) : Rectangle :=
  ⟨(0, 0), (max view.1 0, min trustBandHeight (max view.2 0))⟩

def statusStripRect (view : Int × Int) (stripH : Nat) : Rectangle :=
  let top := min (stripTop : Int) (max view.2 0)
  ⟨(0, top), (max view.1 0, max (min (asI32 stripH) (max view.2 0 - top)) 0)⟩

def cursorSlots (draw : Rectangle → Pixel → Draw) (rects : Option (List CursorRect)) : List Draw := match rects with
  | none => List.replicate 4 .nothing
  | some rects => rects.map fun piece =>
    draw ⟨(piece.rect.x, piece.rect.y), (asI32 piece.rect.w, asI32 piece.rect.h)⟩ piece.rgba

def stripSlot (view : Int × Int) (stripH : Nat) : Draw :=
  if 0 < stripH ∧ 0 < (statusStripRect view stripH).size.1 ∧ 0 < (statusStripRect view stripH).size.2 then
    .statusStrip (statusStripRect view stripH)
  else .nothing

/-- Where a client's buffer of this size is drawn. -/
def contentRect (g : ViewGeometry) (content : Nat × Nat) : Rectangle :=
  ⟨(asI32 (g.place content).x, asI32 (g.place content).y), (asI32 content.1, asI32 content.2)⟩

def cursorDraws (view : Int × Int) (agentCursor humanCursor : Option (Coord × Coord)) : List Draw :=
  let canvas := ((max view.1 0).toNat, (max view.2 0).toNat)
  cursorSlots .agentCursor (agentCursor.bind (agentCursorRects canvas)) ++
    cursorSlots .humanCursor (humanCursor.bind (humanCursorRects canvas))

/-- The draws over the client's buffer: the strip, the pointers, and the band last. -/
def aboveContent (g : ViewGeometry) (indicator : TrustedIndicator)
    (agentCursor humanCursor : Option (Coord × Coord)) : List Draw :=
  let view := physical g.output
  stripSlot view g.stripH ::
    (cursorDraws view agentCursor humanCursor ++ [.trustBand (trustBandRect view) indicator.color])

/-- The draws of a frame that shows a client's buffer of this size without a copy, in order. -/
def humanVisibleFrame (g : ViewGeometry) (content : Nat × Nat) (indicator : TrustedIndicator)
    (agentCursor humanCursor : Option (Coord × Coord)) : List Draw :=
  .matte :: .content (contentRect g content) :: aboveContent g indicator agentCursor humanCursor

/-- What executing a draw makes of a point of the view. The client's texture is blended onto what is below it; the
strip's is drawn only if there is one. -/
def Draw.paint (client : Paint) (strip : Option Picture) : Draw → Paint
  | .nothing => .stack []
  | .matte => fun _ _ => letterboxRgba
  | .content dst => .masked dst.Holds client
  | .agentCursor rect rgba | .humanCursor rect rgba =>
    if 0 < rect.size.1 ∧ 0 < rect.size.2 then .masked rect.Holds fun _ _ => rgba else .stack []
  | .statusStrip rect => match strip with
    | some picture => .masked rect.Holds fun p _ => picture p.1 p.2
    | none => .stack []
  | .trustBand rect rgba => .masked rect.Holds fun _ _ => rgba

/-- The frame after its draws (`present_human_visible`), over what the framebuffer held before. -/
def presentHumanVisible (g : ViewGeometry) (content : Nat × Nat) (client : Paint) (strip : Option Picture)
    (indicator : TrustedIndicator) (agentCursor humanCursor : Option (Coord × Coord)) (before : Picture) : Picture :=
  fun x y => Layer.stack
    ((humanVisibleFrame g content indicator agentCursor humanCursor).map (Draw.paint client strip)) (x, y) (before x y)

/-! ### What is clear of the band -/

def holdBarHeight : Nat := 6

variable {g : ViewGeometry}

section Band

variable {s : Nat × Nat} {x y : Nat}

theorem compositeTrustBand_shows (indicator : TrustedIndicator) (hx : x < s.1) (hy : y < s.2)
    (hb : y < trustBandHeight) : (compositeTrustBand indicator s).Shows (x, y) indicator.color := by
  refine Canvas.fillRect_shows indicator.solid ?_
  simp only [Canvas.Reached]
  omega

theorem compositeAttentionMarker_clear (hb : y < trustBandHeight) : (compositeAttentionMarker s).Clear (x, y) := by
  unfold compositeAttentionMarker
  split
  · exact Layer.stack_clear (by simp)
  · refine Canvas.fillRect_clear ?_
    simp only [Canvas.Reached]
    omega

/-- A notice's row wraps only on an output of 2^31 rows or more, and then it ends before the first row. -/
theorem noticeOver_clear {notice : Option Raster} (hh : s.2 < 2 ^ 32) (hb : y < trustBandHeight) :
    (noticeOver notice s).Clear (x, y) := by
  cases notice with
  | none => exact Layer.stack_clear (by simp)
  | some raster =>
    refine Canvas.blitOpaque_clear ?_
    have hr : trustBandHeight ≤ asI32 (max (s.2 - raster.height : Nat) trustBandHeight : Nat) ∨
        asI32 (max (s.2 - raster.height : Nat) trustBandHeight : Nat) + raster.height ≤ 0 := by
      simp only [asI32, Int.bmod_def, trustBandHeight]
      omega
    simp only [Canvas.Reached]
    omega

theorem cursorPiece_below {x y : Int} {w h : Nat} (rgba : Pixel) :
    (trustBandHeight : Int) ≤ (cursorPiece x y w h rgba).rect.y := by
  unfold cursorPiece
  split
  all_goals
    simp only [saturate, trustBandHeight] at *
    omega

theorem crosshairPieces_below {tip : Int × Int} {arm : Nat} {core : Pixel} :
    ∀ piece ∈ crosshairPieces tip arm core, (trustBandHeight : Int) ≤ piece.rect.y := by
  intro piece hp
  simp only [crosshairPieces, List.mem_cons, List.not_mem_nil, or_false] at hp
  rcases hp with rfl | rfl | rfl | rfl <;> exact cursorPiece_below ..

theorem crosshairRects_below {position : Coord × Coord} {arm : Nat} {core : Pixel} {rects : List CursorRect}
    (h : crosshairRects s position arm core = some rects) :
    ∀ piece ∈ rects, (trustBandHeight : Int) ≤ piece.rect.y := by
  unfold crosshairRects at h
  split at h
  · cases h
  · obtain ⟨tip, -, rfl⟩ := Option.map_eq_some_iff.1 h
    exact crosshairPieces_below

theorem fillCursor_clear {rects : Option (List CursorRect)}
    (hb : ∀ pieces, rects = some pieces → ∀ piece ∈ pieces, (trustBandHeight : Int) ≤ piece.rect.y)
    (hba : y < trustBandHeight) : (fillCursor s rects).Clear (x, y) := by
  refine Layer.stack_clear ?_
  intro l hl
  obtain ⟨piece, hp, rfl⟩ := List.mem_map.1 hl
  cases rects with
  | none => cases hp
  | some pieces =>
    have hy := hb pieces rfl piece hp
    refine Canvas.fillRect_clear ?_
    simp only [Canvas.Reached]
    omega

theorem holdIndicator_clear (progress : Rat) (g : ViewGeometry) (x : Nat) (hr : holdBarHeight ≤ y) (a : Pixel) :
    holdIndicator progress g x y a = a := by
  unfold holdIndicator
  rw [if_neg]
  simp only [holdBarHeight] at hr
  omega

/-- What is drawn after the band leaves it, but for the hold indicator's rows. -/
theorem overBand_clear (v : HumanView) (hh : g.output.2 < 2 ^ 32) (hb : y < trustBandHeight)
    (hho : v.hold = none ∨ holdBarHeight ≤ y) : ∀ l ∈ v.overBand g, l.Clear (x, y) := by
  intro l hl
  have hc : ∀ {position : Option (Coord × Coord)} {arm : Nat} {core : Pixel},
      (fillCursor g.output (position.bind (crosshairRects g.output · arm core))).Clear (x, y) := by
    refine fillCursor_clear (fun pieces hp => ?_) hb
    obtain ⟨position, -, hp⟩ := Option.bind_eq_some_iff.1 hp
    exact crosshairRects_below hp
  simp only [HumanView.overBand, List.mem_append, List.mem_cons, List.not_mem_nil, or_false, List.mem_map] at hl
  rcases hl with (rfl | rfl | rfl) | ⟨progress, hpr, rfl⟩
  · exact noticeOver_clear hh hb
  · exact hc
  · exact hc
  · obtain hn | hr := hho
    · rw [hn] at hpr
      cases hpr
    · exact holdIndicator_clear progress g x hr

/-! ### On the CPU -/

namespace HumanView

theorem windowPixels_eq {v : HumanView} {scene : Scene} :
    v.windowPixels scene g x y = Layer.stack (v.overView g.output ++ v.overBand g) (x, y) (scene.compose g x y) :=
  Layer.stack_append.symm

theorem windowPixels_band (v : HumanView) (scene : Scene) (hh : g.output.2 < 2 ^ 32) (hx : x < g.output.1)
    (hy : y < g.output.2) (hb : y < trustBandHeight) (hho : v.hold = none ∨ holdBarHeight ≤ y) :
    v.windowPixels scene g x y = v.indicator.color := by
  rw [windowPixels_eq]
  refine Layer.stack_shows
    [v.status.compositeOver g.output, consentOver v.indicator v.consent g.output,
      lockOver v.indicator v.lock g.output, blankOver v.blank g.output]
    (compositeTrustBand_shows v.indicator hx hy hb) ?_ _
  intro l hl
  obtain hm | hover := List.mem_append.1 hl
  · split at hm
    · cases List.mem_singleton.1 hm
      exact compositeAttentionMarker_clear hb
    · cases hm
  · exact overBand_clear v hh hb hho l hover

theorem strip_hides {status : StatusStrip} (hon : status.enabled) (hs : status.snapshot.isSome)
    (hx : x < s.1) (hy : y < s.2) (ht : stripTop ≤ y) (hst : y < stripTop + status.height) :
    (status.compositeOver s).Hides (x, y) := by
  obtain ⟨picture, hp⟩ := Option.isSome_iff_exists.1 hs
  have hr : status.strip s.1 = some ⟨s.1, status.configHeight, picture s.1⟩ := by
    simp [StatusStrip.strip, hon, hp]
  rw [StatusStrip.height, if_pos hon] at hst
  unfold StatusStrip.compositeOver
  rw [hr]
  refine (Canvas.blitOpaque_shows ?_).hides
  simp only [Canvas.Reached]
  omega

theorem windowPixels_reserved (v : HumanView) (hon : v.status.enabled) (hs : v.status.snapshot.isSome)
    (hg : g.stripH = v.status.height) (hx : x < g.output.1) (hr : y < g.reservedTop)
    (scene scene' : Scene) : v.windowPixels scene g x y = v.windowPixels scene' g x y := by
  simp only [ViewGeometry.reservedTop] at hr
  rw [windowPixels_eq, windowPixels_eq]
  by_cases hb : y < trustBandHeight
  · refine Layer.stack_hides (l := compositeTrustBand v.indicator g.output) (by simp [overView]) ?_ _ _
    exact (compositeTrustBand_shows v.indicator hx (by omega) hb).hides
  · refine Layer.stack_hides (l := v.status.compositeOver g.output) (by simp [overView]) ?_ _ _
    simp only [stripTop] at hr
    exact strip_hides hon hs hx (by omega) (by simpa [stripTop] using hb) (by simp only [stripTop]; omega)

end HumanView

/-! ### On the GPU -/

theorem physical_eq {output : Nat × Nat} (h : output.1 < 2 ^ 31 ∧ output.2 < 2 ^ 31) :
    physical output = ((output.1 : Int), (output.2 : Int)) := by
  simp only [physical, asI32, Int.bmod_def, Prod.mk.injEq]
  omega

theorem Draw.paint_eq {d : Draw} (h : ∀ dst, d ≠ .content dst) (client client' : Paint) (strip : Option Picture) :
    d.paint client strip = d.paint client' strip := by
  cases d with
  | content dst => exact absurd rfl (h dst)
  | _ => rfl

theorem cursorSlots_ne_content {draw : Rectangle → Pixel → Draw} (hdr : ∀ rect rgba dst, draw rect rgba ≠ .content dst)
    (rects : Option (List CursorRect)) : ∀ d ∈ cursorSlots draw rects, ∀ dst, d ≠ .content dst := by
  intro d hd dst
  cases rects with
  | none =>
    obtain ⟨-, rfl⟩ := List.mem_replicate.1 hd
    simp
  | some pieces =>
    obtain ⟨piece, -, rfl⟩ := List.mem_map.1 hd
    exact hdr _ _ _

theorem aboveContent_paint {g : ViewGeometry} {indicator : TrustedIndicator}
    {agentCursor humanCursor : Option (Coord × Coord)} (client client' : Paint) (strip : Option Picture) :
    (aboveContent g indicator agentCursor humanCursor).map (Draw.paint client strip) =
      (aboveContent g indicator agentCursor humanCursor).map (Draw.paint client' strip) := by
  refine List.map_congr_left fun d hd => Draw.paint_eq ?_ client client' strip
  simp only [aboveContent, List.mem_cons, List.mem_append, cursorDraws, List.not_mem_nil, or_false] at hd
  rcases hd with rfl | (ha | hh) | rfl
  · intro dst
    unfold stripSlot
    split <;> simp
  · exact cursorSlots_ne_content (by simp) _ d ha
  · exact cursorSlots_ne_content (by simp) _ d hh
  · simp

theorem trustBand_shows (client : Paint) (strip : Option Picture) (rgba : Pixel)
    (hs : g.output.1 < 2 ^ 31 ∧ g.output.2 < 2 ^ 31) (hx : x < g.output.1) (hy : y < g.output.2)
    (hb : y < trustBandHeight) :
    ((Draw.trustBand (trustBandRect (physical g.output)) rgba).paint client strip).Shows (x, y) rgba := by
  refine Layer.masked_shows ?_ fun _ => rfl
  rw [physical_eq hs]
  simp only [Rectangle.Holds, trustBandRect]
  omega

theorem stripSlot_shows (client : Paint) (picture : Picture) (hs : g.output.1 < 2 ^ 31 ∧ g.output.2 < 2 ^ 31)
    (hst : g.stripH < 2 ^ 31) (hx : x < g.output.1) (hy : y < g.output.2) (ht : stripTop ≤ y)
    (hr : y < stripTop + g.stripH) :
    ((stripSlot (physical g.output) g.stripH).paint client (some picture)).Shows (x, y) (picture x y) := by
  have hh : asI32 g.stripH = g.stripH := by
    simp only [asI32, Int.bmod_def]
    omega
  unfold stripSlot
  rw [physical_eq hs, if_pos (by simp only [statusStripRect]; omega)]
  refine Layer.masked_shows ?_ fun _ => rfl
  simp only [Rectangle.Holds, statusStripRect]
  omega

section Present

variable (i : TrustedIndicator) (a humanCursor : Option (Coord × Coord))

/-- A frame: what is drawn over the client's buffer, over the buffer on the matte. -/
theorem present_eq {content : Nat × Nat} {client : Paint} {strip : Option Picture} {before : Picture} :
    presentHumanVisible g content client strip i a humanCursor before x y =
      Layer.stack ((aboveContent g i a humanCursor).map (Draw.paint client strip)) (x, y)
        (Layer.masked (contentRect g content).Holds client (x, y) letterboxRgba) := rfl

theorem present_band (content : Nat × Nat) (client : Paint) (strip : Option Picture) (before : Picture)
    (hs : g.output.1 < 2 ^ 31 ∧ g.output.2 < 2 ^ 31) (hx : x < g.output.1) (hy : y < g.output.2)
    (hb : y < trustBandHeight) : presentHumanVisible g content client strip i a humanCursor before x y = i.color := by
  rw [present_eq, aboveContent, List.map_cons, List.map_append, ← List.cons_append]
  exact Layer.stack_shows _ (trustBand_shows client strip _ hs hx hy hb) (by simp) _

theorem present_reserved (picture : Picture) (hs : g.output.1 < 2 ^ 31 ∧ g.output.2 < 2 ^ 31)
    (hst : g.stripH < 2 ^ 31) (hx : x < g.output.1) (hr : y < g.reservedTop)
    (content content' : Nat × Nat) (client client' : Paint) (before before' : Picture) :
    presentHumanVisible g content client (some picture) i a humanCursor before x y =
      presentHumanVisible g content' client' (some picture) i a humanCursor before' x y := by
  simp only [ViewGeometry.reservedTop] at hr
  have hy : y < g.output.2 := by omega
  by_cases hb : y < trustBandHeight
  · rw [present_band i a humanCursor content client _ before hs hx hy hb,
      present_band i a humanCursor content' client' _ before' hs hx hy hb]
  · have hsh := stripSlot_shows client' picture hs hst hx hy (Nat.not_lt.1 hb) (by omega)
    rw [present_eq, present_eq, aboveContent_paint client client']
    exact Layer.stack_hides (.head _) hsh.hides _ _

end Present

end Band

/-! ### The realm's view -/

theorem Scene.compose_client {scene : Scene} {c : SurfaceContent} (hs : scene.surface = some c) {x y : Nat}
    (hx : x < g.output.1) (hy : y < g.output.2) :
    scene.compose g x y = letterboxRgba ∨
      ∃ i j, i < c.width ∧ j < c.height ∧ scene.compose g x y = (c.pixel i j).solid := by
  rw [Scene.compose, hs, Scene.composeSurface_apply c hx hy]
  split
  · next hi => exact .inr ⟨_, _, by omega, by omega, rfl⟩
  · exact .inl rfl

/-! ### The nested window's pictures -/

/-- The core's surfaces by their generations. -/
structure Surfaces where
  indicator : TrustedIndicator
  status : Nat → StatusStrip
  consent : Nat → Option Raster
  lock : Nat → Option Raster
  blank : Nat → Bool

namespace Surfaces

/-- What the surfaces draw on a nested window. -/
def pictures (s : Surfaces) : Pictures where
  status n g x y := (s.status n).compositeOver g.output (x, y)
  consent n g x y := consentOver s.indicator (s.consent n) g.output (x, y)
  lock n g x y := lockOver s.indicator (s.lock n) g.output (x, y)
  blank n g x y := blankOver (s.blank n) g.output (x, y)
  trustBand g x y := compositeTrustBand s.indicator g.output (x, y)
  attentionMarker g x y := compositeAttentionMarker g.output (x, y)
  agentCursor tip g x y :=
    if g.output.1 = 0 ∨ g.output.2 ≤ trustBandHeight then id
    else fillCursor g.output (some (crosshairPieces tip agentArm agentCursorCore)) (x, y)

/-- The surfaces at the generations of a window's overlays. A nested window has no notice, and the human's pointer is
its host's. -/
def view (s : Surfaces) (o : Overlays) : HumanView where
  indicator := s.indicator
  status := s.status o.status
  consent := s.consent o.consent
  lock := s.lock o.lock
  blank := s.blank o.blank
  attention := o.attention
  notice := none
  hold := o.hold
  agentCursor := o.agentCursor
  humanCursor := none

theorem fillCursor_eq (s : Surfaces) (g : ViewGeometry) (x y : Nat) (position : Option (Coord × Coord)) (a : Pixel) :
    fillCursor g.output (position.bind (agentCursorRects g.output)) (x, y) a =
      (position.bind hotspot).elim a fun tip => s.pictures.agentCursor tip g x y a := by
  cases position with
  | none => rfl
  | some position =>
    simp only [Option.bind_some, agentCursorRects, crosshairRects]
    by_cases hr : g.output.1 = 0 ∨ g.output.2 ≤ trustBandHeight
    · rw [if_pos hr]
      cases hotspot position with
      | none => rfl
      | some tip => simp [pictures, hr, fillCursor]
    · rw [if_neg hr]
      cases hotspot position with
      | none => rfl
      | some tip => simp [pictures, hr]

/-- **A nested window's picture is the human's view of its surfaces.** -/
theorem windowPixels_eq (s : Surfaces) (w : WindowView) :
    w.windowPixels s.pictures = (s.view w.overlays).windowPixels w.scenes.boundScene w.geometry := by
  funext x y
  simp only [WindowView.windowPixels, Pictures.paint, HumanView.windowPixels, HumanView.composeHumanVisible,
    HumanView.humanVisibleFromView, HumanView.overView, HumanView.overBand, Layer.stack_append, Layer.stack_cons]
  rw [show (s.view w.overlays).agentCursor = w.overlays.agentCursor from rfl, s.fillCursor_eq]
  cases ht : w.overlays.agentCursor.bind hotspot <;> cases ha : w.overlays.attention <;>
    cases hh : w.overlays.hold <;> simp [view, pictures, noticeOver, fillCursor, ha, hh]

/-- A texture's rows in the band have the session's colour; while it shows a hold, the rows of the hold's bar have
the indicator's, at the level the texture was made for. Sizes are in 32 bits. -/
def KeepsBand (s : Surfaces) (key : TextureKey) (p : Picture) : Prop :=
  key.size.2 < 2 ^ 32 → ∀ x y, x < key.size.1 → y < key.size.2 → y < trustBandHeight →
    (key.holdBucket = none ∨ holdBarHeight ≤ y → p x y = s.indicator.color) ∧
    ∀ level, key.holdBucket = some level → y < holdBarHeight →
      ∃ progress, holdBucket progress = level ∧ ∀ below, p x y = holdIndicator progress ⟨key.size, 0⟩ x y below

variable {s : Surfaces} {w : WindowView}

theorem keepsBand_windowPixels : s.KeepsBand w.key (w.windowPixels s.pictures) := by
  intro hw x y hx hy hb
  constructor
  · intro hh
    rw [windowPixels_eq]
    exact HumanView.windowPixels_band _ _ hw hx hy hb (hh.imp_left Option.map_eq_none_iff.mp)
  · intro level hlevel hl
    obtain ⟨progress, hp, rfl⟩ := Option.map_eq_some_iff.mp hlevel
    refine ⟨progress, rfl, fun below => ?_⟩
    have hr : y < min 6 w.size.2 := lt_min hl hy
    simp only [WindowView.windowPixels, Pictures.paint, hp, holdIndicator]
    exact (if_pos hr).trans (if_pos hr).symm

/-- A limited upload goes into a texture for the same size and the same level of a hold. -/
theorem windowStep_keepsBand (op : WindowOp) (h : ∀ t, w.texture = some t → s.KeepsBand t.key t.pixel)
    (t : SceneTexture) (ht : (windowStep s.pictures w op).1.texture = some t) : s.KeepsBand t.key t.pixel := by
  cases op with
  | redraw zeroCopy =>
    simp only [windowStep, WindowView.tryRedraw, WindowView.upload] at ht
    split at ht
    · exact h t ht
    split at ht
    · exact h t ht
    split at ht
    · next prev rect hd =>
      obtain ⟨hprev, -, -, hs, -, -, hh, -⟩ := WindowView.boundedSceneOnlyDamage_some hd
      have hp := h prev hprev
      unfold KeepsBand at hp
      rw [hs, hh] at hp
      split at ht <;> cases ht
      · intro hw x y hx hy hb
        simp only [updateMemory]
        split
        · exact keepsBand_windowPixels hw x y hx hy hb
        · exact hp hw x y hx hy hb
      · exact hp
    · cases ht
      exact keepsBand_windowPixels
  | _ => exact h t ht

/-- **No run of a nested window paints over the band**, not even one that leaves the texture behind the current
state: whatever is committed, damaged, raised or resized, and whatever part of the picture an upload is limited to. -/
theorem window_keeps_band (s : Surfaces) (size : Nat × Nat) (stripH : Nat) (ops : List WindowOp) (t : SceneTexture)
    (ht : ((windowStep s.pictures).exec (.new size stripH) ops).texture = some t) : s.KeepsBand t.key t.pixel :=
  Machine.exec_inv (P := fun w : WindowView => ∀ t, w.texture = some t → s.KeepsBand t.key t.pixel)
    (fun _ op => windowStep_keepsBand op) (fun _ h => by cases h) ops t ht

end Surfaces

/-! ### The band -/

/-- **The trusted band is not painted over.** At every point of an output: in the band's rows the CPU's picture has the
session's colour, except in the hold indicator's rows during a hold, and so has the GPU's frame; in the reserved rows,
where the strip is drawn, neither depends on the client; and a view composed with a surface has only the surface's
pixels and the letterbox, one without is the test pattern. The GPU's rectangles are in 31 bits. -/
theorem trust_band_kept {g : ViewGeometry} (hsize : g.output.1 < 2 ^ 32 ∧ g.output.2 < 2 ^ 32) {x y : Nat}
    (hx : x < g.output.1) (hy : y < g.output.2) :
    (∀ (v : HumanView) (scene : Scene), y < trustBandHeight → v.hold = none ∨ holdBarHeight ≤ y →
      v.windowPixels scene g x y = v.indicator.color) ∧
    (∀ (indicator : TrustedIndicator) (agentCursor humanCursor : Option (Coord × Coord)) (content : Nat × Nat)
        (client : Paint) (strip : Option Picture) (before : Picture),
      g.output.1 < 2 ^ 31 → g.output.2 < 2 ^ 31 → y < trustBandHeight →
        presentHumanVisible g content client strip indicator agentCursor humanCursor before x y = indicator.color) ∧
    (∀ (v : HumanView) (scene scene' : Scene), v.status.enabled → v.status.snapshot.isSome →
      g.stripH = v.status.height → y < g.reservedTop → v.windowPixels scene g x y = v.windowPixels scene' g x y) ∧
    (∀ (indicator : TrustedIndicator) (agentCursor humanCursor : Option (Coord × Coord))
        (content content' : Nat × Nat) (client client' : Paint) (picture before before' : Picture),
      g.output.1 < 2 ^ 31 → g.output.2 < 2 ^ 31 → g.stripH < 2 ^ 31 → y < g.reservedTop →
        presentHumanVisible g content client (some picture) indicator agentCursor humanCursor before x y =
          presentHumanVisible g content' client' (some picture) indicator agentCursor humanCursor before' x y) ∧
    (∀ (scene : Scene) (c : SurfaceContent), scene.surface = some c →
      scene.compose g x y = letterboxRgba ∨
        ∃ i j, i < c.width ∧ j < c.height ∧ scene.compose g x y = (c.pixel i j).solid) ∧
    (∀ scene : Scene, scene.surface = none → scene.compose g x y = TestPattern.pixel g.output x y) := by
  refine ⟨?_, ?_, ?_, ?_, ?_, ?_⟩
  · intro v scene hb hho
    exact v.windowPixels_band scene hsize.2 hx hy hb hho
  · intro indicator agentCursor humanCursor content client strip before hw hh hb
    exact present_band indicator agentCursor humanCursor content client strip before ⟨hw, hh⟩ hx hy hb
  · intro v scene scene' hon hs hg hr
    exact v.windowPixels_reserved hon hs hg hx hr scene scene'
  · intro indicator agentCursor humanCursor content content' client client' picture before before' hw hh
      hst hr
    exact present_reserved indicator agentCursor humanCursor picture ⟨hw, hh⟩ hst hx hr
      content content' client client' before before'
  · intro scene c hsu
    exact Scene.compose_client hsu hx hy
  · intro scene hno
    rw [Scene.compose, hno, Scene.composeSurface]

namespace Sample

def indicator : TrustedIndicator := .ofRandom 200 10 90

/-- Everything is up at once: cards larger than the output, a notice of its height, one pointer on the band, the other
nowhere, and a hold. -/
def everything : HumanView where
  indicator := indicator
  status := ⟨true, 20, some fun _ _ _ => letterboxRgba⟩
  consent := some ⟨300, 300, fun _ _ => lockCoverRgba⟩
  lock := some ⟨200, 200, fun _ _ => markerRgba⟩
  blank := true
  attention := true
  notice := some ⟨64, 48, fun _ _ => blankCoverRgba⟩
  hold := some (1 / 2)
  agentCursor := some (.finite 3, .finite 2)
  humanCursor := some (.nan, .inf true)

end Sample

open Sample in
/-- On a small output with everything up the last two rows of the band are left of it, above the hold's bar. -/
theorem trust_band_kept_everything :
    everything.windowPixels .new ⟨(64, 48), 20⟩ 3 7 = ⟨0xd6, 0x47, 0x83, 0xff⟩ ∧
      presentHumanVisible ⟨(64, 48), 20⟩ (300, 300) (fun _ a => a) none indicator everything.agentCursor none
        (fun _ _ => markerRgba) 3 7 = ⟨0xd6, 0x47, 0x83, 0xff⟩ ∧
      ∀ scene, everything.windowPixels scene ⟨(64, 48), 20⟩ 3 7 = everything.windowPixels .new ⟨(64, 48), 20⟩ 3 7 := by
  have hk := trust_band_kept (g := ⟨(64, 48), 20⟩) (x := 3) (y := 7) (by decide) (by decide) (by decide)
  refine ⟨hk.1 everything .new (by decide) (.inr (by decide)), ?_, ?_⟩
  · exact hk.2.1 indicator everything.agentCursor none (300, 300) (fun _ a => a) none (fun _ _ => markerRgba)
      (by decide) (by decide) (by decide)
  · intro scene
    exact hk.2.2.1 everything scene .new rfl rfl rfl (by decide)

open Sample in
/-- The lock comes up as the client repaints a corner. -/
theorem window_keeps_band_locked :
    let s : Surfaces := ⟨indicator, fun _ => everything.status, fun _ => none, fun _ => everything.lock, fun _ => false⟩
    ∃ t, ((windowStep s.pictures).exec (.new (64, 48) 20) (locked editor ++ [.redraw false])).texture = some t ∧
      s.KeepsBand t.key t.pixel := by
  intro s
  exact (Option.isSome_iff_exists.mp (by decide +kernel)).imp fun t ht => ⟨ht, s.window_keeps_band _ _ _ t ht⟩

open Sample in
/-- **Where the band is not kept, and what else a view has.** On an output 2^31 columns wide the list's band has no
width, and a point of its rows keeps the letterbox; a strip of 2^31 rows is not drawn, and its rows show the client; the
view of a scene without a surface has two colours. -/
theorem trust_band_lost :
    (trustBandRect (physical (2 ^ 31, 8))).size = (0, 8) ∧
    presentHumanVisible ⟨(2 ^ 31, 8), 0⟩ (64, 48) (fun _ a => a) none indicator none none (fun _ _ => markerRgba) 0 0 =
      letterboxRgba ∧ letterboxRgba ≠ indicator.color ∧
    presentHumanVisible ⟨(8, 64), 2 ^ 31⟩ (8, 128) (fun _ _ => markerRgba) (some fun _ _ => letterboxRgba) indicator none
      none (fun _ _ => letterboxRgba) 0 20 = markerRgba ∧ letterboxRgba ≠ markerRgba ∧
    Scene.new.compose ⟨(64, 48), 0⟩ 0 0 = TestPattern.markerTopLeft ∧
    Scene.new.compose ⟨(64, 48), 0⟩ 63 0 = TestPattern.markerTopRight ∧
    TestPattern.markerTopLeft ≠ TestPattern.markerTopRight := by
  decide +kernel

end Vitrin
