import Mathlib.Algebra.Order.Ring.Unbundled.Rat
import Vitrin.Lib.Machine
import Vitrin.Scene.Scene

/-!
# The nested window

The nested backend keeps the composed output as one texture and uploads it again only when
something it shows has changed; when the change is confined to a rectangle of the client's
surface, only that rectangle is uploaded. The texture must always be what a full upload
would give.

Over the bound realm's view the core draws its own: status strip, consent card, lock cover,
blank cover, trusted band, attention marker, agent cursor, hold indicator, in this order.
Each changes a pixel by what it was and where it is (`Ink`). The strip, the card and the
two covers each have a generation, and their ink is given by it (`Pictures`): that the
generation moves whenever the picture does is an assumption on them. `TextureKey` is what
the texture was composed for, `redraw` the upload.

`windowStep` runs the window: commits with their damage, binding, changes of the overlays,
resizes, and redraws, which may take the zero-copy path and then leave the texture alone.
A commit's hint is assumed to cover what the commit changes (`Covered`).

`Current` says how far a texture can be behind: its content is that of the scene it was
uploaded for, or the damage pending on that scene covers where they differ. Every step
keeps it under three conditions (`Guarded`), and then every redraw shows the current state
(`window_shows_current`). None of the three can be left out (`window_shows_stale`).
-/

namespace Vitrin

open Lib

/-! ### Overlays -/

/-- What an overlay makes of a pixel, on an output of this geometry. -/
abbrev Ink := ViewGeometry → Nat → Nat → Pixel → Pixel

structure Pictures where
  status : Nat → Ink
  consent : Nat → Ink
  lock : Nat → Ink
  blank : Nat → Ink
  trustBand : Ink
  attentionMarker : Ink
  agentCursor : Int × Int → Ink

/-- The number of fill levels of the hold indicator in the key. -/
def holdSteps : Nat := 20

/-- `f64::clamp` to `[0, 1]`. -/
def clampUnit (progress : Rat) : Rat := max 0 (min progress 1)

def holdBucket (progress : Rat) : Nat := (clampUnit progress * holdSteps).floor.toNat

/-- The bar across the top while the dead-man chord is held. -/
def holdIndicator (progress : Rat) : Ink := fun g x y p =>
  if y < min 6 g.output.2 then
    if x < min (g.output.1 * clampUnit progress).floor.toNat g.output.1 then ⟨0xff, 0xb0, 0x20, 0xff⟩
    else ⟨0x2a, 0x1e, 0x00, 0xff⟩
  else p

/-- The pixel a pointer's tip is on, if it is on one. -/
def hotspot : Coord × Coord → Option (Int × Int)
  | (.finite x, .finite y) =>
    let quantize (q : Rat) : Int := saturate 31 (if 0 ≤ q then (q + 1 / 2).floor else -(-q + 1 / 2).floor)
    some (quantize x, quantize y)
  | _ => none

/-- What the core draws over the view. -/
structure Overlays where
  consent : Nat
  lock : Nat
  blank : Nat
  status : Nat
  /-- The human's attention window is open. -/
  attention : Bool
  hold : Option Rat
  agentCursor : Option (Coord × Coord)

def Overlays.hidden : Overlays := ⟨0, 0, 0, 0, false, none, none⟩

/-! ### The window -/

structure TextureKey where
  size : Nat × Nat
  realm : Option RealmId
  sceneGeneration : Nat
  consentGeneration : Nat
  lockGeneration : Nat
  holdBucket : Option Nat
  agentCursor : Option (Int × Int)
  attention : Bool
  statusGeneration : Nat
  blankGeneration : Nat
  deriving DecidableEq

def TextureKey.current (size : Nat × Nat) (realm : Option RealmId) (generation : Nat) (o : Overlays) : TextureKey where
  size := size
  realm := realm
  sceneGeneration := generation
  consentGeneration := o.consent
  lockGeneration := o.lock
  holdBucket := o.hold.map Vitrin.holdBucket
  agentCursor := o.agentCursor.bind hotspot
  attention := o.attention
  statusGeneration := o.status
  blankGeneration := o.blank

structure SceneTexture where
  key : TextureKey
  pixel : Picture

structure WindowView where
  scenes : RealmScenes
  size : Nat × Nat
  stripH : Nat
  overlays : Overlays
  texture : Option SceneTexture

def Pictures.paint (pics : Pictures) (o : Overlays) : Ink := fun g x y p =>
  let p := pics.status o.status g x y p
  let p := pics.consent o.consent g x y p
  let p := pics.lock o.lock g x y p
  let p := pics.blank o.blank g x y p
  let p := pics.trustBand g x y p
  let p := if o.attention then pics.attentionMarker g x y p else p
  let p := match o.agentCursor.bind hotspot with
    | some tip => pics.agentCursor tip g x y p
    | none => p
  match o.hold with
  | some progress => holdIndicator progress g x y p
  | none => p

def updateMemory (prev pixels : Picture) (rect : DamageRect) : Picture := fun x y =>
  if rect.Covers x y then pixels x y else prev x y

namespace WindowView

def new (size : Nat × Nat) (stripH : Nat) : WindowView := ⟨.new, size, stripH, .hidden, none⟩

def geometry (w : WindowView) : ViewGeometry := ⟨w.size, w.stripH⟩

/-- What the human should see (`window_pixels`). -/
def windowPixels (pics : Pictures) (w : WindowView) : Picture := fun x y =>
  pics.paint w.overlays w.geometry x y (w.scenes.boundScene.compose w.geometry x y)

def key (w : WindowView) : TextureKey :=
  .current w.size w.scenes.bound w.scenes.boundScene.generation w.overlays

/-- The scene changed since the texture was uploaded. -/
def sceneDirty (w : WindowView) : Bool :=
  w.texture.map (·.key.sceneGeneration) ≠ some w.key.sceneGeneration

def takeDamage (w : WindowView) : RealmScenes × Option DamageRect :=
  if w.sceneDirty then w.scenes.takeBoundDamage w.geometry else (w.scenes, none)

/-- The rectangle an upload is limited to, and the texture it goes into, if it is limited. -/
def boundedSceneOnlyDamage (w : WindowView) : Option (SceneTexture × DamageRect) := match w.texture, w.takeDamage.2 with
  | some prev, some rect =>
    if prev.key.size = w.key.size ∧ prev.key.realm = w.key.realm ∧
        prev.key.consentGeneration = w.key.consentGeneration ∧ prev.key.holdBucket = w.key.holdBucket ∧
        prev.key.agentCursor = w.key.agentCursor then some (prev, rect) else none
  | _, _ => none

def upload (pics : Pictures) (w : WindowView) : Option SceneTexture :=
  if w.texture.map (·.key) = some w.key then w.texture
  else match w.boundedSceneOnlyDamage with
    | some (prev, rect) =>
      if 0 < rect.width ∧ 0 < rect.height then some ⟨w.key, updateMemory prev.pixel (w.windowPixels pics) rect⟩
      else some ⟨w.key, prev.pixel⟩
    | none => some ⟨w.key, w.windowPixels pics⟩

/-- A redraw; a window without area is skipped, and the zero-copy path does not touch the texture. -/
def tryRedraw (pics : Pictures) (w : WindowView) (zeroCopy : Bool) : WindowView :=
  if w.size.1 = 0 ∨ w.size.2 = 0 ∨ zeroCopy then w
  else { w with scenes := w.takeDamage.1, texture := w.upload pics }

end WindowView

/-! ### The machine -/

inductive WindowOp where
  /-- A client's buffer is copied in, after these damage requests. -/
  | commit (realm : RealmId) (content : SurfaceContent) (damage : List DamageRect)
  | clear (realm : RealmId)
  | bind (realm : RealmId)
  | unbind
  | overlays (o : Overlays)
  | resize (size : Nat × Nat)
  | redraw (zeroCopy : Bool)

def commitHint (damage : List DamageRect) : Option DamageRect := damageHint (damage.foldl handleDamage [])

def windowStep (pics : Pictures) : Machine WindowView WindowOp Unit := fun w op => (match op with
  | .commit realm content damage =>
    { w with scenes := w.scenes.update realm (·.commitWithDamage content (commitHint damage)) }
  | .clear realm => { w with scenes := w.scenes.update realm Scene.clearSurface }
  | .bind realm => { w with scenes := w.scenes.bind realm }
  | .unbind => { w with scenes := w.scenes.unbind }
  | .overlays o => { w with overlays := o }
  | .resize size => { w with size }
  | .redraw zeroCopy => w.tryRedraw pics zeroCopy, ())

/-- The claim a commit's hint makes: it covers where the buffer differs from what the scene held. -/
def Covered (w : WindowView) : WindowOp → Prop
  | .commit realm content damage => ∀ r old, commitHint damage = some r → (w.scenes.scene realm).surface = some old →
      old.size = content.size → ∀ x y, x < content.width → y < content.height →
        old.pixel x y ≠ content.pixel x y → r.Covers x y
  | _ => True

/-- The fill of the hold indicator is given by its level. -/
def Overlays.Stepped (progressOf : Nat → Rat) (o : Overlays) : Prop :=
  ∀ progress, o.hold = some progress → progress = progressOf (holdBucket progress)

/-- What the code relies on beside: 31 bits span a hint's distance to the surface, the fill of the hold indicator is
given by its level, and a limited upload does not meet a change of the lock, the blank cover, the status strip or the
attention marker. -/
def Guarded (progressOf : Nat → Rat) (w : WindowView) : WindowOp → Prop
  | .commit _ content damage => ∀ r, commitHint damage = some r → r.Reaches content.size
  | .overlays o => o.Stepped progressOf
  | .redraw false => ∀ prev rect, w.boundedSceneOnlyDamage = some (prev, rect) →
      prev.key.lockGeneration = w.key.lockGeneration ∧ prev.key.blankGeneration = w.key.blankGeneration ∧
      prev.key.statusGeneration = w.key.statusGeneration ∧ prev.key.attention = w.key.attention
  | _ => True

/-! ### How far a texture is behind -/

def DamageRect.CoversChange (r : DamageRect) (old new : SurfaceContent) : Prop :=
  old.size = new.size ∧ ∀ x y, x < new.width → y < new.height → old.pixel x y ≠ new.pixel x y → r.Covers x y

/-- Two changes one after the other are covered by the box around both rectangles. -/
theorem DamageRect.CoversChange.trans {r r' : DamageRect} {a b c : SurfaceContent} (h : r.CoversChange a b)
    (h' : r'.CoversChange b c) (hr : r.Reaches c.size) (hr' : r'.Reaches c.size) : (r.union r').CoversChange a c := by
  obtain ⟨hs, hc⟩ := h
  obtain ⟨hs', hc'⟩ := h'
  refine ⟨hs.trans hs', ?_⟩
  intro x y hx hy hn
  have hw : b.width = c.width := congrArg Prod.fst hs'
  have hh : b.height = c.height := congrArg Prod.snd hs'
  refine DamageRect.union_covers hr hr' c.size_lt hx hy ?_
  by_cases ha : a.pixel x y = b.pixel x y
  · exact .inr (hc' x y hx hy (ha ▸ hn))
  · exact .inl (hc x y (hw ▸ hx) (hh ▸ hy) ha)

/-- The whole of a rectangle's change is covered by the box around it and another. -/
theorem DamageRect.CoversChange.widen {r r' : DamageRect} {a b : SurfaceContent} (h : r'.CoversChange a b)
    (hr : r.Reaches b.size) (hr' : r'.Reaches b.size) : (r.union r').CoversChange a b :=
  CoversChange.trans ⟨rfl, fun _ _ _ _ hn => absurd rfl hn⟩ h hr hr'

/-- A surface that was uploaded at a generation of a scene is the scene's still, or the pending damage covers where they
differ. -/
structure Scene.Follows (s : Scene) (generation : Nat) (uploaded : Option SurfaceContent) : Prop where
  le : generation ≤ s.generation
  same : generation = s.generation → s.surface = uploaded
  behind : generation < s.generation → s.pendingDamage = .unbounded ∨
    ∃ r old new, s.pendingDamage = .rect r ∧ uploaded = some old ∧ s.surface = some new ∧ r.CoversChange old new

/-- Pending damage is within reach of the surface. -/
def Scene.Reached (s : Scene) : Prop := ∀ r c, s.pendingDamage = .rect r → s.surface = some c → r.Reaches c.size

variable {gen : Nat}

namespace Scene

theorem Follows.refl (s : Scene) : s.Follows s.generation s.surface :=
  ⟨le_rfl, fun _ => rfl, fun h => absurd h (lt_irrefl _)⟩

variable {u : Option SurfaceContent}

theorem Follows.clear {s : Scene} (h : s.Follows gen u) : s.clearSurface.Follows gen u where
  le := Nat.le_succ_of_le h.le
  same := by
    intro he
    have hl := h.le
    simp only [clearSurface] at he
    omega
  behind _ := .inl rfl

/-- What a commit leaves pending: nothing bounds it, or it is the hint, or the box around the hint and what was. -/
theorem commitWithDamage_pending (s : Scene) (c : SurfaceContent) (hint : Option DamageRect) :
    (s.commitWithDamage c hint).pendingDamage = .unbounded ∨
    ∃ r o, hint = some r ∧ s.surface = some o ∧ o.size = c.size ∧
      ((s.pendingDamage = .clean ∧ (s.commitWithDamage c hint).pendingDamage = .rect r) ∨
        ∃ a, s.pendingDamage = .rect a ∧
          (s.commitWithDamage c hint).pendingDamage = .rect (a.union r)) := by
  simp only [commitWithDamage]
  split
  · rename_i hs
    obtain ⟨o, hold, hs⟩ := Option.map_eq_some_iff.1 hs
    cases hint with
    | none => cases s.pendingDamage <;> exact .inl rfl
    | some r =>
      cases hp : s.pendingDamage with
      | unbounded => exact .inl rfl
      | clean => exact .inr ⟨r, o, rfl, hold, hs, .inl ⟨rfl, rfl⟩⟩
      | rect a => exact .inr ⟨r, o, rfl, hold, hs, .inr ⟨a, rfl, rfl⟩⟩
  · exact .inl rfl

section Commit

variable {s : Scene} {co : SurfaceContent} {hint : Option DamageRect}
  (hreached : s.Reached) (hhint : ∀ r, hint = some r → r.Reaches co.size)

include hreached hhint

theorem Reached.commit : (s.commitWithDamage co hint).Reached := by
  intro r' c hre hsu
  cases hsu
  obtain hp | ⟨r, o, hr, hold, hs, ⟨-, hp⟩ | ⟨a, ha, hp⟩⟩ := s.commitWithDamage_pending co hint <;>
    rw [hp] at hre <;> cases hre
  · exact hhint _ hr
  · exact .union (hs ▸ hreached a o ha hold) (hhint r hr)

theorem Follows.commit (h : s.Follows gen u)
    (hco : ∀ r o, hint = some r → s.surface = some o → o.size = co.size → r.CoversChange o co) :
    (s.commitWithDamage co hint).Follows gen u where
  le := Nat.le_succ_of_le h.le
  same := by
    intro he
    have hle := h.le
    simp only [commitWithDamage] at he
    omega
  behind := by
    intro _
    obtain hp | ⟨r, o, hr, hold, hs, hp⟩ := s.commitWithDamage_pending co hint
    · exact .inl hp
    · have hc := hco r o hr hold hs
      -- The texture holds what the scene held before this commit, or is behind that.
      obtain he | hl := h.le.eq_or_lt
      · have hu : u = some o := (h.same he).symm.trans hold
        obtain ⟨-, hp⟩ | ⟨a, ha, hp⟩ := hp
        · exact .inr ⟨r, o, co, hp, hu, rfl, hc⟩
        · exact .inr ⟨a.union r, o, co, hp, hu, rfl, hc.widen (hs ▸ hreached a o ha hold) (hhint r hr)⟩
      · obtain hun | ⟨a, f, m, ha, hu, hm, hb⟩ := h.behind hl
        · grind
        · obtain rfl : m = o := Option.some.inj (hm.symm.trans hold)
          obtain ⟨hcl, -⟩ | ⟨a', ha', hp⟩ := hp
          · grind
          · obtain rfl : a' = a := by grind
            exact .inr ⟨a'.union r, f, co, hp, hu, rfl, hb.trans hc (hs ▸ hreached a' m ha hold) (hhint r hr)⟩

end Commit

end Scene

/-! ### The scenes under the steps -/

variable {re : DamageRect}

namespace RealmScenes

variable {s s' : RealmScenes}

section

variable (s : RealmScenes)

theorem scene_update (r : RealmId) (f : Scene → Scene) (r' : RealmId) :
    (s.update r f).scene r' = if r' = r then f (s.scene r) else s.scene r' := by
  simp only [scene, update, OrdMap.get?_insert]
  split <;> rfl

theorem scene_bind (r r' : RealmId) : (s.bind r).scene r' = s.scene r' := by
  simp only [bind]
  split
  · rfl
  · have h := s.scene_update r id r'
    split at h
    · rename_i he
      exact h.trans (by rw [he]; rfl)
    · exact h

theorem vacant_bind (r : RealmId) : (s.bind r).vacant = s.vacant := by
  simp only [bind]
  split <;> rfl

end

/-- What holds between the scenes of every realm holds between those an output shows. -/
theorem shown_rel {R : Scene → Scene → Prop} (hv : s.vacant = .new) (hv' : s'.vacant = .new) (hn : R .new .new)
    (h : ∀ r, R (s.scene r) (s'.scene r)) (b : Option RealmId) : R (s.shown b) (s'.shown b) := by
  cases b with
  | none =>
    simp only [shown, hv, hv']
    exact hn
  | some r =>
    simp only [shown, hv, hv']
    exact h r

theorem takeBoundDamage_scene (s : RealmScenes) (g : ViewGeometry) (r : RealmId) :
    (s.takeBoundDamage g).1.scene r = s.scene r ∨
    (s.takeBoundDamage g).1.scene r = { s.scene r with pendingDamage := .clean } := by
  simp only [takeBoundDamage]
  split
  · exact .inl rfl
  · rename_i b _
    split
    · exact .inl rfl
    · rename_i sc hg
      simp only [scene, OrdMap.get?_insert]
      split
      · rename_i he
        exact .inr (by rw [he, hg]; rfl)
      · exact .inl rfl

theorem takeBoundDamage_frame (s : RealmScenes) (g : ViewGeometry) :
    (s.takeBoundDamage g).1.bound = s.bound ∧ (s.takeBoundDamage g).1.vacant = s.vacant := by
  simp only [takeBoundDamage]
  split
  · exact ⟨rfl, rfl⟩
  · split <;> exact ⟨rfl, rfl⟩

theorem takeBoundDamage_some {g : ViewGeometry} (h : (s.takeBoundDamage g).2 = some re) :
    ∃ r c, s.boundScene.pendingDamage = .rect r ∧ s.boundScene.surface = some c ∧ re = Scene.onView r c.size g := by
  simp only [takeBoundDamage] at h
  split at h
  · cases h
  · rename_i b hb
    split at h
    · cases h
    · rename_i sc hg
      have hs : s.boundScene = sc := by
        simp [boundScene, shown, hb, hg]
      rw [hs]
      simp only [Scene.takeDamageView] at h
      split at h
      · rename_i r c hp hsu
        exact ⟨r, c, hp, hsu, (Option.some.inj h).symm⟩
      · cases h

end RealmScenes

/-! ### The invariant -/

theorem Pictures.paint_eq {pic : Pictures} {pr : Nat → Rat} {o o' : Overlays} (h : o.Stepped pr)
    (h' : o'.Stepped pr) {si si' : Nat × Nat} {r r' : Option RealmId} {g' : Nat}
    (hk : TextureKey.current si r gen o = TextureKey.current si' r' g' o') : pic.paint o = pic.paint o' := by
  simp only [TextureKey.current, TextureKey.mk.injEq] at hk
  obtain ⟨-, -, -, hc, hl, hb, ht, ha, hs, hbl⟩ := hk
  have hh : o.hold = o'.hold := by
    cases hp : o.hold with
    | none => exact (Option.map_eq_none_iff.1 (hb.symm.trans (by rw [hp]; rfl))).symm
    | some p =>
      rw [hp] at hb
      obtain ⟨p', hp', hb⟩ := Option.map_eq_some_iff.1 hb.symm
      rw [hp', h p hp, h' p' hp', hb]
  funext g x y p
  simp [paint, hc, hl, ht, ha, hs, hbl, hh]

namespace WindowView

/-- The texture shows these overlays over this surface, and its key says so. -/
structure Shows (pics : Pictures) (stripH : Nat) (t : SceneTexture) (drawn : Overlays)
    (uploaded : Option SurfaceContent) : Prop where
  key : t.key = .current t.key.size t.key.realm t.key.sceneGeneration drawn
  pixel : ∀ x y, x < t.key.size.1 → y < t.key.size.2 → t.pixel x y =
    pics.paint drawn ⟨t.key.size, stripH⟩ x y (Scene.composeSurface uploaded ⟨t.key.size, stripH⟩ x y)

/-- The window's texture shows what its key says, over a surface that the realm's scene follows. -/
structure Current (pics : Pictures) (progressOf : Nat → Rat) (w : WindowView) : Prop where
  vacant : w.scenes.vacant = .new
  reached : ∀ realm, (w.scenes.scene realm).Reached
  stepped : w.overlays.Stepped progressOf
  texture : ∀ t, w.texture = some t → ∃ drawn uploaded, drawn.Stepped progressOf ∧
    Shows pics w.stripH t drawn uploaded ∧ (w.scenes.shown t.key.realm).Follows t.key.sceneGeneration uploaded

variable {pi : Pictures} {po : Nat → Rat} {w : WindowView}

theorem current_new (pi : Pictures) (po : Nat → Rat) (si : Nat × Nat) (sh : Nat) : (new si sh).Current pi po where
  vacant := rfl
  reached := by
    intro re r c hr
    cases hr
  stepped := by
    intro p h
    cases h
  texture := by
    intro t h
    cases h

theorem Current.scenes (h : w.Current pi po) {scenes : RealmScenes}
    (hv : scenes.vacant = w.scenes.vacant)
    (hreached : ∀ realm, (scenes.scene realm).Reached)
    (hfo : ∀ realm gen uploaded, (w.scenes.scene realm).Follows gen uploaded →
      (scenes.scene realm).Follows gen uploaded) :
    ({ w with scenes } : WindowView).Current pi po where
  vacant := hv.trans h.vacant
  reached := hreached
  stepped := h.stepped
  texture := by
    intro t ht
    obtain ⟨drawn, uploaded, hst, hs, hf⟩ := h.texture t ht
    refine ⟨drawn, uploaded, hst, hs, ?_⟩
    exact RealmScenes.shown_rel (R := fun s s' => s.Follows _ _ → s'.Follows _ _) h.vacant (hv.trans h.vacant)
      id (fun realm => hfo realm _ _) _ hf

theorem Current.update (h : w.Current pi po) {realm : RealmId} {f : Scene → Scene}
    (hreached : (f (w.scenes.scene realm)).Reached)
    (hfo : ∀ gen uploaded, (w.scenes.scene realm).Follows gen uploaded →
      (f (w.scenes.scene realm)).Follows gen uploaded) :
    ({ w with scenes := w.scenes.update realm f } : WindowView).Current pi po := by
  refine h.scenes (show (w.scenes.update realm f).vacant = _ from rfl) ?_ ?_
  · intro realm'
    rw [RealmScenes.scene_update]
    split
    · exact hreached
    · exact h.reached realm'
  · intro realm' gen uploaded hf
    rw [RealmScenes.scene_update]
    split
    · rename_i he
      exact hfo gen uploaded (he ▸ hf)
    · exact hf

/-! ### A redraw -/

variable {p : SceneTexture}

/-- A limited upload: the texture is for the same window, realm and three of the overlays, and the rectangle is the
scene's damage. -/
theorem boundedSceneOnlyDamage_some (h : w.boundedSceneOnlyDamage = some (p, re)) :
    w.texture = some p ∧ w.sceneDirty = true ∧ (w.scenes.takeBoundDamage w.geometry).2 = some re ∧
      p.key.size = w.key.size ∧ p.key.realm = w.key.realm ∧
      p.key.consentGeneration = w.key.consentGeneration ∧ p.key.holdBucket = w.key.holdBucket ∧
      p.key.agentCursor = w.key.agentCursor := by
  simp only [boundedSceneOnlyDamage] at h
  split at h
  · rename_i p' r' ht hd
    split at h
    · rename_i hs
      cases h
      simp only [takeDamage] at hd
      split at hd
      · rename_i hdi
        exact ⟨ht, hdi, hd, hs⟩
      · cases hd
    · cases h
  · cases h

variable (h : w.Current pi po)

include h

/-- A texture whose key is right, but perhaps for the scene's generation, shows the current overlays over the surface it
was uploaded with. -/
theorem Current.pixel_eq {t : SceneTexture} (ht : w.texture = some t)
    (hk : { t.key with sceneGeneration := w.key.sceneGeneration } = w.key) :
    ∃ up, w.scenes.boundScene.Follows t.key.sceneGeneration up ∧ ∀ x y, x < w.size.1 → y < w.size.2 → t.pixel x y =
        pi.paint w.overlays w.geometry x y (Scene.composeSurface up w.geometry x y) := by
  obtain ⟨d, up, hst, hsh, hf⟩ := h.texture t ht
  have hs : t.key.size = w.size := congrArg TextureKey.size hk
  have hr : t.key.realm = w.scenes.bound := congrArg TextureKey.realm hk
  have hp : pi.paint d = pi.paint w.overlays := by
    have hd : .current t.key.size t.key.realm w.key.sceneGeneration d = w.key :=
      (congrArg (fun k => { k with sceneGeneration := w.key.sceneGeneration }) hsh.key).symm.trans hk
    exact Pictures.paint_eq hst h.stepped hd
  rw [hr] at hf
  refine ⟨up, hf, ?_⟩
  intro x y hx hy
  have hpi := hsh.pixel x y (hs ▸ hx) (hs ▸ hy)
  rwa [hp, hs] at hpi

section

variable (hg : Guarded po w (.redraw false))

include hg

/-- Where a limited upload does not reach, the texture is right still. -/
theorem Current.unchanged
    (hl : w.boundedSceneOnlyDamage = some (p, re)) {x y : Nat} (hx : x < w.size.1) (hy : y < w.size.2)
    (hou : ¬ re.Covers x y) : p.pixel x y = w.windowPixels pi x y := by
  obtain ⟨ht, hd, hda, hsi, hr, hc, hbu, hti⟩ := boundedSceneOnlyDamage_some hl
  obtain ⟨hlo, hb, hst, ha⟩ := hg p re hl
  obtain ⟨r, c, hp, hs, rfl⟩ := RealmScenes.takeBoundDamage_some hda
  obtain ⟨up, hf, hpi⟩ := h.pixel_eq ht
    (by simp only [hsi, hr, hc, hbu, hti, hlo, hb, hst, ha])
  -- The texture is behind the scene, and the damage that is pending covers the change.
  have hlt : p.key.sceneGeneration < w.scenes.boundScene.generation := by
    refine lt_of_le_of_ne hf.le ?_
    intro he
    simp only [sceneDirty, ht, decide_eq_true_eq] at hd
    exact hd (congrArg some he)
  obtain hu | ⟨r', o, n, hre, rfl, hnew, hsa, hco⟩ := hf.behind hlt
  · rw [hu] at hp
    cases hp
  · obtain rfl : r' = r := PendingDamage.rect.inj (hre.symm.trans hp)
    obtain rfl : n = c := Option.some.inj (hnew.symm.trans hs)
    have hv : Scene.composeSurface (some o) w.geometry x y = Scene.composeSurface (some n) w.geometry x y := by
      by_contra hn
      exact hou (Scene.compose_of_damage hsa hco hx hy hn)
    rw [hpi x y hx hy, hv, windowPixels, Scene.compose, hs]

theorem Current.upload : ∃ t, w.upload pi = some t ∧ t.key = w.key ∧
      ∀ x y, x < w.size.1 → y < w.size.2 → t.pixel x y = w.windowPixels pi x y := by
  simp only [WindowView.upload]
  split
  · -- The key is the texture's: nothing changed since it was uploaded.
    rename_i hk
    obtain ⟨t, ht, hk⟩ := Option.map_eq_some_iff.1 hk
    obtain ⟨up, hf, hp⟩ := h.pixel_eq ht (by rw [← hk])
    have hs : w.scenes.boundScene.surface = up := hf.same (congrArg TextureKey.sceneGeneration hk)
    refine ⟨t, ht, hk, ?_⟩
    intro x y hx hy
    rw [hp x y hx hy, windowPixels, Scene.compose, hs]
  · split
    · rename_i p re hl
      split
      · refine ⟨_, rfl, rfl, ?_⟩
        intro x y hx hy
        simp only [updateMemory]
        split
        · rfl
        · rename_i hou
          exact h.unchanged hg hl hx hy hou
      · -- The damage is off the view, so no point is covered.
        refine ⟨_, rfl, rfl, ?_⟩
        intro x y hx hy
        refine h.unchanged hg hl hx hy ?_
        simp only [DamageRect.Covers]
        omega
    · exact ⟨_, rfl, rfl, fun _ _ _ _ => rfl⟩

omit hg in
omit h in
theorem takeDamage_scene (w : WindowView) (r : RealmId) : w.takeDamage.1.scene r = w.scenes.scene r ∨
    w.takeDamage.1.scene r = { w.scenes.scene r with pendingDamage := .clean } := by
  simp only [takeDamage]
  split
  · exact w.scenes.takeBoundDamage_scene w.geometry r
  · exact .inl rfl

omit hg in
omit h in
theorem takeDamage_frame : w.takeDamage.1.bound = w.scenes.bound ∧ w.takeDamage.1.vacant = w.scenes.vacant := by
  simp only [takeDamage]
  split
  · exact w.scenes.takeBoundDamage_frame w.geometry
  · exact ⟨rfl, rfl⟩

/-- **A redraw keeps the invariant.** -/
theorem Current.redraw : ({ w with scenes := w.takeDamage.1, texture := w.upload pi } : WindowView).Current pi po where
  vacant := w.takeDamage_frame.2.trans h.vacant
  reached := by
    intro re
    obtain hs | hs := w.takeDamage_scene re
    · exact hs ▸ h.reached re
    · rw [hs]
      intro r c hc
      cases hc
  stepped := h.stepped
  texture := by
    intro t ht
    obtain ⟨t', ht', hk, hp⟩ := h.upload hg
    cases ht'.symm.trans ht
    refine ⟨w.overlays, w.scenes.boundScene.surface, h.stepped, ⟨?_, ?_⟩, ?_⟩
    · rw [hk]
      rfl
    · rw [hk]
      exact hp
    · rw [hk]
      -- Only the pending damage of the scene differs, and the texture is not behind.
      exact RealmScenes.shown_rel (R := fun s s' => s'.Follows s.generation s.surface) h.vacant
        (w.takeDamage_frame.2.trans h.vacant) (.refl _)
        (fun re => by obtain hs | hs := w.takeDamage_scene re <;> rw [hs] <;> exact .refl _) _

end

theorem Current.step {op : WindowOp} (hco : Covered w op)
    (hg : Guarded po w op) : (windowStep pi w op).1.Current pi po := by
  cases op with
  | commit realm content damage =>
    refine h.update (Scene.Reached.commit (h.reached realm) hg) ?_
    intro gen uploaded hf
    refine hf.commit (h.reached realm) hg ?_
    intro r old hr hold hs
    exact ⟨hs, hco r old hr hold hs⟩
  | clear realm =>
    refine h.update ?_ (fun _ _ hf => hf.clear)
    intro r c hu
    cases hu
  | bind realm =>
    refine h.scenes (w.scenes.vacant_bind realm) ?_ ?_
    · intro realm'
      exact (w.scenes.scene_bind realm realm') ▸ h.reached realm'
    · intro realm' gen uploaded hf
      exact (w.scenes.scene_bind realm realm') ▸ hf
  | unbind => exact h.scenes rfl h.reached (fun _ _ _ hf => hf)
  | overlays o => exact ⟨h.vacant, h.reached, hg, h.texture⟩
  | resize size => exact ⟨h.vacant, h.reached, h.stepped, h.texture⟩
  | redraw zeroCopy =>
    simp only [windowStep, tryRedraw]
    split
    · exact h
    · rename_i hc
      obtain rfl : zeroCopy = false := by
        simp only [not_or, Bool.not_eq_true] at hc
        exact hc.2.2
      exact h.redraw hg

end WindowView

/-- **The window shows the current state.** Over every run in which every hint covers what it changes and `Guarded`
holds of every step, a redraw on the CPU path leaves a texture for the state at that redraw, equal to its picture pixel
for pixel. -/
theorem window_shows_current (pics : Pictures) (progressOf : Nat → Rat) (size : Nat × Nat) (stripH : Nat)
    (ops : List WindowOp)
    (hcovered : (windowStep pics).Along Covered (.new size stripH) (ops ++ [.redraw false]))
    (hguarded : (windowStep pics).Along (Guarded progressOf) (.new size stripH) (ops ++ [.redraw false])) :
    let w := (windowStep pics).exec (.new size stripH) ops
    0 < w.size.1 → 0 < w.size.2 → ∃ t, (windowStep pics w (.redraw false)).1.texture = some t ∧ t.key = w.key ∧
      ∀ x y, x < w.size.1 → y < w.size.2 → t.pixel x y = w.windowPixels pics x y := by
  intro w hw hh
  rw [Machine.along_append] at hcovered hguarded
  have hc : w.Current pics progressOf :=
    Machine.exec_along (fun _ _ hs h => h.step hs.1 hs.2) (WindowView.current_new pics progressOf size stripH)
      (hcovered.1.and hguarded.1)
  obtain ⟨t, ht, hk, hp⟩ := hc.upload hguarded.2.1
  refine ⟨t, ?_, hk, hp⟩
  simp only [windowStep, WindowView.tryRedraw]
  rw [if_neg (by simp only [Bool.false_eq_true, or_false]; omega)]
  exact ht

/-! ### Where it does not -/

namespace Sample

/-- A lock that blackens the output when its generation has moved; nothing else draws. -/
def pictures : Pictures where
  status _ _ _ _ p := p
  consent _ _ _ _ p := p
  lock n _ _ _ p := if n = 0 then p else ⟨0, 0, 0, 0xff⟩
  blank _ _ _ _ p := p
  trustBand _ _ _ p := p
  attentionMarker _ _ _ p := p
  agentCursor _ _ _ _ p := p

def plain (colour : Pixel) : SurfaceContent := ⟨2, 2, fun _ _ => colour, by decide, by decide⟩

def red : Pixel := ⟨0xff, 0, 0, 0xff⟩

def green : Pixel := ⟨0, 0xff, 0, 0xff⟩

def shownRed (realm : RealmId) : List WindowOp := [.commit realm (plain red) [], .bind realm, .redraw false]

/-- The lock is raised as the client repaints a corner. -/
def locked (realm : RealmId) : List WindowOp :=
  shownRed realm ++ [.overlays { Overlays.hidden with lock := 1 }, .commit realm (plain red) [⟨0, 0, 1, 1⟩]]

/-- The client damages a place far to the left, then repaints. -/
def repainted (realm : RealmId) : List WindowOp :=
  shownRed realm ++
    [.commit realm (plain red) [⟨-2 ^ 31, 0, 2 ^ 31 - 1, 2⟩], .commit realm (plain green) [⟨0, 0, 2, 2⟩]]

def held : List WindowOp :=
  [.overlays { Overlays.hidden with hold := some (51 / 100) }, .redraw false,
    .overlays { Overlays.hidden with hold := some (54 / 100) }]

def editor : RealmId := ⟨"editor"⟩

theorem covered_unhinted (w : WindowView) (re : RealmId) (c : SurfaceContent) : Covered w (.commit re c []) := by
  intro r o hr
  cases hr

theorem covered_whole {w : WindowView} {re : RealmId} {c : Pixel} :
    Covered w (.commit re (plain c) [⟨0, 0, 2, 2⟩]) := by
  intro r o hr hold hs x y hx hy hn
  obtain rfl : ⟨0, 0, 2, 2⟩ = r := Option.some.inj hr
  simp only [plain] at hx hy
  simp only [DamageRect.Covers]
  omega

end Sample

open Sample in
/-- None of the three conditions can be left out. With hints that cover every change, the pixel a redraw leaves can be
another than the current one: the application's while the session is locked, the old buffer's after a repaint, and the
track's where the hold indicator is filled. -/
theorem window_shows_stale : let M := windowStep pictures
    let start := WindowView.new (100, 20) 0
    let stale (ops : List WindowOp) (x y : Nat) (old new : Pixel) : Prop :=
      M.Along Covered start (ops ++ [.redraw false]) ∧
      (M (M.exec start ops) (.redraw false)).1.texture.map (·.pixel x y) = some old ∧
      (M.exec start ops).windowPixels pictures x y = new
    stale (locked editor) 50 14 red ⟨0, 0, 0, 0xff⟩ ∧
    stale (repainted editor) 50 14 red green ∧
    stale held 52 0 ⟨0x2a, 0x1e, 0x00, 0xff⟩ ⟨0xff, 0xb0, 0x20, 0xff⟩ := by
  intro M start stale
  have hf := covered_unhinted start editor (plain red)
  refine ⟨⟨?_, by decide +kernel, by decide +kernel⟩, ⟨?_, by decide +kernel, by decide +kernel⟩,
    ⟨?_, by decide +kernel, by decide +kernel⟩⟩
  · refine ⟨hf, trivial, trivial, trivial, ?_, trivial, trivial⟩
    -- The repaint changes nothing.
    intro r old hr hold hs x y hx hy hn
    cases hold
    exact absurd rfl hn
  · refine ⟨hf, trivial, trivial, ?_, covered_whole, trivial, trivial⟩
    intro r old hr hold hs x y hx hy hn
    cases hold
    exact absurd rfl hn
  · exact ⟨trivial, trivial, trivial, trivial, trivial⟩

open Sample in
/-- A repaint of a part. -/
theorem window_shows_current_repainted : let M := windowStep pictures
    let w := M.exec (.new (100, 20) 0) (shownRed editor ++ [.commit editor (plain green) [⟨0, 0, 2, 2⟩]])
    w.boundedSceneOnlyDamage.map (·.2) = some ⟨49, 13, 2, 2⟩ ∧
    ∃ t, (M w (.redraw false)).1.texture = some t ∧ t.key = w.key ∧
      ∀ x y, x < 100 → y < 20 → t.pixel x y = w.windowPixels pictures x y := by
  refine ⟨by decide +kernel, ?_⟩
  refine window_shows_current pictures (fun n => n / 20) (100, 20) 0 _ ?_ ?_ (by decide) (by decide)
  · exact ⟨covered_unhinted _ _ _, trivial, trivial, covered_whole, trivial, trivial⟩
  · refine ⟨?_, trivial, ?_, ?_, ?_, trivial⟩
    · intro r hr
      cases hr
    · intro pr re hl
      cases hl
    · intro r hr
      cases hr
      exact by decide
    · intro pr re hl
      obtain ⟨ht, -⟩ := WindowView.boundedSceneOnlyDamage_some hl
      cases ht
      exact ⟨rfl, rfl, rfl, rfl⟩

end Vitrin
