import Vitrin.Lib.Machine
import Vitrin.Scene.Scene

/-!
# Captures

An agent's capture is served from a cache that is refreshed after a redraw. A realm is composed
anew only if its scene's generation or the output's size is not the one its entry was made
under.

`CaptureState` has the scenes, the realms with a shim and the cache; the height of the status
strip is the session's. `refreshOne` is one turn of the loop of `refresh_view_cache`. A
backend that reads its own framebuffer back may fail to (`reads`).

An entry made under a scene's present generation is the composition of that scene
(`Faithful`), so after a refresh the cache is what composing every realm would give, and it
stays that until the next one (`captures_current`).
-/

namespace Vitrin

open Lib Machine
open Option (map_some isSome_map)

/-- All that a composed view depends on. -/
structure ViewKey where
  generation : Nat
  size : Nat × Nat
  deriving DecidableEq

structure CachedView where
  key : ViewKey
  rgba : Picture

structure CaptureState where
  scenes : RealmScenes
  /-- The realms whose shim is connected. -/
  live : List RealmId
  size : Nat × Nat
  viewCache : OrdMap RealmId CachedView

namespace CaptureState

variable (stripH : Nat)

def viewKey (c : CaptureState) (realm : RealmId) : Option ViewKey :=
  (c.scenes.scenes.get? realm).map fun scene => ⟨scene.generation, c.size⟩

/-- A realm's composition, unless there is no scene, no view or no reading it back. -/
def viewRgba (c : CaptureState) (reads : RealmId → Bool) (realm : RealmId) : Option Picture :=
  if c.size.1 = 0 ∨ c.size.2 = 0 ∨ reads realm = false then none
  else (c.scenes.scenes.get? realm).map (·.compose ⟨c.size, stripH⟩)

/-- Compose a realm, if its entry is not of the present scene and size. -/
def refreshOne (c : CaptureState) (reads : RealmId → Bool) (cache : OrdMap RealmId CachedView) (realm : RealmId) :
    OrdMap RealmId CachedView :=
  if (c.viewKey realm).isSome ∧ (cache.get? realm).map (·.key) = c.viewKey realm then cache
  else match c.viewRgba stripH reads realm, c.viewKey realm with
    | some rgba, some key => cache.insert realm ⟨key, rgba⟩
    | _, _ => cache.erase realm

def refreshViewCache (c : CaptureState) (reads : RealmId → Bool) : CaptureState :=
  { c with viewCache := c.live.foldl (c.refreshOne stripH reads) (c.viewCache.filter fun realm _ => realm ∈ c.live) }

def new (size : Nat × Nat) : CaptureState := ⟨.new, [], size, .empty⟩

end CaptureState

inductive CaptureOp where
  | commit (realm : RealmId) (content : SurfaceContent) (damage : Option DamageRect)
  | clearSurface (realm : RealmId)
  | bind (realm : RealmId)
  | unbind
  | takeBoundDamage (g : ViewGeometry)
  | launch (realm : RealmId)
  | die (realm : RealmId)
  | resize (size : Nat × Nat)
  | refresh (reads : RealmId → Bool)

/-- One step of the session, as far as captures go. -/
def captureStep (stripH : Nat) : Machine CaptureState CaptureOp Unit := fun c op => (match op with
  | .commit realm content damage => { c with scenes := c.scenes.update realm (·.commitWithDamage content damage) }
  | .clearSurface realm => { c with scenes := c.scenes.update realm (·.clearSurface) }
  | .bind realm => { c with scenes := c.scenes.bind realm }
  | .unbind => { c with scenes := c.scenes.unbind }
  | .takeBoundDamage g => { c with scenes := (c.scenes.takeBoundDamage g).1 }
  | .launch realm => { c with live := realm :: c.live }
  | .die realm => { c with live := c.live.filter (· ≠ realm) }
  | .resize size => { c with size }
  | .refresh reads => c.refreshViewCache stripH reads, ())

namespace CaptureState

variable {sh : Nat} {c : CaptureState} {re : RealmId → Bool}

/-- An entry is of a view, and of this scene or of one it replaced; if it is of this one, it is its composition. -/
def EntryFaithful (stripH : Nat) (c : CaptureState) (realm : RealmId) (e : CachedView) : Prop :=
  ¬ (e.key.size.1 = 0 ∨ e.key.size.2 = 0) ∧ ∃ scene, c.scenes.scenes.get? realm = some scene ∧
    e.key.generation ≤ scene.generation ∧ (e.key.generation = scene.generation → e.rgba = scene.compose ⟨e.key.size,
      stripH⟩)

def Faithful (stripH : Nat) (c : CaptureState) : Prop :=
  ∀ realm e, c.viewCache.get? realm = some e → EntryFaithful stripH c realm e

/-- What of the scenes is in a composition: an operation keeps a realm's or moves its generation. -/
theorem Faithful.of_scenes (h : Faithful sh c) {scenes : RealmScenes}
    (hsce : ∀ realm scene, c.scenes.scenes.get? realm = some scene →
      ∃ scene', scenes.scenes.get? realm = some scene' ∧ (scene.generation < scene'.generation ∨
        scene'.generation = scene.generation ∧ scene'.surface = scene.surface)) :
    Faithful sh { c with scenes } := by
  intro realm e he
  obtain ⟨hv, scene, hsc, hl, hs⟩ := h realm e he
  refine ⟨hv, ?_⟩
  obtain ⟨scene', hs', hlt | ⟨hg, hsu⟩⟩ := hsce realm scene hsc
  · exact ⟨scene', hs', hl.trans hlt.le, fun heq => absurd heq (hl.trans_lt hlt).ne⟩
  · refine ⟨scene', hs', hg ▸ hl, fun heq => ?_⟩
    rw [hs (heq.trans hg), Scene.compose, Scene.compose, hsu]

theorem scenes_update {s : RealmScenes} {r : RealmId} {f : Scene → Scene}
    (hf : ∀ sc, sc.generation < (f sc).generation ∨ (f sc).generation = sc.generation ∧ (f sc).surface = sc.surface)
    (r' : RealmId) (sc : Scene) (hs : s.scenes.get? r' = some sc) :
    ∃ s', (s.update r f).scenes.get? r' = some s' ∧ (sc.generation < s'.generation ∨
        s'.generation = sc.generation ∧ s'.surface = sc.surface) := by
  simp only [RealmScenes.update, OrdMap.get?_insert]
  by_cases he : r' = r
  · subst he
    rw [if_pos rfl]
    refine ⟨_, rfl, ?_⟩
    rw [RealmScenes.scene, hs]
    exact hf sc
  · rw [if_neg he]
    exact ⟨sc, hs, .inr ⟨rfl, rfl⟩⟩

theorem refreshOne_get? (sh : Nat) (c : CaptureState) (re : RealmId → Bool)
    (ca : OrdMap RealmId CachedView) (r r' : RealmId) :
    (c.refreshOne sh re ca r).get? r' = ca.get? r' ∧
        (r' = r → (c.viewKey r).isSome ∧ (ca.get? r).map (·.key) = c.viewKey r) ∨
      r' = r ∧ (c.refreshOne sh re ca r).get? r' =
        (c.viewRgba sh re r).bind fun rg => (c.viewKey r).map (⟨·, rg⟩) := by
  unfold refreshOne
  split_ifs with hk
  · exact .inl ⟨rfl, fun _ => hk⟩
  · by_cases he : r' = r
    · subst he
      cases c.viewRgba sh re r' <;> cases c.viewKey r' <;> simp
    · refine .inl ⟨?_, fun h => absurd h he⟩
      split
      · exact OrdMap.get?_insert_of_ne he
      · exact OrdMap.get?_erase_of_ne he

/-- An entry that needs no composing: it is of the present scene and size, and there is one if there can be. -/
def Fresh (stripH : Nat) (c : CaptureState) (reads : RealmId → Bool) (realm : RealmId) (o : Option CachedView) : Prop :=
  (∀ e, o = some e → c.viewKey realm = some e.key) ∧ ((c.viewRgba stripH reads realm).isSome → o.isSome)

theorem refreshOne_fresh (ca : OrdMap RealmId CachedView) (r : RealmId) :
    Fresh sh c re r ((c.refreshOne sh re ca r).get? r) := by
  obtain ⟨hg, hk⟩ | ⟨-, hg⟩ := refreshOne_get? sh c re ca r r <;> rw [hg]
  · obtain ⟨hso, hk⟩ := hk rfl
    refine ⟨fun e he => ?_, fun _ => ?_⟩
    · rw [← hk, he, map_some]
    · rwa [← hk, isSome_map] at hso
  · refine ⟨fun e he => ?_, fun hr => ?_⟩
    · simp only [Option.bind_eq_some_iff, Option.map_eq_some_iff] at he
      obtain ⟨rg, -, k, hk, rfl⟩ := he
      exact hk
    · obtain ⟨rg, hr⟩ := Option.isSome_iff_exists.mp hr
      have hs : (c.scenes.scenes.get? r).isSome := by
        unfold viewRgba at hr
        split_ifs at hr
        obtain ⟨s, hs, -⟩ := Option.map_eq_some_iff.mp hr
        rw [hs, Option.isSome_some]
      rw [hr, Option.bind_some, isSome_map, viewKey, isSome_map]
      exact hs

variable {ca : OrdMap RealmId CachedView}

theorem refreshOne_faithful (h : ∀ r e, ca.get? r = some e → EntryFaithful sh c r e) (r : RealmId) :
    ∀ r' e, (c.refreshOne sh re ca r).get? r' = some e → EntryFaithful sh c r' e := by
  intro r' e he
  obtain ⟨hg, -⟩ | ⟨rfl, hg⟩ := refreshOne_get? sh c re ca r r' <;> rw [hg] at he
  · exact h r' e he
  · simp only [Option.bind_eq_some_iff, Option.map_eq_some_iff, viewRgba, viewKey] at he
    obtain ⟨rg, hr, k, ⟨s, hs, rfl⟩, rfl⟩ := he
    split_ifs at hr with hv
    rw [hs] at hr
    exact ⟨fun h => hv (h.imp_right .inl), s, hs, le_rfl, fun _ => (Option.some.inj hr).symm⟩

/-- The loop: what is listed is fresh afterwards, what is not is left, and nothing is made up. -/
theorem foldl_refreshOne (re : RealmId → Bool) (l : List RealmId)
    (h : ∀ r e, ca.get? r = some e → EntryFaithful sh c r e) :
    (∀ r e, (l.foldl (c.refreshOne sh re) ca).get? r = some e → EntryFaithful sh c r e) ∧
      ∀ r, (r ∈ l ∨ Fresh sh c re r (ca.get? r) → Fresh sh c re r ((l.foldl (c.refreshOne sh re) ca).get? r)) ∧
        (r ∉ l → (l.foldl (c.refreshOne sh re) ca).get? r = ca.get? r) := by
  induction l generalizing ca with
  | nil => exact ⟨h, fun r => ⟨by simp, fun _ => rfl⟩⟩
  | cons a l ih =>
    obtain ⟨hfa, hf⟩ := ih (c.refreshOne_faithful h a)
    refine ⟨hfa, fun r => ⟨fun hr => (hf r).1 ?_, fun hr => ?_⟩⟩
    · by_cases ha : r = a
      · subst ha
        exact .inr (c.refreshOne_fresh ca r)
      · obtain ⟨hg, -⟩ | ⟨he, -⟩ := refreshOne_get? sh c re ca a r
        · rw [hg]
          exact hr.imp_left fun hr => (List.mem_cons.mp hr).resolve_left ha
        · exact absurd he ha
    · obtain ⟨ha, hl⟩ := not_or.mp (mt List.mem_cons.mpr hr)
      obtain ⟨hg, -⟩ | ⟨he, -⟩ := refreshOne_get? sh c re ca a r
      · exact ((hf r).2 hl).trans hg
      · exact absurd he ha

theorem captureStep_faithful (h : Faithful sh c) (op : CaptureOp) : Faithful sh (captureStep sh c op).1 := by
  have hs (realm : RealmId) (scene : Scene) (hsc : c.scenes.scenes.get? realm = some scene) :
      ∃ scene', c.scenes.scenes.get? realm = some scene' ∧ (scene.generation < scene'.generation ∨
        scene'.generation = scene.generation ∧ scene'.surface = scene.surface) := ⟨scene, hsc, .inr ⟨rfl, rfl⟩⟩
  cases op with
  | commit | clearSurface => exact h.of_scenes (scenes_update fun scene => .inl (Nat.lt_succ_self _))
  | bind realm =>
    refine h.of_scenes ?_
    unfold RealmScenes.bind
    split_ifs
    · exact hs
    · exact scenes_update fun scene => .inr ⟨rfl, rfl⟩
  | unbind => exact h.of_scenes hs
  | takeBoundDamage g =>
    refine h.of_scenes ?_
    unfold RealmScenes.takeBoundDamage
    split
    · exact hs
    · split
      · exact hs
      next realm scene hb =>
        intro realm' scene' hs'
        rw [OrdMap.get?_insert]
        split_ifs with heq
        · rw [heq, hb] at hs'
          cases hs'
          exact ⟨_, rfl, .inr ⟨rfl, rfl⟩⟩
        · exact ⟨scene', hs', .inr ⟨rfl, rfl⟩⟩
  | launch | die | resize => exact h
  | refresh re =>
    exact (foldl_refreshOne re c.live fun realm e he => h realm e (OrdMap.get?_filter_eq_some.mp he).1).1

theorem exec_viewCache {c : CaptureState} {ops : List CaptureOp} (h : ∀ re, .refresh re ∉ ops) :
    ((captureStep sh).exec c ops).viewCache = c.viewCache := by
  induction ops generalizing c with
  | nil => rfl
  | cons op ops ih =>
    have hs : (captureStep sh c op).1.viewCache = c.viewCache := by
      cases op with
      | refresh re => exact absurd (.head _) (h re)
      | _ => rfl
    exact (ih fun re hm => h re (.tail _ hm)).trans hs

end CaptureState

open CaptureState

/-- **Captures are current.** Whatever happened before a refresh and whatever happens until the next one, no realm
without a shim at the refresh has a capture, a realm with one has none but the composition its scene had at the refresh,
at the output's size then, and it has that one unless it could not be read back. -/
theorem captures_current (stripH : Nat) (size : Nat × Nat) (ops rest : List CaptureOp) (reads : RealmId → Bool)
    (hrest : ∀ reads, .refresh reads ∉ rest) :
    let c := (captureStep stripH).exec (.new size) ops
    let cache := ((captureStep stripH).exec (.new size) (ops ++ .refresh reads :: rest)).viewCache
    (∀ realm, realm ∉ c.live → cache.get? realm = none) ∧
      ∀ realm, realm ∈ c.live →
        (∀ view, cache.get? realm = some view → ∃ scene, c.scenes.scenes.get? realm = some scene ∧
          view.rgba = scene.compose ⟨c.size, stripH⟩) ∧
        (reads realm = true → (cache.get? realm).map (·.rgba) = c.viewRgba stripH reads realm) := by
  intro c ca
  have hf : Faithful stripH c := (captureStep stripH).exec_inv (P := Faithful stripH)
    (fun c op h => captureStep_faithful h op) (fun r e he => by cases he) ops
  have hca : ca = c.live.foldl (c.refreshOne stripH reads)
      (c.viewCache.filter fun r _ => r ∈ c.live) := by
    show ((captureStep stripH).exec _ _).viewCache = _
    rw [exec_append]
    exact exec_viewCache hrest
  have hpr (r : RealmId) (e : CachedView)
      (he : (c.viewCache.filter fun r _ => r ∈ c.live).get? r = some e) : EntryFaithful stripH c r e :=
    hf r e (OrdMap.get?_filter_eq_some.mp he).1
  obtain ⟨hen, hl⟩ := foldl_refreshOne reads c.live hpr
  rw [← hca] at hen hl
  refine ⟨fun r hd => ?_, fun r hli => ?_⟩
  · rw [(hl r).2 hd, Option.eq_none_iff_forall_ne_some]
    intro e he
    simpa [hd] using (OrdMap.get?_filter_eq_some.mp he).2
  · obtain ⟨hk, hso⟩ := (hl r).1 (.inl hli)
    have hc (e : CachedView) (he : ca.get? r = some e) : ¬ (c.size.1 = 0 ∨ c.size.2 = 0) ∧ ∃ s,
        c.scenes.scenes.get? r = some s ∧ e.rgba = s.compose ⟨c.size, stripH⟩ := by
      obtain ⟨hv, s, hs, -, hsa⟩ := hen r e he
      have hp : (⟨s.generation, c.size⟩ : ViewKey) = e.key := by
        simpa [viewKey, hs] using hk e he
      rw [← hp] at hv hsa
      exact ⟨hv, s, hs, hsa rfl⟩
    refine ⟨fun e he => (hc e he).2, fun hr => ?_⟩
    cases he : ca.get? r with
    | none =>
      rw [he] at hso
      exact (Option.not_isSome_iff_eq_none.mp fun h => absurd (hso h) Bool.false_ne_true).symm
    | some e =>
      obtain ⟨hv, s, hs, hrg⟩ := hc e he
      rw [map_some, hrg, viewRgba,
        if_neg fun h => hv (h.imp_right fun h => h.resolve_right (by simp [hr])), hs, map_some]

/-- A realm that was launched and bound has a capture after a refresh. -/
theorem captures_current_bound : (((captureStep 0).exec (.new (4, 4))
    [.launch ⟨"a"⟩, .bind ⟨"a"⟩, .refresh fun _ => true, .clearSurface ⟨"a"⟩]).viewCache.get? ⟨"a"⟩).isSome := by
  have hc := ((captures_current 0 (4, 4) [.launch ⟨"a"⟩, .bind ⟨"a"⟩] [.clearSurface ⟨"a"⟩] (fun _ => true)
    (by simp)).2 ⟨"a"⟩ (.head _)).2 rfl
  have hv : (((captureStep 0).exec (.new (4, 4)) [.launch ⟨"a"⟩, .bind ⟨"a"⟩]).viewRgba 0
    (fun _ => true) ⟨"a"⟩).isSome := by decide
  rwa [← hc, isSome_map] at hv

end Vitrin
