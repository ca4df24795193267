import Vitrin.Lib.Machine
import Mathlib.Data.List.Nodup

/-!
# The app's windows

An app may have several toplevels. The one mapped last is in front: it has the keyboard, and it
alone is configured as activated. The seat does not move the keyboard while a popup has grabbed
it, and the shim catches up when the grab ends.

`windowStep` is `xdg.c` under what the app does with its toplevels and popups. A toplevel is
named by its surface, and the seat is as wlroots keeps it.

While no popup has the keyboard, the toplevel in front has it and is the one activated
(`front_window_active`). This needs that a toplevel in front is not unmapped while another that
is mapped has the keyboard: `vitrin_xdg_refocus` then finds the keyboard in its place, and does
not tell that toplevel that it is in front again (`front_window_inactive`).
-/

namespace Vitrin.Shim

open Lib

structure Windows where
  /-- The one last focused comes first. -/
  toplevels : List Nat
  initialized : Nat → Bool
  mapped : Nat → Bool
  /-- Whether a toplevel was last configured as activated. -/
  activated : Nat → Bool
  focus : Option Nat
  grabbed : Bool
  /-- The toplevels that are mapped, the one mapped last first. The source has no such list. -/
  order : List Nat

namespace Windows

def new : Windows := ⟨[], fun _ => false, fun _ => false, fun _ => false, none, false, []⟩

def frontToplevel (s : Windows) : Option Nat := s.toplevels.find? s.mapped

def wantsActivated (s : Windows) (t : Nat) : Bool := !s.mapped t || s.frontToplevel == some t

/-- Of the toplevels that may be configured, these are. -/
def configure (s : Windows) (these : Nat → Bool) : Windows :=
  { s with activated := fun t => if s.toplevels.contains t && s.initialized t && these t then s.wantsActivated t
                                 else s.activated t }

def configureToView (s : Windows) (t : Nat) : Windows := s.configure (· == t)

def syncActivation (s : Windows) : Windows := s.configure s.mapped

def reconfigureAll (s : Windows) : Windows := s.configure fun _ => true

/-- The seat is asked to move the keyboard to a surface, or away from all. -/
def keyboardNotify (s : Windows) (surface : Option Nat) : Windows :=
  if s.grabbed then s else { s with focus := surface }

def raise (s : Windows) (t : Nat) : Windows := { s with toplevels := t :: s.toplevels.filter (· != t) }

def focusToplevel (s : Windows) (t : Nat) : Windows := ((s.raise t).keyboardNotify (some t)).syncActivation

def refocus (s : Windows) : Windows := match s.frontToplevel with
  | none => s.keyboardNotify none
  | some front => if s.focus = some front then s else s.focusToplevel front

def toplevelMap (s : Windows) (t : Nat) : Windows :=
  { s with mapped := fun u => u == t || s.mapped u, order := t :: s.order }.focusToplevel t

/-- The toplevel is off the screen. It is to be committed to before it is mapped again. -/
def hide (s : Windows) (t : Nat) : Windows :=
  { s with
    mapped := fun u => u != t && s.mapped u
    initialized := fun u => u != t && s.initialized u
    order := s.order.filter (· != t) }

def toplevelUnmap (s : Windows) (t : Nat) : Windows :=
  if s.focus = some t then
    match (s.hide t).frontToplevel with
    | none => (s.hide t).keyboardNotify none
    | some successor => (s.hide t).focusToplevel successor
  else s.hide t

end Windows

inductive WindowOp where
  | create (t : Nat)
  /-- The initial commit of a toplevel. -/
  | commit (t : Nat)
  | map (t : Nat)
  | unmap (t : Nat)
  /-- The end of a toplevel. One that is mapped is unmapped before. -/
  | destroy (t : Nat)
  /-- The surface of a toplevel that was destroyed goes too. -/
  | leave (t : Nat)
  /-- The toplevel asks to be maximized or fullscreen. -/
  | request (t : Nat)
  | resize
  | grab
  | grabEnd

/-- What comes out of turn has no effect. -/
def windowStep : Machine Windows WindowOp Unit := fun s op => match op with
  | .create t => (if t ∈ s.toplevels then s else { s with toplevels := t :: s.toplevels }, ())
  | .commit t =>
    (if t ∈ s.toplevels ∧ s.initialized t = false then
      { s with initialized := fun u => u == t || s.initialized u }.configureToView t else s, ())
  | .map t => (if t ∈ s.toplevels ∧ s.initialized t ∧ s.mapped t = false then s.toplevelMap t else s, ())
  | .unmap t => (if s.mapped t then s.toplevelUnmap t else s, ())
  | .destroy t =>
    (if s.mapped t then s
      else { s with toplevels := s.toplevels.filter (· != t), initialized := fun u => u != t && s.initialized u }, ())
  | .leave t => (if t ∈ s.toplevels then s else { s with focus := if s.focus = some t then none else s.focus }, ())
  | .request t => (s.configureToView t, ())
  | .resize => (s.reconfigureAll, ())
  | .grab => ({ s with grabbed := true }, ())
  | .grabEnd => ({ s with grabbed := false }.refocus, ())

namespace Windows

variable {s : Windows} {t : Nat}

/-- A toplevel in front is not unmapped while another that is mapped has the keyboard. -/
def Attended (s : Windows) : WindowOp → Prop
  | .unmap t => s.frontToplevel = some t → ∀ u, s.focus = some u → s.mapped u = true → u = t
  | _ => True

/-- On the list of the source, the mapped toplevels stand in the order in which they were mapped. -/
structure Listed (s : Windows) : Prop where
  order : s.toplevels.filter s.mapped = s.order
  nodup : s.order.Nodup
  mapped : ∀ t, s.mapped t = true → t ∈ s.toplevels ∧ s.initialized t = true

/-- The mapped toplevels were told which of them is in front. -/
def Synced (s : Windows) : Prop := ∀ t, s.mapped t = true → (s.activated t = true ↔ s.frontToplevel = some t)

/-- The end of a grab brings the keyboard to the front, and tells the toplevels so unless it was there already. -/
structure Fronted (s : Windows) : Prop extends Listed s where
  keyboard : s.grabbed = false → s.focus = s.frontToplevel
  told : s.Synced ∨ s.grabbed = true ∧ ∀ t, s.focus = some t → s.mapped t = false

theorem Listed.front (h : s.Listed) : s.frontToplevel = s.order.head? := by
  rw [frontToplevel, ← h.order, List.head?_filter]

theorem Listed.mem (h : s.Listed) : t ∈ s.order ↔ s.mapped t = true := by
  rw [← h.order, List.mem_filter]
  exact and_iff_right_of_imp fun ht => (h.mapped t ht).1

theorem Synced.configure (h : s.Synced) (th : Nat → Bool) : (s.configure th).Synced := by
  intro t ht
  have := h t ht
  simp only [Windows.configure, wantsActivated, frontToplevel] at *
  grind

theorem Fronted.configure (h : s.Fronted) (th : Nat → Bool) : (s.configure th).Fronted :=
  ⟨⟨h.order, h.nodup, h.mapped⟩, h.keyboard, h.told.imp_left (·.configure th)⟩

/-- A toplevel raised to its place on the list is in front. -/
theorem Listed.focusToplevel (h : (s.raise t).Listed) (ht : s.mapped t = true) : (s.focusToplevel t).Fronted := by
  have hs : ((s.raise t).keyboardNotify (some t)).Listed := by
    unfold keyboardNotify
    split
    · exact h
    · exact ⟨h.order, h.nodup, h.mapped⟩
  refine ⟨⟨hs.order, hs.nodup, hs.mapped⟩, ?_, .inl fun u hu => ?_⟩
  · simp only [Windows.focusToplevel, syncActivation, Windows.configure, keyboardNotify, raise, frontToplevel]
    grind
  · have := hs.mapped u hu
    simp only [Windows.focusToplevel, syncActivation, Windows.configure, wantsActivated, frontToplevel] at *
    grind

theorem Listed.refront (h : s.Listed) (ht : s.frontToplevel = some t) : (s.focusToplevel t).Fronted := by
  have hm : s.mapped t = true := List.find?_some ht
  obtain ⟨r, hr⟩ := List.head?_eq_some_iff.mp (h.front ▸ ht)
  have hn : t ∉ r := (List.nodup_cons.mp (hr ▸ h.nodup)).1
  refine Listed.focusToplevel ⟨?_, h.nodup, fun u hu => ?_⟩ hm
  · calc (s.raise t).toplevels.filter s.mapped
        = t :: (s.toplevels.filter s.mapped).filter (· != t) := by
          simp [raise, hm, List.filter_filter, Bool.and_comm]
      _ = s.order := by
          rw [h.order, hr, List.filter_cons_of_neg (by simp), List.filter_eq_self.mpr (by grind)]
  · grind [raise, h.mapped u hu]

theorem Listed.noneLeft (h : s.Listed) (hf : s.frontToplevel = none) : (s.keyboardNotify none).Fronted := by
  have hu : ∀ u, s.mapped u = false := by grind [frontToplevel, h.mapped]
  unfold keyboardNotify
  split
  · exact ⟨h, by simp [*], .inl (by simp [Synced, hu])⟩
  · exact ⟨⟨h.order, h.nodup, h.mapped⟩, fun _ => hf.symm, .inl (by simp [Synced, hu])⟩

theorem Fronted.map (h : s.Fronted) (hi : s.initialized t = true) (hu : s.mapped t = false) :
    (s.toplevelMap t).Fronted := by
  refine Listed.focusToplevel ⟨?_, List.nodup_cons.mpr ⟨by simp [h.mem, hu], h.nodup⟩, fun u hu => ?_⟩ (by simp)
  · have : s.toplevels.filter (fun u => (u == t || s.mapped u) && u != t) = s.order := by
      rw [← h.order]
      exact List.filter_congr fun u _ => by grind
    simpa [raise, List.filter_filter] using this
  · grind [raise, h.mapped u]

theorem Listed.hide (h : s.Listed) : (s.hide t).Listed := by
  refine ⟨?_, h.nodup.filter _, fun u hu => ?_⟩
  · rw [Windows.hide, ← h.order, List.filter_filter]
  · simp only [Windows.hide] at *
    grind [h.mapped u]

theorem Fronted.unmap (h : s.Fronted)
    (ha : s.frontToplevel = some t → ∀ u, s.focus = some u → s.mapped u = true → u = t) :
    (s.toplevelUnmap t).Fronted := by
  have hl : (s.hide t).Listed := h.toListed.hide
  unfold toplevelUnmap
  split
  case isTrue hf =>
    split
    · exact hl.noneLeft ‹_›
    · exact hl.refront ‹_›
  case isFalse hf =>
    by_cases ht : s.frontToplevel = some t
    · -- only a grab keeps the keyboard from the front
      have hg : s.grabbed = true := by grind [h.keyboard]
      refine ⟨hl, by simp [Windows.hide, hg], .inr ⟨hg, fun u hu => ?_⟩⟩
      simp only [Windows.hide] at *
      grind
    · have hfr : (s.hide t).frontToplevel = s.frontToplevel := by
        rw [hl.front, h.front, Windows.hide]
        rw [h.front] at ht
        cases ho : s.order <;> grind
      refine ⟨hl, fun hg => (h.keyboard hg).trans hfr.symm, ?_⟩
      rw [Synced, hfr]
      simp only [Windows.hide]
      grind [h.told, Synced]

theorem Fronted.relist (h : s.Fronted) {toplevels : List Nat} {initialized : Nat → Bool}
    (hl : { s with toplevels, initialized : Windows }.Listed) : { s with toplevels, initialized }.Fronted := by
  have hf : { s with toplevels, initialized : Windows }.frontToplevel = s.frontToplevel := hl.front.trans h.front.symm
  refine ⟨hl, fun hg => (h.keyboard hg).trans hf.symm, ?_⟩
  simpa only [Synced, hf] using h.told

theorem fronted_step (s : Windows) (op : WindowOp) (ha : s.Attended op) (h : s.Fronted) :
    (windowStep s op).1.Fronted := by
  cases op with
  | create t =>
    simp only [windowStep]
    split
    case isTrue => exact h
    case isFalse ht =>
      have hu : s.mapped t = false := by grind [h.mapped t]
      refine h.relist ⟨?_, h.nodup, fun u hm => (h.mapped u hm).imp_left (List.mem_cons_of_mem t)⟩
      rw [← h.order, List.filter_cons_of_neg (by simp [hu])]
  | commit t =>
    simp only [windowStep]
    split
    · refine (h.relist ?_).configure _
      exact ⟨h.order, h.nodup, fun u hu => (h.mapped u hu).imp_right (by simp [·])⟩
    · exact h
  | map t =>
    simp only [windowStep]
    split
    case isTrue hm => exact h.map hm.2.1 hm.2.2
    case isFalse => exact h
  | unmap t =>
    simp only [windowStep]
    split
    · exact h.unmap ha
    · exact h
  | destroy t =>
    simp only [windowStep]
    split
    · exact h
    · next hu =>
      refine h.relist ⟨?_, h.nodup, fun u hm => by grind [h.mapped u hm]⟩
      rw [List.filter_filter, ← h.order]
      exact List.filter_congr fun u _ => by grind
  | leave t =>
    simp only [windowStep]
    split
    · exact h
    · have hm : s.mapped t = false := by grind [h.mapped t]
      refine ⟨⟨h.order, h.nodup, h.mapped⟩, fun hg => ?_, h.told.imp_right fun hu => ⟨hu.1, by grind⟩⟩
      grind [h.keyboard hg, frontToplevel]
  | request t => exact h.configure _
  | resize => exact h.configure _
  | grab => exact ⟨⟨h.order, h.nodup, h.mapped⟩, by simp [windowStep], h.told.imp_right fun hu => ⟨rfl, hu.2⟩⟩
  | grabEnd =>
    have hl : { s with grabbed := false : Windows }.Listed := ⟨h.order, h.nodup, h.mapped⟩
    simp only [windowStep, refocus]
    split
    case h_1 hf => exact hl.noneLeft hf
    case h_2 front hf =>
      split
      case isTrue hs =>
        have hm : s.mapped front = true := List.find?_some hf
        exact ⟨hl, fun _ => hs.trans hf.symm, .inl (h.told.resolve_right fun hu => by simp [hu.2 front hs] at hm)⟩
      case isFalse => exact hl.refront hf

/-- **While no popup has the keyboard, the toplevel mapped last of those still mapped has it and is the one activated;
and if none is mapped, none has it.** -/
theorem front_window_active {ops : List WindowOp} (ha : windowStep.Along Attended .new ops)
    (hg : (windowStep.exec .new ops).grabbed = false) : let s := windowStep.exec .new ops
    (∀ t, t ∈ s.order ↔ s.mapped t = true) ∧ s.focus = s.order.head? ∧
      ∀ t, s.mapped t = true → (s.activated t = true ↔ s.order.head? = some t) := by
  intro s
  have h0 : new.Fronted :=
    ⟨⟨rfl, List.nodup_nil, fun t ht => absurd ht Bool.false_ne_true⟩, fun _ => rfl,
      .inl fun t ht => absurd ht Bool.false_ne_true⟩
  have h : s.Fronted := Machine.exec_along fronted_step h0 ha
  rw [← h.front]
  exact ⟨fun _ => h.mem, h.keyboard hg, h.told.resolve_right fun hu => Bool.eq_false_iff.mp hg hu.1⟩

/-- A toplevel is made and mapped. -/
def opens (t : Nat) : List WindowOp := [.create t, .commit t, .map t]

/-- The second of two toplevels goes, and the keyboard is passed on. -/
theorem front_window_active_successor : (windowStep.exec .new (opens 0 ++ opens 1 ++ [.unmap 1])).focus = some 0 := by
  have ha : windowStep.Along Attended .new (opens 0 ++ opens 1 ++ [.unmap 1]) :=
    ⟨trivial, trivial, trivial, trivial, trivial, trivial, fun _ _ hu _ => (Option.some.inj hu).symm, trivial⟩
  exact (front_window_active ha rfl).2.1

/-- A toplevel is mapped and unmapped while a popup has the keyboard. -/
theorem front_window_inactive : let s := windowStep.exec .new (opens 0 ++ [.grab] ++ opens 1 ++ [.unmap 1, .grabEnd])
    s.grabbed = false ∧ s.order = [0] ∧ s.focus = some 0 ∧ s.activated 0 = false := by
  decide

end Windows
end Vitrin.Shim
