import Mathlib.Data.List.DropRight
import Mathlib.Data.List.Basic

/-!
# Splitting lists

Cutting a list at the first occurrence of a pattern or at the last occurrence of an
element, and what the cut says about the list: `rsplitOnce_append` is how a name that was
put together from a stem and a suffix is taken apart again.
-/

namespace Vitrin.Lib

universe u

variable {α : Type u} [DecidableEq α]

/-- Cut at the first occurrence of a pattern, which is dropped. -/
def splitOnce (pattern : List α) : List α → Option (List α × List α)
  | [] => if pattern = [] then some ([], []) else none
  | x :: xs => match (x :: xs).dropPrefix? pattern with
    | some after => some ([], after)
    | none => (splitOnce pattern xs).map fun (before, after) => (x :: before, after)

/-- Cut at the last occurrence of an element, which is dropped. -/
def rsplitOnce (sep : α) : List α → Option (List α × List α)
  | [] => none
  | x :: xs => match rsplitOnce sep xs with
    | some (before, after) => some (x :: before, after)
    | none => if x = sep then some ([], xs) else none

variable {sep : α}

theorem rsplitOnce_eq_none {l : List α} (h : sep ∉ l) : rsplitOnce sep l = none := by
  induction l with
  | nil => rfl
  | cons x xs ih =>
    obtain ⟨hx, hxs⟩ := not_or.1 (mt List.mem_cons.2 h)
    rw [rsplitOnce, ih hxs]
    exact if_neg (Ne.symm hx)

theorem rsplitOnce_append (b : List α) {a : List α} (h : sep ∉ a) : rsplitOnce sep (b ++ sep :: a) = some (b, a) := by
  induction b with
  | nil => rw [List.nil_append, rsplitOnce, rsplitOnce_eq_none h, if_pos rfl]
  | cons x b ih => rw [List.cons_append, rsplitOnce, ih]

theorem rsplitOnce_eq_some {l b a : List α} (h : rsplitOnce sep l = some (b, a)) : l = b ++ sep :: a := by
  induction l generalizing b with
  | nil => cases h
  | cons x xs ih =>
    rw [rsplitOnce] at h
    split at h
    next hxs =>
      cases h
      rw [ih hxs, List.cons_append]
    next =>
      split_ifs at h with hx
      cases h
      rw [hx, List.nil_append]

/-- A stem and a suffix can be told from the list. -/
theorem append_sep_inj {b b' a a' : List α} (h : sep ∉ a) (h' : sep ∉ a')
    (he : b ++ sep :: a = b' ++ sep :: a') : b = b' ∧ a = a' := by
  have hs := rsplitOnce_append b h
  rw [he, rsplitOnce_append b' h'] at hs
  obtain ⟨rfl, rfl⟩ := Prod.mk.inj (Option.some.inj hs)
  exact ⟨rfl, rfl⟩

end Vitrin.Lib
