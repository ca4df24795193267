import Mathlib.Data.Multiset.Count
import Mathlib.Data.Multiset.MapFold

/-!
# Openings and closings

Presses and releases, acquisitions and returns: a sequence in which things begin and
end, and in which nothing ends that has not begun.

A `Mark` opens or closes one thing. `Settles s l t` says that, with the things of `s`
outstanding, the marks of `l` can happen one after the other, and that then those of `t`
are outstanding. The same thing may be outstanding several times.

`Settles` composes and splits (`append_iff`), so it holds of every beginning of a
sequence. `count_eq` is the balance: what was outstanding or has been opened has been
closed or is outstanding. `map` forgets differences between things.

A log of marks of any kind is `Fitting` if each of its marks fits the log before it, and
`lastOf` is what such a log says last about something.
-/

namespace Vitrin.Lib

universe u v

variable {α : Type u} {β : Type v}

/-- Something begins, or ends. -/
inductive Mark (α : Type u) where
  | opened (a : α)
  | closed (a : α)
  deriving DecidableEq

def Mark.map (f : α → β) : Mark α → Mark β
  | .opened a => .opened (f a)
  | .closed a => .closed (f a)

/-- The marks can happen, in order: a thing that ends is outstanding. -/
inductive Settles : Multiset α → List (Mark α) → Multiset α → Prop
  | nil (s : Multiset α) : Settles s [] s
  | opened {s t : Multiset α} {a : α} {l : List (Mark α)} (h : Settles (a ::ₘ s) l t) :
      Settles s (.opened a :: l) t
  | closed {s t : Multiset α} {a : α} {l : List (Mark α)} (h : Settles s l t) :
      Settles (a ::ₘ s) (.closed a :: l) t

namespace Settles

variable {s t u : Multiset α} {l l' : List (Mark α)}

theorem open_one (s : Multiset α) (a : α) : Settles s [.opened a] (a ::ₘ s) := .opened (.nil _)

theorem close_one (s : Multiset α) (a : α) : Settles (a ::ₘ s) [.closed a] s := .closed (.nil _)

theorem trans (h : Settles s l t) (h' : Settles t l' u) : Settles s (l ++ l') u := by
  induction h with
  | nil => exact h'
  | opened _ ih => exact .opened (ih h')
  | closed _ ih => exact .closed (ih h')

/-- Every beginning of a sequence that can happen can happen. -/
theorem append_iff : Settles s (l ++ l') u ↔ ∃ t, Settles s l t ∧ Settles t l' u := by
  constructor
  · intro h
    induction l generalizing s with
    | nil => exact ⟨s, .nil s, h⟩
    | cons m l ih =>
      cases h with
      | opened h =>
        obtain ⟨t, hl, hl'⟩ := ih h
        exact ⟨t, .opened hl, hl'⟩
      | closed h =>
        obtain ⟨t, hl, hl'⟩ := ih h
        exact ⟨t, .closed hl, hl'⟩
  · rintro ⟨t, hl, hl'⟩
    exact hl.trans hl'

theorem mem_of_closed {a : α} (h : Settles s (.closed a :: l) t) : a ∈ s := by
  cases h
  exact Multiset.mem_cons_self _ _

theorem map (f : α → β) (h : Settles s l t) : Settles (s.map f) (l.map (Mark.map f)) (t.map f) := by
  induction h with
  | nil => exact .nil _
  | opened _ ih =>
    rw [Multiset.map_cons] at ih
    exact .opened ih
  | closed _ ih =>
    rw [Multiset.map_cons]
    exact .closed ih

variable [DecidableEq α]

/-- **The balance.** What was outstanding or has been opened has been closed or is outstanding. -/
theorem count_eq (h : Settles s l t) (a : α) : s.count a + l.count (.opened a) = l.count (.closed a) + t.count a := by
  induction h with
  | nil => simp
  | @opened s t b l _ ih =>
    simp only [Multiset.count_cons, List.count_cons] at ih ⊢
    by_cases ha : a = b
    · subst ha
      simp only [reduceCtorEq, beq_iff_eq, if_false] at ih ⊢
      omega
    · simpa [ha, Ne.symm ha] using ih
  | @closed s t b l _ ih =>
    simp only [Multiset.count_cons, List.count_cons]
    by_cases ha : a = b
    · subst ha
      simp only [reduceCtorEq, beq_iff_eq, if_false]
      omega
    · simpa [ha, Ne.symm ha] using ih

end Settles

/-! ### Logs -/

/-- Every mark of a log fits what came before it. -/
inductive Fitting (fits : List α → α → Prop) : List α → Prop
  | nil : Fitting fits []
  | concat {log : List α} {m : α} (h : Fitting fits log) (hm : fits log m) : Fitting fits (log ++ [m])

/-- What the last mark says that says anything. -/
def lastOf (f : α → Option β) (log : List α) : Option β := (log.filterMap f).getLast?

variable (f : α → Option β)

@[simp] theorem lastOf_nil : lastOf f [] = none := rfl

@[simp] theorem lastOf_append (lo lo' : List α) : lastOf f (lo ++ lo') = (lastOf f lo').or (lastOf f lo) := by
  rw [lastOf, List.filterMap_append, List.getLast?_append, ← lastOf, ← lastOf]

@[simp] theorem lastOf_cons (m : α) (lo : List α) : lastOf f (m :: lo) = (lastOf f lo).or (f m) := by
  rw [← List.singleton_append, lastOf_append]
  cases h : f m with
  | none | some => simp [lastOf, h]

end Vitrin.Lib
