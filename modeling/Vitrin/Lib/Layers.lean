import Mathlib.Data.List.Basic

/-!
# Layers

A picture that is built up from below: painters draw one after the other on the same
canvas, and each may cover, tint or leave what the ones before it have drawn.

A `Layer` says what a painter makes of the value at a place. At a place a layer may be
`Clear` (it leaves the value), it may show one value whatever is below (`Shows`), or at
least hide what is below (`Hides`: nothing of it can be told from the result). `stack`
draws layers in order, and `masked` restricts a layer to a region.

The last layer that is not clear decides: a layer that shows a value and has only clear
layers over it shows it through the whole stack (`stack_shows`). One hiding layer hides
what is below the stack, whatever is drawn before and after it (`stack_hides`).
-/

namespace Vitrin.Lib

universe u v

variable {ι : Type u} {α : Type v}

/-- What a painter makes of the value at a place. -/
abbrev Layer (ι : Type u) (α : Type v) := ι → α → α

namespace Layer

variable {l : Layer ι α} {ls : List (Layer ι α)} {i : ι} {v : α}

/-- The layer leaves the value at the place. -/
def Clear (l : Layer ι α) (i : ι) : Prop := ∀ a, l i a = a

/-- The layer shows the value at the place, whatever is below. -/
def Shows (l : Layer ι α) (i : ι) (v : α) : Prop := ∀ a, l i a = v

/-- What is below at the place makes no difference. -/
def Hides (l : Layer ι α) (i : ι) : Prop := ∀ a b, l i a = l i b

theorem Shows.hides (h : l.Shows i v) : l.Hides i := by
  intro a b
  rw [h a, h b]

/-! ### One layer over another -/

/-- The layers in order, the first at the bottom. -/
def stack : List (Layer ι α) → Layer ι α
  | [] => fun _ a => a
  | l :: ls => fun i a => stack ls i (l i a)

@[simp] theorem stack_nil {a : α} : stack [] i a = a := rfl

@[simp] theorem stack_cons {a : α} : stack (l :: ls) i a = stack ls i (l i a) := rfl

theorem stack_append {ls l' : List (Layer ι α)} {i : ι} {a : α} :
    stack (ls ++ l') i a = stack l' i (stack ls i a) := by
  induction ls generalizing a with
  | nil => rfl
  | cons l ls ih => exact ih

theorem stack_clear (h : ∀ l ∈ ls, l.Clear i) : (stack ls).Clear i := by
  induction ls with
  | nil => exact fun _ => rfl
  | cons l ls ih =>
    intro a
    have hr := ih fun l' hl' => h l' (.tail _ hl')
    rw [stack_cons, h l (.head _) a, hr a]

/-- **The last layer that is not clear decides.** -/
theorem stack_shows (b : List (Layer ι α)) {af : List (Layer ι α)} (h : l.Shows i v)
    (ha : ∀ l' ∈ af, l'.Clear i) : (stack (b ++ l :: af)).Shows i v := by
  intro a
  rw [stack_append, stack_cons, h, stack_clear ha]

/-- **One hiding layer hides what is below the stack.** -/
theorem stack_hides (hm : l ∈ ls) (h : l.Hides i) : (stack ls).Hides i := by
  intro a b
  obtain ⟨be, af, rfl⟩ := List.append_of_mem hm
  rw [stack_append, stack_append, stack_cons, stack_cons, h]

/-! ### A layer with bounds -/

def masked (region : ι → Prop) [DecidablePred region] (l : Layer ι α) : Layer ι α := fun i a =>
  if region i then l i a else a

variable {r : ι → Prop} [DecidablePred r]

theorem masked_shows (hi : r i) (h : l.Shows i v) : (masked r l).Shows i v := by
  intro a
  rw [masked, if_pos hi, h]

end Layer

end Vitrin.Lib
