import Mathlib.Logic.Basic

/-!
# Two programs in lockstep

A computation that can raise an error, or meet a fault: something its language does not
define, or that brings the program down. Two such computations, perhaps in different
languages, make the same tests in the same order.

`Lockstep early E R x y` says that `x` and `y` both return, with results that `R` relates,
or both raise, with errors that `E` relates; but `x` may also raise an error that is
`early`, whatever `y` does then. So `x` meets no fault. Binds compose (`Lockstep.bind`),
and so do tests that agree (`Lockstep.ite`).
-/

namespace Vitrin.Lib

universe u u' v v' w w'

/-- Why a computation did not return. -/
inductive Stop (ε : Type u) where
  | raised (e : ε)
  | fault
  deriving DecidableEq

section Stop

variable {ε : Type u} {α : Type v}

def raise (e : ε) : Except (Stop ε) α := .error (.raised e)

def fault : Except (Stop ε) α := .error .fault

/-- A computation that meets no fault, as one that might. -/
def orRaise : Except ε α → Except (Stop ε) α
  | .ok a => .ok a
  | .error e => raise e

theorem orRaise_eq_ok {x : Except ε α} {a : α} : orRaise x = .ok a ↔ x = .ok a := by
  cases x with
  | ok b => simp [orRaise]
  | error e => exact ⟨nofun, nofun⟩

@[simp] theorem raise_ne_ok {e : ε} {a : α} : raise e ≠ .ok a := nofun

@[simp] theorem fault_ne_ok {a : α} : (fault : Except (Stop ε) α) ≠ .ok a := nofun

theorem ite_raise_eq_ok {p : Prop} [Decidable p] {e : ε} {x : Except (Stop ε) α} {a : α} :
    (if p then raise e else x) = .ok a ↔ ¬ p ∧ x = .ok a := by
  by_cases hp : p
  · simp [hp]
  · simp [hp]

end Stop

section Bind

variable {ε : Type u} {α β : Type v}

variable {f : α → Except ε β}

@[simp] theorem ok_bind {a : α} : (Except.ok a >>= f) = f a := rfl

@[simp] theorem error_bind {e : ε} : (Except.error e >>= f) = .error e := rfl

@[simp] theorem pure_eq_ok {a : α} : (pure a : Except ε α) = .ok a := rfl

theorem bind_eq_ok {x : Except ε α} {b : β} : (x >>= f) = .ok b ↔ ∃ a, x = .ok a ∧ f a = .ok b := by
  cases x with
  | ok | error => simp

end Bind

/-- Two computations that make the same tests, until the first raises an error that is `early`. -/
inductive Lockstep {ε : Type u} {ε' : Type u'} {α : Type v} {α' : Type v'} (early : ε → Prop) (E : ε → ε' → Prop)
    (R : α → α' → Prop) : Except (Stop ε) α → Except (Stop ε') α' → Prop
  | returns {a : α} {a' : α'} (h : R a a') : Lockstep early E R (.ok a) (.ok a')
  | raises {e : ε} {e' : ε'} (h : E e e') : Lockstep early E R (raise e) (raise e')
  | early {e : ε} (h : early e) (y : Except (Stop ε') α') : Lockstep early E R (raise e) y

namespace Lockstep

variable {ε : Type u} {ε' : Type u'} {α β : Type v} {α' β' : Type v'} {ea : ε → Prop} {E : ε → ε' → Prop}
  {R : α → α' → Prop} {S : β → β' → Prop} {x : Except (Stop ε) α} {y : Except (Stop ε') α'}

theorem bind {f : α → Except (Stop ε) β} {g : α' → Except (Stop ε') β'} (h : Lockstep ea E R x y)
    (hn : ∀ a a', R a a' → Lockstep ea E S (f a) (g a')) : Lockstep ea E S (x >>= f) (y >>= g) := by
  cases h with
  | returns hr => exact hn _ _ hr
  | raises her => exact .raises her
  | early he => exact .early he _

theorem ite {p q : Prop} [Decidable p] [Decidable q] {x' : Except (Stop ε) α} {y' : Except (Stop ε') α'} (hpq : p ↔ q)
    (h : p → Lockstep ea E R x y) (h' : ¬ p → Lockstep ea E R x' y') :
    Lockstep ea E R (if p then x else x') (if q then y else y') := by
  by_cases hp : p
  · rw [if_pos hp, if_pos (hpq.mp hp)]
    exact h hp
  · rw [if_neg hp, if_neg (mt hpq.mpr hp)]
    exact h' hp

theorem no_fault (h : Lockstep ea E R x y) : x ≠ fault := by
  cases h <;> nofun

theorem returned {a : α} (h : Lockstep ea E R (.ok a) y) : ∃ a', y = .ok a' ∧ R a a' := by
  cases h with
  | returns hr => exact ⟨_, rfl, hr⟩

theorem returned_of {a' : α'} (h : Lockstep ea E R x (.ok a')) :
    (∃ a, x = .ok a ∧ R a a') ∨ ∃ e, x = raise e ∧ ea e := by
  cases h with
  | returns hr => exact .inl ⟨_, rfl, hr⟩
  | early he => exact .inr ⟨_, rfl, he⟩

end Lockstep

end Vitrin.Lib
