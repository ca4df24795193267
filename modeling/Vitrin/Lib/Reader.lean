import Vitrin.Lib.Lockstep
import Mathlib.Data.List.Basic

/-!
# Readers

A reader takes items off the front of a list, and can raise an error or meet a fault.

`Consumes short get chunk x` says that `get` takes exactly `chunk`, whatever follows it, and
then comes out as `x`; and that it raises `short` if the list ends within `chunk`. So one
reader after another takes one chunk after another (`Consumes.bind`), and nothing is made of
a part.
-/

namespace Vitrin.Lib

universe u v

variable {ε : Type u} {β α γ : Type v}

abbrev Reader (ε : Type u) (β α : Type v) := StateT (List β) (Except (Stop ε)) α

/-- Take the next `n` items, if there are so many. -/
def takeNext (short : ε) (n : Nat) : Reader ε β (List β) := fun l =>
  if n ≤ l.length then .ok (l.take n, l.drop n) else raise short

def readTimes : Nat → Reader ε β α → Reader ε β (List α)
  | 0, _ => pure []
  | n + 1, get => do
    let a ← get
    let as ← readTimes n get
    return a :: as

structure Consumes (short : ε) (get : Reader ε β α) (chunk : List β) (x : Except (Stop ε) α) : Prop where
  whole : ∀ rest, get.run (chunk ++ rest) = (·, rest) <$> x
  part : ∀ cut more, chunk = cut ++ more → more ≠ [] → get.run cut = raise short

variable {s : ε} {get : Reader ε β α} {k : α → Reader ε β γ} {c c' : List β} {a : α}
  {y : Except (Stop ε) γ}

theorem consumes_lift (x : Except (Stop ε) α) : Consumes s (liftM x) ([] : List β) x where
  whole rest := by cases x <;> rfl
  part cut more h hm := absurd (List.append_eq_nil_iff.mp h.symm).2 hm

theorem consumes_pure (a : α) : Consumes s (pure a) ([] : List β) (.ok a) := consumes_lift (.ok a)

theorem Consumes.bind (h : Consumes s get c (.ok a)) (hk : Consumes s (k a) c' y) :
    Consumes s (get >>= k) (c ++ c') y where
  whole rest := by
    rw [List.append_assoc, StateT.run_bind, h.whole]
    exact hk.whole rest
  part cut more he hm := by
    rw [StateT.run_bind]
    rcases List.append_eq_append_iff.mp he with ⟨l, rfl, hl⟩ | ⟨l, hl, rfl⟩
    · rw [h.whole]
      exact hk.part l more hl hm
    · by_cases hn : l = []
      · subst hn
        rw [List.append_nil] at hl
        have hw := h.whole []
        rw [List.append_nil] at hw
        rw [← hl, hw]
        exact hk.part [] c' rfl hm
      · rw [h.part cut l hl hn]
        rfl

theorem Consumes.last (h : Consumes s get c (.ok a)) (hk : Consumes s (k a) [] y) : Consumes s (get >>= k) c y := by
  simpa using h.bind hk

theorem consumes_takeNext {n : Nat} (hn : c.length = n) : Consumes s (takeNext s n) c (.ok c) where
  whole rest := by
    subst hn
    change (if _ then _ else _) = _
    rw [if_pos (by simp), List.take_left, List.drop_left]
    rfl
  part cut more he hm := by
    have hl := List.length_pos_iff.mpr hm
    exact if_neg (by rw [← hn, he, List.length_append]; omega)

theorem consumes_times {p : α → List β} {as : List α} (h : ∀ a ∈ as, Consumes s get (p a) (.ok a)) :
    Consumes s (readTimes as.length get) (as.flatMap p) (.ok as) := by
  induction as with
  | nil => exact consumes_pure []
  | cons a as ih =>
    exact (h a (.head _)).bind ((ih fun b hb => h b (List.mem_cons_of_mem a hb)).last (consumes_pure _))

/-! ### Readers that meet no fault -/

@[simp] theorem ok_ne_fault : Except.ok a ≠ (fault : Except (Stop ε) α) := nofun

@[simp] theorem raise_ne_fault {e : ε} : raise e ≠ (fault : Except (Stop ε) α) := nofun

theorem bind_ne_fault {x : Except (Stop ε) α} {f : α → Except (Stop ε) γ} (h : x ≠ fault)
    (hf : ∀ a, x = .ok a → f a ≠ fault) : (x >>= f) ≠ fault := by
  cases x with
  | ok a => exact hf a rfl
  | error e => exact fun he => h (congrArg Except.error (Except.error.inj he))

def Faultless (get : Reader ε β α) : Prop := ∀ l, get.run l ≠ fault

theorem faultless_lift {x : Except (Stop ε) α} (h : x ≠ fault) : Faultless (liftM x : Reader ε β α) :=
  fun _ => bind_ne_fault h fun _ _ => ok_ne_fault

theorem faultless_pure (a : α) : Faultless (pure a : Reader ε β α) := fun _ => ok_ne_fault

theorem Faultless.bind (h : Faultless get) (hk : ∀ a, Faultless (k a)) : Faultless (get >>= k) :=
  fun l => bind_ne_fault (h l) fun x _ => hk x.1 x.2

theorem faultless_takeNext {n : Nat} : Faultless (takeNext s n : Reader ε β (List β)) := by
  intro l
  change (if _ then _ else _) ≠ _
  split
  · exact ok_ne_fault
  · exact raise_ne_fault

theorem Faultless.times (h : Faultless get) (n : Nat) : Faultless (readTimes n get) := by
  induction n with
  | zero => exact faultless_pure []
  | succ n ih => exact h.bind fun a => ih.bind fun as => faultless_pure _

end Vitrin.Lib
