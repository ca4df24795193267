import Mathlib.Data.Int.ModEq
import Mathlib.Data.List.Basic

/-!
# Rings

A first-in first-out queue in a fixed array: `head` is the place of the oldest element,
the others follow it, and places wrap at the end of the array.

`toList` reads the queue off the array, oldest first. A `push` adds at its end
(`toList_push`), a `pop` takes its first off (`toList_pop`), and `front?` is that first
(`front?_eq`). Places not in the queue may hold anything.
-/

namespace Vitrin.Lib

open List (range map_cons map_map)

universe u

/-- A queue of at most `cap` elements in an array of `cap` places. -/
structure Ring (α : Type u) (cap : Nat) where
  slots : Vector α cap
  head : Nat
  len : Nat
  head_lt : head < cap
  len_le : len ≤ cap

namespace Ring

variable {α : Type u} {cap : Nat}

/-- The place of the element `i` behind the oldest. -/
def place (r : Ring α cap) (i : Nat) : Fin cap := ⟨(r.head + i) % cap, Nat.mod_lt _ (Nat.zero_lt_of_lt r.head_lt)⟩

/-- The element `i` behind the oldest. -/
def get (r : Ring α cap) (i : Nat) : α := r.slots.get (r.place i)

def toList (r : Ring α cap) : List α := (List.range r.len).map r.get

/-- A ring with nothing in it; its places hold `a`. -/
def empty (a : α) (h : 0 < cap) : Ring α cap := ⟨Vector.replicate cap a, 0, 0, h, Nat.zero_le _⟩

/-- Add an element behind the others. -/
def push (r : Ring α cap) (a : α) (h : r.len < cap) : Ring α cap :=
  { r with slots := r.slots.set (r.place r.len) a (r.place r.len).isLt, len := r.len + 1, len_le := h }

def front? (r : Ring α cap) : Option α := if r.len = 0 then none else some (r.get 0)

def setFront (r : Ring α cap) (a : α) : Ring α cap :=
  { r with slots := r.slots.set (r.place 0) a (r.place 0).isLt }

def pop (r : Ring α cap) : Ring α cap :=
  { r with head := r.place 1, len := r.len - 1, head_lt := (r.place 1).isLt
           len_le := (Nat.sub_le _ _).trans r.len_le }

def clear (r : Ring α cap) : Ring α cap :=
  { r with head := r.place r.len, len := 0, head_lt := (r.place r.len).isLt, len_le := Nat.zero_le _ }

variable {r : Ring α cap}

@[simp] theorem length_toList : r.toList.length = r.len := by simp [toList]

@[simp] theorem toList_clear {r : Ring α cap} : r.clear.toList = [] := rfl

theorem place_inj {i j : Nat} (hi : i < cap) (hj : j < cap) (h : r.place i = r.place j) : i = j := by
  have hm : (r.head + i) % cap = (r.head + j) % cap := congrArg Fin.val h
  have hs : (i : ℕ) % cap = j % cap := Nat.ModEq.add_left_cancel' r.head hm
  rwa [Nat.mod_eq_of_lt hi, Nat.mod_eq_of_lt hj] at hs

theorem toList_push {a : α} (h : r.len < cap) : (r.push a h).toList = r.toList ++ [a] := by
  have hold {i : Nat} (hi : i < r.len) : (r.push a h).get i = r.get i := by
    have hn : r.place r.len ≠ r.place i := fun he => hi.ne (place_inj h (hi.trans h) he).symm
    exact Vector.getElem_set_ne (r.place r.len).isLt (r.place i).isLt fun he => hn (Fin.ext he)
  have hnew : (r.push a h).get r.len = a := Vector.getElem_set_self _
  change (range (r.len + 1)).map _ = _
  rw [List.range_succ, List.map_append, List.map_singleton, hnew]
  refine congrArg (· ++ [a]) (List.map_congr_left fun i hi => hold (List.mem_range.mp hi))

theorem toList_pop : r.pop.toList = r.toList.tail := by
  have hg (i : Nat) : r.pop.get i = r.get (i + 1) := by
    have hp : r.pop.place i = r.place (i + 1) := by
      apply Fin.ext
      change ((r.head + 1) % cap + i) % cap = (r.head + (i + 1)) % cap
      rw [Nat.mod_add_mod, Nat.add_assoc, Nat.add_comm 1 i]
    exact congrArg r.slots.get hp
  unfold toList
  cases hl : r.len with
  | zero =>
    change (range (r.len - 1)).map _ = _
    rw [hl]
    rfl
  | succ n =>
    change (range (r.len - 1)).map _ = _
    rw [hl, Nat.add_sub_cancel, List.range_succ_eq_map, map_cons, List.tail_cons, map_map]
    exact List.map_congr_left fun i _ => hg i

theorem front?_eq : r.front? = r.toList.head? := by
  unfold front? toList
  cases hl : r.len with
  | zero => rfl
  | succ n =>
    rw [List.range_succ_eq_map]
    rfl

theorem toList_setFront {a : α} (h : 0 < r.len) : (r.setFront a).toList = a :: r.toList.tail := by
  obtain ⟨n, hn⟩ := Nat.exists_eq_succ_of_ne_zero h.ne'
  have hc := r.len_le
  have hf : (r.setFront a).get 0 = a := Vector.getElem_set_self _
  have hr {i : Nat} (hi : i < n) : (r.setFront a).get (i + 1) = r.get (i + 1) := by
    have hne : r.place 0 ≠ r.place (i + 1) := fun he => by
      have := place_inj (by omega) (by omega) he
      omega
    exact Vector.getElem_set_ne (r.place 0).isLt (r.place (i + 1)).isLt fun he => hne (Fin.ext he)
  unfold toList
  change (range r.len).map _ = _
  rw [hn, List.range_succ_eq_map, map_cons, map_cons, List.tail_cons, map_map, map_map, hf]
  exact congrArg (a :: ·) (List.map_congr_left fun i hi => hr (List.mem_range.mp hi))

end Ring

end Vitrin.Lib
