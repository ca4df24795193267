import Mathlib.Data.Set.Insert
import Mathlib.Logic.Function.Basic

/-!
# Obligations that are answered once

A service that takes on obligations (an answer is owed to the one who asked) and
answers them later, through several stores, in any order, while askers come and go.

`Books` says where each obligation stands and which owners are there. A `Move` is one
thing that can happen to them: an obligation is taken on, answered, answered and kept
on file, struck off, an owner joins or leaves. An owner that has left does not come
back. An obligation that is still owed is struck off without an answer only when its
owner has left, unless the service is `lossy`.

`Standing` relates where an obligation stands to how often it has been answered. Every
move keeps it (`Move.standing`), and so every sequence of moves (`Moves.standing`).
`Moves.clear` strikes off many obligations at once.
-/

namespace Vitrin.Lib

universe u v w

inductive Stage (κ : Type v) where
  | absent
  | owed (owner : κ)
  | answered (owner : κ)
  deriving DecidableEq

/-- Where each obligation stands, which owners are there, and which ever were. -/
@[ext]
structure Books (ι : Type u) (κ : Type v) where
  stage : ι → Stage κ
  live : Set κ
  seen : Set κ

namespace Books

variable {ι : Type u} {κ : Type v} {lo : Prop} {b b' b'' : Books ι κ}

/-- An obligation to `k` that has been answered `n` times. -/
structure Standing (lossy : Prop) (i : ι) (k : κ) (n : Nat) (b : Books ι κ) : Prop where
  known : k ∈ b.seen
  stands : b.stage i = .owed k ∧ n = 0 ∨ b.stage i = .answered k ∧ n = 1 ∨
    b.stage i = .absent ∧ n ≤ 1 ∧ (n = 1 ∨ k ∉ b.live ∨ lossy)

variable {i : ι} {k : κ} {n : Nat}

theorem Standing.le_one (h : Standing lo i k n b) : n ≤ 1 := by
  rcases h.stands with ⟨-, rfl⟩ | ⟨-, rfl⟩ | ⟨-, hl, -⟩
  · exact Nat.zero_le 1
  · exact le_rfl
  · exact hl

theorem Standing.eq_one (h : Standing lo i k n b) (ha : b.stage i = .absent) (hl : k ∈ b.live)
    (hlo : ¬ lo) : n = 1 := by
  rcases h.stands with ⟨how, -⟩ | ⟨han, -⟩ | ⟨-, -, h | h | h⟩
  · cases ha.symm.trans how
  · cases ha.symm.trans han
  · exact h
  · exact absurd hl h
  · exact absurd h hlo

/-! ### Moves -/

variable [DecidableEq ι]

/-- The books once the stage of an obligation has changed. -/
def put (b : Books ι κ) (i : ι) (stage : Stage κ) : Books ι κ := { b with stage := Function.update b.stage i stage }

/-- One thing that happens to the books, with the obligations it takes on, and those it answers and to whom. -/
inductive Move (lossy : Prop) (b : Books ι κ) : List ι → List (ι × κ) → Books ι κ → Prop
  | mint {i : ι} {k : κ} (h : b.stage i = .absent) : Move lossy b [i] [] (b.put i (.owed k))
  | settle {i : ι} {k : κ} (h : b.stage i = .owed k) : Move lossy b [] [(i, k)] (b.put i .absent)
  | answer {i : ι} {k : κ} (h : b.stage i = .owed k) : Move lossy b [] [(i, k)] (b.put i (.answered k))
  | strike {i : ι} {k : κ} (h : b.stage i = .answered k ∨ b.stage i = .owed k ∧ (k ∉ b.live ∨ lossy)) :
      Move lossy b [] [] (b.put i .absent)
  | leave (k : κ) : Move lossy b [] [] { b with live := b.live \ {k} }
  | join {k : κ} (h : k ∉ b.seen) : Move lossy b [] [] { b with live := insert k b.live, seen := insert k b.seen }

/-- Moves one after the other, with everything they take on and answer. -/
inductive Moves (lossy : Prop) (b : Books ι κ) : List ι → List (ι × κ) → Books ι κ → Prop
  | refl : Moves lossy b [] [] b
  | tail {m m' : List ι} {a a' : List (ι × κ)} {b' b'' : Books ι κ} (h : Moves lossy b m a b')
      (h' : Move lossy b' m' a' b'') : Moves lossy b (m ++ m') (a ++ a') b''

variable {m : List ι} {a : List (ι × κ)}

theorem Moves.of_move (h : Move lo b m a b') : Moves lo b m a b' := by
  simpa using Moves.tail .refl h

theorem Moves.trans {m' : List ι} {a' : List (ι × κ)} (h : Moves lo b m a b') (h' : Moves lo b' m' a' b'') :
    Moves lo b (m ++ m') (a ++ a') b'' := by
  induction h' with
  | refl => simpa using h
  | tail _ hm ih =>
    rw [← List.append_assoc, ← List.append_assoc]
    exact ih.tail hm

theorem Standing.put_of_ne {j : ι} (h : Standing lo i k n b) (hi : i ≠ j) (s : Stage κ) :
    Standing lo i k n (b.put j s) := by
  refine ⟨h.known, ?_⟩
  simpa [put, Function.update_of_ne hi] using h.stands

/-- **A move keeps an obligation's standing**, unless it takes the same one on anew. -/
theorem Move.standing [DecidableEq κ] (h : Move lo b m a b') (hi : i ∉ m) (hs : Standing lo i k n b) :
    Standing lo i k (n + a.count (i, k)) b' := by
  have hot : ∀ {j : ι} {k' : κ}, i ≠ j → [(j, k')].count (i, k) = 0 := fun hij => by
    simp [Ne.symm hij]
  cases h with
  | mint hj => exact hs.put_of_ne (by simpa using hi) _
  | @settle j k' hj =>
    by_cases hij : i = j
    · subst hij
      obtain ⟨rfl, rfl⟩ : k' = k ∧ n = 0 := by simpa [hj] using hs.stands
      exact ⟨hs.known, .inr (.inr ⟨by simp [put], by simp⟩)⟩
    · rw [hot hij]
      exact hs.put_of_ne hij _
  | @answer j k' hj =>
    by_cases hij : i = j
    · subst hij
      obtain ⟨rfl, rfl⟩ : k' = k ∧ n = 0 := by simpa [hj] using hs.stands
      exact ⟨hs.known, .inr (.inl ⟨by simp [put], by simp⟩)⟩
    · rw [hot hij]
      exact hs.put_of_ne hij _
  | @strike j k' hj =>
    by_cases hij : i = j
    · subst hij
      refine ⟨hs.known, .inr (.inr ⟨by simp [put], ?_⟩)⟩
      rcases hj with hj | ⟨hj, hl⟩
      · obtain ⟨-, rfl⟩ : k' = k ∧ n = 1 := by simpa [hj] using hs.stands
        simp
      · obtain ⟨rfl, rfl⟩ : k' = k ∧ n = 0 := by simpa [hj] using hs.stands
        exact ⟨by simp, .inr hl⟩
    · exact hs.put_of_ne hij _
  | leave k' =>
    refine ⟨hs.known, ?_⟩
    rcases hs.stands with h | h | ⟨ha, hle, h⟩
    · exact .inl h
    · exact .inr (.inl h)
    · exact .inr (.inr ⟨ha, hle, h.imp_right (.imp_left fun hl hin => hl hin.1)⟩)
  | @join k' hn =>
    refine ⟨.inr hs.known, ?_⟩
    rcases hs.stands with h | h | ⟨ha, hle, h⟩
    · exact .inl h
    · exact .inr (.inl h)
    · refine .inr (.inr ⟨ha, hle, h.imp_right (.imp_left fun hl hin => ?_)⟩)
      rcases hin with rfl | hin
      · exact hn hs.known
      · exact hl hin

/-- **So does every sequence of moves.** -/
theorem Moves.standing [DecidableEq κ] (h : Moves lo b m a b') (hi : i ∉ m) (hs : Standing lo i k n b) :
    Standing lo i k (n + a.count (i, k)) b' := by
  induction h with
  | refl => simpa using hs
  | tail _ hm ih =>
    rw [List.mem_append, not_or] at hi
    rw [List.count_append, ← Nat.add_assoc]
    exact hm.standing hi.2 (ih hi.1)

/-! ### Many at once -/

def without (b : Books ι κ) (l : List ι) : Books ι κ :=
  { b with stage := fun i => if i ∈ l then .absent else b.stage i }

/-- **Clearing.** Obligations, no two the same, are struck off together: those that `voiced` picks are answered,
and the others have been answered before or have an owner that has left. -/
theorem Moves.clear {α : Type w} (l : List α) {f : α → ι} (hn : (l.map f).Nodup) {o : α → κ} {v : α → Bool}
    (h : ∀ x ∈ l, b.stage (f x) = .owed (o x) ∧ (v x = true ∨ o x ∉ b.live ∨ lo) ∨
      b.stage (f x) = .answered (o x) ∧ v x = false) :
    Moves lo b [] ((l.filter v).map fun x => (f x, o x)) (b.without (l.map f)) := by
  induction l generalizing b with
  | nil => simpa [without] using Moves.refl
  | cons x l ih =>
    obtain ⟨hx, hn⟩ := List.nodup_cons.mp hn
    have hne : ∀ y ∈ l, f y ≠ f x := fun y hy he => hx (he ▸ List.mem_map_of_mem hy)
    have hr := ih (b := b.put (f x) .absent) hn fun y hy => by
      simpa [put, Function.update_of_ne (hne y hy)] using h y (List.mem_cons_of_mem x hy)
    have hb : (b.put (f x) .absent).without (l.map f) = b.without ((x :: l).map f) := by
      refine Books.ext (funext fun i => ?_) rfl rfl
      by_cases hi : i = f x
      · simp [without, put, hi]
      · simp [without, put, hi]
    rw [hb] at hr
    cases hv : v x with
    | true =>
      have how : b.stage (f x) = .owed (o x) := by
        rcases h x (.head _) with h | h
        · exact h.1
        · simp [hv] at h
      rw [List.filter_cons_of_pos hv]
      exact (Moves.of_move (.settle how)).trans hr
    | false =>
      rw [List.filter_cons_of_neg (by simp [hv])]
      refine (Moves.of_move (.strike (k := o x) ?_)).trans hr
      rcases h x (.head _) with ⟨how, hg⟩ | ⟨ha, -⟩
      · exact .inr ⟨how, by simpa [hv] using hg⟩
      · exact .inl ha

end Books

end Vitrin.Lib
