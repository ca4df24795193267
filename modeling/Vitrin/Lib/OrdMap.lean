import Mathlib.Order.Lattice
import Mathlib.Order.Nat
import Mathlib.Data.List.Pairwise
import Mathlib.Data.List.Perm.Basic

/-!
# Finite maps in key order

A finite map over a linearly ordered key type, kept as the list of its bindings
in strictly increasing key order. The order is a field of the structure, so an
unsorted or repeated binding cannot be built, and every operation below is a
structural recursion: a closed map can be evaluated by `decide`.

`OrdMap κ α` carries `entries` and the proof that they are `sorted`. Lookup is
`get?`; `insert` overwrites, `erase` and `filter` drop bindings, `mapVals`
rewrites values in place, and `min?` reads the first binding. Iteration in key
order is the list `entries` itself.

`mem_entries_iff` ties the list to the lookup, and each operation has one lookup
equation (`get?_insert`, `get?_erase`, `get?_filter`, `get?_mapVals`), so a
client never looks at the list. `ext_get?` says lookups determine the map.
`count` counts the bindings with a property, with one equation for each
operation that changes it.
-/

namespace Vitrin.Lib

universe u v w

/-- A finite map: its bindings in strictly increasing key order. -/
structure OrdMap (κ : Type u) (α : Type v) [LinearOrder κ] where
  entries : List (κ × α)
  /-- Keys strictly increase along the list. -/
  sorted : entries.Pairwise (fun a b => a.1 < b.1)

namespace OrdMap

variable {κ : Type u} {α : Type v} {β : Type w} [LinearOrder κ]

instance [DecidableEq α] : DecidableEq (OrdMap κ α) := fun m n =>
  decidable_of_iff (m.entries = n.entries) ⟨fun h => by cases m; cases n; simp_all, fun h => h ▸ rfl⟩

def empty : OrdMap κ α := ⟨[], List.Pairwise.nil⟩

instance : Inhabited (OrdMap κ α) := ⟨empty⟩

/-! ### Lookup -/

/-- The value a key is bound to in a list of bindings, first binding first. -/
def find (k : κ) : List (κ × α) → Option α
  | [] => none
  | (k', a) :: l => if k' = k then some a else find k l

/-- The value `k` is bound to. -/
def get? (m : OrdMap κ α) (k : κ) : Option α := find k m.entries

variable {l : List (κ × α)}

theorem find_eq_some_iff (h : l.Pairwise (fun a b => a.1 < b.1)) (k : κ) (a : α) : find k l = some a ↔ (k, a) ∈ l := by
  induction l with
  | nil => simp [find]
  | cons b l ih =>
    obtain ⟨k', a'⟩ := b
    rw [List.pairwise_cons] at h
    by_cases hk : k' = k
    · subst hk
      have hn : (k', a) ∉ l := fun hm => lt_irrefl k' (h.1 (k', a) hm)
      simp [find, hn, eq_comm]
    · have hk' : k ≠ k' := fun e => hk e.symm
      simp [find, hk, hk', ih h.2]

variable {m : OrdMap κ α} {k : κ} {a : α}

/-- Looking a key up and finding its binding in the list are the same thing. -/
theorem mem_entries_iff : (k, a) ∈ m.entries ↔ m.get? k = some a := (find_eq_some_iff m.sorted k a).symm

@[simp] theorem get?_empty : (empty : OrdMap κ α).get? k = none := rfl

theorem entries_ext {l₁ l₂ : List (κ × α)} (h₁ : l₁.Pairwise (fun a b => a.1 < b.1))
    (h₂ : l₂.Pairwise (fun a b => a.1 < b.1)) (h : ∀ x, x ∈ l₁ ↔ x ∈ l₂) : l₁ = l₂ := by
  have nodup : ∀ {l : List (κ × α)}, l.Pairwise (fun a b => a.1 < b.1) → l.Nodup := fun hl =>
    List.Pairwise.imp (fun ha e => ha.ne (congrArg Prod.fst e)) hl
  exact ((List.perm_ext_iff_of_nodup (nodup h₁) (nodup h₂)).mpr h).eq_of_pairwise
    (fun _ _ _ _ ha hb => absurd hb (lt_asymm ha)) h₁ h₂

theorem ext_get? {n : OrdMap κ α} (h : ∀ k, m.get? k = n.get? k) : m = n := by
  have he : m.entries = n.entries := entries_ext m.sorted n.sorted fun ⟨k, a⟩ => by
    rw [mem_entries_iff, mem_entries_iff, h]
  cases m; cases n; simp_all

/-! ### Insertion -/

/-- Insert a binding into a sorted list, replacing the one with the same key. -/
def insertList (k : κ) (a : α) : List (κ × α) → List (κ × α)
  | [] => [(k, a)]
  | (k', a') :: l =>
    if k < k' then (k, a) :: (k', a') :: l
    else if k = k' then (k, a) :: l
    else (k', a') :: insertList k a l

theorem mem_insertList (h : l.Pairwise (fun a b => a.1 < b.1)) (k : κ) (a : α) (x : κ × α) :
    x ∈ insertList k a l ↔ x = (k, a) ∨ (x ∈ l ∧ x.1 ≠ k) := by
  induction l with
  | nil => simp [insertList]
  | cons b l ih =>
    obtain ⟨k', a'⟩ := b
    rw [List.pairwise_cons] at h
    simp only [insertList]
    split
    · rename_i hl
      -- `k` is below every key of the list, so no binding is displaced
      have hn : ∀ y ∈ (k', a') :: l, y.1 ≠ k := by
        intro y hy
        rcases List.mem_cons.mp hy with rfl | hy
        · exact hl.ne'
        · exact (hl.trans (h.1 y hy)).ne'
      rw [List.mem_cons]
      exact or_congr_right ⟨fun hy => ⟨hy, hn x hy⟩, fun hy => hy.1⟩
    · split
      · rename_i he
        subst he
        have hn : ∀ y ∈ l, y.1 ≠ k := fun y hy => (h.1 y hy).ne'
        simp only [List.mem_cons]
        constructor
        · rintro (rfl | hx)
          · exact .inl rfl
          · exact .inr ⟨.inr hx, hn x hx⟩
        · rintro (rfl | ⟨rfl | hx, hk⟩)
          · exact .inl rfl
          · exact absurd rfl hk
          · exact .inr hx
      · rename_i hn
        have hk : (k', a').1 ≠ k := fun e => hn e.symm
        simp only [List.mem_cons, ih h.2]
        constructor
        · rintro (rfl | rfl | ⟨hx, hxk⟩)
          · exact .inr ⟨.inl rfl, hk⟩
          · exact .inl rfl
          · exact .inr ⟨.inr hx, hxk⟩
        · rintro (rfl | ⟨rfl | hx, hxk⟩)
          · exact .inr (.inl rfl)
          · exact .inl rfl
          · exact .inr (.inr ⟨hx, hxk⟩)

theorem sorted_insertList (h : l.Pairwise (fun a b => a.1 < b.1)) (k : κ) (a : α) :
    (insertList k a l).Pairwise (fun a b => a.1 < b.1) := by
  induction l with
  | nil => simp [insertList]
  | cons b l ih =>
    have h' := List.pairwise_cons.mp h
    simp only [insertList]
    split
    · rename_i hl
      refine List.pairwise_cons.mpr ⟨fun y hy => ?_, h⟩
      rcases List.mem_cons.mp hy with rfl | hy
      · exact hl
      · exact hl.trans (h'.1 y hy)
    · split
      · rename_i he
        subst he
        exact List.pairwise_cons.mpr ⟨fun y hy => h'.1 y hy, h'.2⟩
      · rename_i hnl hn
        refine List.pairwise_cons.mpr ⟨fun y hy => ?_, ih h'.2⟩
        rcases (mem_insertList h'.2 k a y).mp hy with rfl | hy
        · exact lt_of_le_of_ne (not_lt.mp hnl) fun e => hn e.symm
        · exact h'.1 y hy.1

/-- Bind `k` to `a`, replacing any binding it had. -/
def insert (m : OrdMap κ α) (k : κ) (a : α) : OrdMap κ α :=
  ⟨insertList k a m.entries, sorted_insertList m.sorted k a⟩

variable {k' : κ}

theorem get?_insert : (m.insert k a).get? k' = if k' = k then some a else m.get? k' := by
  ext b
  rw [← mem_entries_iff, show (m.insert k a).entries = insertList k a m.entries from rfl,
    mem_insertList m.sorted, mem_entries_iff]
  by_cases hk : k' = k
  · subst hk
    simp [eq_comm]
  · simp [hk]

@[simp] theorem get?_insert_self : (m.insert k a).get? k = some a := by
  rw [get?_insert, if_pos rfl]

theorem get?_insert_of_ne (h : k' ≠ k) : (m.insert k a).get? k' = m.get? k' := by
  rw [get?_insert, if_neg h]

/-! ### Dropping and rewriting bindings -/

/-- Keep the bindings that satisfy `p`. -/
def filter (m : OrdMap κ α) (p : κ → α → Bool) : OrdMap κ α :=
  ⟨m.entries.filter fun e => p e.1 e.2, m.sorted.filter _⟩

variable {p : κ → α → Bool}

theorem get?_filter : (m.filter p).get? k = (m.get? k).filter (p k) := by
  ext a
  rw [← mem_entries_iff, show (m.filter p).entries = m.entries.filter fun e => p e.1 e.2 from rfl,
    List.mem_filter, mem_entries_iff, Option.filter_eq_some_iff]

theorem get?_filter_eq_some : (m.filter p).get? k = some a ↔ m.get? k = some a ∧ p k a = true := by
  rw [get?_filter, Option.filter_eq_some_iff]

/-- The values that `filter` would drop for not satisfying `p`, in the order of their keys. -/
def dropped (m : OrdMap κ α) (p : α → Bool) : List α := (m.entries.filter fun e => !p e.2).map (·.2)

variable {key : α → κ}

section

variable (hf : ∀ k a, m.get? k = some a → key a = k)

include hf

/-- In a map that files each value under its own key, a dropped value is found under that key. -/
theorem mem_dropped {p : α → Bool} : a ∈ m.dropped p ↔ m.get? (key a) = some a ∧ p a = false := by
  simp only [dropped, List.mem_map, List.mem_filter, Bool.not_eq_true', Prod.exists, mem_entries_iff]
  constructor
  · rintro ⟨k, b, ⟨hg, hp⟩, rfl⟩
    exact ⟨hf k b hg ▸ hg, hp⟩
  · rintro ⟨hg, hp⟩
    exact ⟨key a, a, ⟨hg, hp⟩, rfl⟩

theorem mem_map_dropped {p : α → Bool} : k ∈ (m.dropped p).map key ↔ ∃ a, m.get? k = some a ∧ p a = false := by
  rw [List.mem_map]
  constructor
  · rintro ⟨a, ha, rfl⟩
    exact ⟨a, (mem_dropped hf).mp ha⟩
  · rintro ⟨a, hg, hp⟩
    obtain rfl := hf k a hg
    exact ⟨a, (mem_dropped hf).mpr ⟨hg, hp⟩, rfl⟩

theorem nodup_dropped (p : α → Bool) : ((m.dropped p).map key).Nodup := by
  have hk : (m.dropped p).map key = (m.entries.filter fun e => !p e.2).map (·.1) := by
    simp only [dropped, List.map_map]
    exact List.map_congr_left fun e he => hf e.1 e.2 (mem_entries_iff.mp (List.mem_filter.mp he).1)
  rw [hk]
  exact (List.pairwise_map.mpr (m.sorted.imp fun h => h.ne)).sublist (List.Sublist.map _ List.filter_sublist)

end

/-- Drop the binding of `k`. -/
def erase (m : OrdMap κ α) (k : κ) : OrdMap κ α := m.filter fun k' _ => k' ≠ k

theorem get?_erase : (m.erase k).get? k' = if k' = k then none else m.get? k' := by
  rw [erase, get?_filter]
  by_cases hk : k' = k
  · subst hk
    cases m.get? k' <;> simp
  · cases m.get? k' <;> simp [hk]

@[simp] theorem get?_erase_self : (m.erase k).get? k = none := by
  rw [get?_erase, if_pos rfl]

theorem get?_erase_of_ne (h : k' ≠ k) : (m.erase k).get? k' = m.get? k' := by
  rw [get?_erase, if_neg h]

theorem get?_erase_eq_some : (m.erase k).get? k' = some a ↔ k' ≠ k ∧ m.get? k' = some a := by
  by_cases hk : k' = k <;> simp [get?_erase]

theorem erase_of_get?_eq_none (h : m.get? k = none) : m.erase k = m := by
  refine ext_get? fun k' => ?_
  by_cases hk : k' = k
  · subst hk
    rw [get?_erase_self, h]
  · exact get?_erase_of_ne hk

/-- Rewrite every value, keys unchanged. -/
def mapVals (m : OrdMap κ α) (f : κ → α → β) : OrdMap κ β :=
  ⟨m.entries.map fun e => (e.1, f e.1 e.2), m.sorted.map _ fun _ _ h => h⟩

theorem find_map (f : κ → α → β) (k : κ) (l : List (κ × α)) :
    find k (l.map fun e => (e.1, f e.1 e.2)) = (find k l).map (f k) := by
  induction l with
  | nil => rfl
  | cons b l ih =>
    by_cases hk : b.1 = k
    · simp [find, hk]
    · simp [find, hk, ih]

variable {f : κ → α → β}

theorem get?_mapVals : (m.mapVals f).get? k = (m.get? k).map (f k) := find_map f k m.entries

/-- Rewrite the value of one key, if it is bound. -/
def modify (m : OrdMap κ α) (k : κ) (f : α → α) : OrdMap κ α :=
  m.mapVals fun k' a => if k' = k then f a else a

theorem get?_modify {f : α → α} : (m.modify k f).get? k' = if k' = k then (m.get? k').map f else m.get? k' := by
  rw [modify, get?_mapVals]
  by_cases hk : k' = k
  · simp [hk]
  · simp [hk]

/-! ### The first binding -/

def min? (m : OrdMap κ α) : Option (κ × α) := m.entries.head?

theorem min?_eq_none (h : m.min? = none) : m.get? k = none := by
  have he : m.entries = [] := List.head?_eq_none_iff.mp h
  simp [get?, he, find]

theorem entries_erase_head (h : m.entries = (k, a) :: l) : (m.erase k).entries = l := by
  have hs := m.sorted
  rw [h, List.pairwise_cons] at hs
  have hl : ∀ e ∈ l, decide (e.1 ≠ k) = true := fun e he => by simpa using (hs.1 e he).ne'
  simp only [erase, filter, h, List.filter_cons, ne_eq]
  exact List.filter_eq_self.mpr hl

def size (m : OrdMap κ α) : Nat := m.entries.length

/-! ### Counting bindings -/

def count (m : OrdMap κ α) (p : κ → α → Bool) : Nat := m.entries.countP fun e => p e.1 e.2

@[simp] theorem count_empty : (empty : OrdMap κ α).count p = 0 := rfl

theorem size_eq_count (m : OrdMap κ α) : m.size = m.count fun _ _ => true := by
  simp [size, count]

theorem insertList_perm (h : ∀ e ∈ l, e.1 ≠ k) (a : α) : (insertList k a l).Perm ((k, a) :: l) := by
  induction l with
  | nil => exact .refl _
  | cons b l ih =>
    obtain ⟨k', a'⟩ := b
    have hk : k ≠ k' := fun e => h (k', a') (.head _) e.symm
    simp only [insertList]
    split
    · exact .refl _
    · exact ((ih fun e he => h e (.tail _ he)).cons _).trans (.swap _ _ _)

theorem forall_ne_of_get?_eq_none (h : m.get? k = none) : ∀ e ∈ m.entries, e.1 ≠ k := by
  rintro ⟨k', a'⟩ he rfl
  rw [mem_entries_iff, h] at he
  cases he

theorem count_insert_fresh (h : m.get? k = none) (a : α) (p : κ → α → Bool) :
    (m.insert k a).count p = m.count p + if p k a then 1 else 0 := by
  have hp := (insertList_perm (forall_ne_of_get?_eq_none h) a).countP_eq fun e => p e.1 e.2
  simpa [count, insert, List.countP_cons] using hp

theorem count_filter {q : κ → α → Bool} : (m.filter q).count p = m.count fun k a => p k a && q k a := by
  simp [count, filter, List.countP_filter]

variable {q : κ → α → Bool}

theorem count_le_count (h : ∀ k a, m.get? k = some a → p k a → q k a) : m.count p ≤ m.count q :=
  List.countP_mono_left fun ⟨k, a⟩ he => h k a (mem_entries_iff.mp he)

/-- If every counted binding has a counted one under the same key in another map, that map counts no fewer. -/
theorem count_le_of_forall {m' : OrdMap κ β} {p' : κ → β → Bool}
    (h : ∀ k b, m'.get? k = some b → p' k b = true → ∃ a, m.get? k = some a ∧ p k a = true) :
    m'.count p' ≤ m.count p := by
  have hn : ((m'.entries.filter fun e => p' e.1 e.2).map Prod.fst).Nodup := by
    have hlt := (m'.sorted.filter fun e => p' e.1 e.2).map Prod.fst fun _ _ hab => hab
    exact hlt.imp fun hab => ne_of_lt hab
  have hs : (m'.entries.filter fun e => p' e.1 e.2).map Prod.fst ⊆
      (m.entries.filter fun e => p e.1 e.2).map Prod.fst := by
    intro k hk
    simp only [List.mem_map, List.mem_filter, Prod.exists, mem_entries_iff] at hk ⊢
    obtain ⟨k', b, ⟨hb, hp'⟩, rfl⟩ := hk
    obtain ⟨a, ha, hp⟩ := h k' b hb hp'
    exact ⟨k', a, ⟨ha, hp⟩, rfl⟩
  have hl := (List.subperm_of_subset hn hs).length_le
  simpa [count, List.countP_eq_length_filter] using hl

theorem count_filter_le (m : OrdMap κ α) (p q : κ → α → Bool) : (m.filter q).count p ≤ m.count p := by
  rw [count_filter]
  exact count_le_count fun k a _ hp => by simp_all

theorem count_erase_le (m : OrdMap κ α) (k : κ) (p : κ → α → Bool) : (m.erase k).count p ≤ m.count p :=
  count_filter_le m p _

theorem count_mapVals {p : κ → β → Bool} : (m.mapVals f).count p = m.count fun k a => p k (f k a) := by
  simp [count, mapVals, Function.comp_def]

theorem count_eq_zero : m.count p = 0 ↔ ∀ k a, m.get? k = some a → p k a = false := by
  simp only [count, List.countP_eq_zero, Prod.forall, mem_entries_iff, Bool.not_eq_true]

theorem count_congr (h : ∀ k a, m.get? k = some a → p k a = q k a) : m.count p = m.count q :=
  le_antisymm (count_le_count fun k a hk hp => (h k a hk).symm.trans hp)
    (count_le_count fun k a hk hp => (h k a hk).trans hp)

/-- Binding a dropped key again undoes the dropping. -/
theorem insert_erase (h : m.get? k = some a) : (m.erase k).insert k a = m := by
  refine ext_get? fun k' => ?_
  by_cases hk : k' = k
  · subst hk
    rw [get?_insert_self, h]
  · rw [get?_insert_of_ne hk, get?_erase_of_ne hk]

theorem count_erase_add (h : m.get? k = some a) (p : κ → α → Bool) :
    (m.erase k).count p + (if p k a then 1 else 0) = m.count p := by
  rw [← count_insert_fresh get?_erase_self a p, insert_erase h]

/-! ### The values of a map -/

def values (m : OrdMap κ α) : List α := m.entries.map (·.2)

@[simp] theorem values_empty : (empty : OrdMap κ α).values = [] := rfl

@[simp] theorem length_values : m.values.length = m.size := List.length_map _

theorem size_insert_le {m : OrdMap κ α} {k : κ} {a : α} : (m.insert k a).size ≤ m.size + 1 := by
  have he : (m.insert k a).count (fun _ _ => true) ≤ ((m.erase k).insert k a).count fun _ _ => true := by
    refine count_le_of_forall fun k' b hg _ => ⟨b, ?_, rfl⟩
    rw [get?_insert, get?_erase]
    rw [get?_insert] at hg
    split_ifs at hg ⊢
    · exact hg
    · exact hg
  rw [count_insert_fresh get?_erase_self] at he
  have hl := count_erase_le m k fun _ _ => true
  simp only [size_eq_count]
  simp only [if_true] at he
  omega

theorem mem_values : a ∈ m.values ↔ ∃ k, m.get? k = some a := by
  simp [values, ← mem_entries_iff]

theorem values_insert_fresh (h : m.get? k = none) (a : α) : (m.insert k a).values.Perm (a :: m.values) :=
  (insertList_perm (forall_ne_of_get?_eq_none h) a).map Prod.snd

theorem values_filter_perm (m : OrdMap κ α) (p : α → Bool) :
    (m.dropped p ++ (m.filter fun _ a => p a).values).Perm m.values := by
  rw [dropped, values, filter, ← List.map_append]
  exact (List.perm_append_comm.trans (List.filter_append_perm _ _)).map _

theorem values_erase_perm (h : m.get? k = some a) : (a :: (m.erase k).values).Perm m.values := by
  have hp : ((m.erase k).insert k a).values.Perm _ := values_insert_fresh get?_erase_self a
  rw [insert_erase h] at hp
  exact hp.symm

end OrdMap

end Vitrin.Lib
