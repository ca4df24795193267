import Mathlib.Data.List.Induction

/-!
# Machines and their runs

A program that reacts to requests is a *machine*: a total function from a state
and a label to the next state and an output. Everything the environment decides
(which request comes next, what the clock reads, whether a send succeeds) is in
the label, so a run is determined by its first state and its labels, and "for
every interleaving" is "for every list of labels".

`exec` is the state a run ends in and `outs` the outputs along it. `Along G` says
that every step of a run meets a condition `G` on the state before it and its
label.

The induction over a run is packaged once: `exec_inv` for an invariant, `exec_along`
for an invariant that only steps meeting `G` keep, `exec_past` for a property of the
state together with the labels that led to it, and `outs_inv` for a property of
every output. `exec_erase` compares two runs, one of them with some labels deleted,
through a relation that a deleted label keeps on one side; `exec_changes` finds the
step that brought a property about.

`Runs` forgets the labels: a state is reached from another and this much is seen on the
way; `Reaches` forgets what is seen. This is how a machine is built over another: every
step of the upper one, seen through a function of its state, is a run of the lower one.
`Took` says that some step of a run was taken from a state and under a label of a kind.
-/

namespace Vitrin.Lib

universe u v w

/-- A machine: from a state and a label, the next state and an output. -/
abbrev Machine (σ : Type u) (ℓ : Type v) (ω : Type w) := σ → ℓ → σ × ω

namespace Machine

variable {σ : Type u} {ℓ : Type v} {ω : Type w} (M : Machine σ ℓ ω)

def exec (s : σ) : List ℓ → σ
  | [] => s
  | a :: as => exec (M s a).1 as

def outs (s : σ) : List ℓ → List ω
  | [] => []
  | a :: as => (M s a).2 :: outs (M s a).1 as

/-- Every step of the run meets `G`. -/
def Along (G : σ → ℓ → Prop) (s : σ) : List ℓ → Prop
  | [] => True
  | a :: as => G s a ∧ Along G (M s a).1 as

instance decidableAlong (G : σ → ℓ → Prop) [∀ s a, Decidable (G s a)] :
    ∀ (s : σ) (as : List ℓ), Decidable (M.Along G s as)
  | _, [] => .isTrue trivial
  | s, a :: as => @instDecidableAnd _ _ _ (decidableAlong G (M s a).1 as)

variable {s : σ}

@[simp] theorem exec_nil : M.exec s [] = s := rfl

variable {a : ℓ} {as : List ℓ}

@[simp] theorem exec_cons : M.exec s (a :: as) = M.exec (M s a).1 as := rfl

@[simp] theorem outs_nil : M.outs s [] = [] := rfl

@[simp] theorem outs_cons : M.outs s (a :: as) = (M s a).2 :: M.outs (M s a).1 as := rfl

section

variable (G : σ → ℓ → Prop)

@[simp] theorem along_nil (s : σ) : M.Along G s [] := trivial

@[simp] theorem along_cons : M.Along G s (a :: as) ↔ G s a ∧ M.Along G (M s a).1 as := Iff.rfl

variable (s : σ)

theorem exec_append (as bs : List ℓ) : M.exec s (as ++ bs) = M.exec (M.exec s as) bs := by
  induction as generalizing s with
  | nil => rfl
  | cons a as ih => exact ih _

theorem exec_concat (as : List ℓ) (a : ℓ) : M.exec s (as ++ [a]) = (M (M.exec s as) a).1 := by
  rw [exec_append]
  rfl

theorem outs_append (as bs : List ℓ) : M.outs s (as ++ bs) = M.outs s as ++ M.outs (M.exec s as) bs := by
  induction as generalizing s with
  | nil => rfl
  | cons a as ih => exact congrArg _ (ih _)

theorem along_append (as bs : List ℓ) : M.Along G s (as ++ bs) ↔ M.Along G s as ∧ M.Along G (M.exec s as) bs := by
  induction as generalizing s with
  | nil => simp
  | cons a as ih => simp [ih, and_assoc]

/-- Every step of a run meets `G` when the step after each beginning of the run does. -/
theorem along_iff (as : List ℓ) : M.Along G s as ↔ ∀ p a r, as = p ++ a :: r → G (M.exec s p) a := by
  constructor
  · rintro h p a r rfl
    exact ((M.along_append G s p (a :: r)).mp h).2.1
  · intro h
    induction as generalizing s with
    | nil => exact M.along_nil G s
    | cons a as ih => exact ⟨h [] a as rfl, ih _ fun p b r e => h (a :: p) b r (by rw [e]; rfl)⟩

end

variable {M}

theorem Along.and {G H : σ → ℓ → Prop} (hG : M.Along G s as) (hH : M.Along H s as) :
    M.Along (fun s a => G s a ∧ H s a) s as := by
  rw [along_iff] at hG hH ⊢
  intro p a r has
  exact ⟨hG p a r has, hH p a r has⟩

/-! ### Induction over a run -/

variable {P : σ → Prop}

/-- An invariant every step keeps holds at the end of every run. -/
theorem exec_inv (hs : ∀ s a, P s → P (M s a).1) (h : P s) (as : List ℓ) : P (M.exec s as) := by
  induction as generalizing s with
  | nil => exact h
  | cons a as ih => exact ih (hs s a h)

/-- An invariant every step that meets `G` keeps holds at the end of every run whose steps meet `G`. -/
theorem exec_along {G : σ → ℓ → Prop} (hs : ∀ s a, G s a → P s → P (M s a).1) (h : P s) (hG : M.Along G s as) :
    P (M.exec s as) := by
  induction as generalizing s with
  | nil => exact h
  | cons a as ih => exact ih (hs s a hG.1 h) hG.2

/-- A property of the labels so far and the state they led to, carried from the start to the end. -/
theorem exec_past {P : List ℓ → σ → Prop} (h : P [] s)
    (hs : ∀ p a, P p (M.exec s p) → P (p ++ [a]) (M (M.exec s p) a).1) (as : List ℓ) : P as (M.exec s as) := by
  induction as using List.reverseRecOn with
  | nil => exact h
  | append_singleton p a ih => exact M.exec_concat s p a ▸ hs p a ih

variable (M) in
/-- Some step of the run took a label and gave an output that satisfy `Q`. -/
def Happened (s : σ) (as : List ℓ) (Q : ℓ → ω → Prop) : Prop :=
  ∃ past a rest, as = past ++ a :: rest ∧ Q a (M (M.exec s past) a).2

variable {Q : ℓ → ω → Prop}

theorem not_happened_nil {s : σ} : ¬ M.Happened s [] Q := by
  rintro ⟨p, a, r, h, -⟩
  simp at h

theorem happened_concat : M.Happened s (as ++ [a]) Q ↔ M.Happened s as Q ∨ Q a (M (M.exec s as) a).2 := by
  constructor
  · rintro ⟨p, b, r, he, hQ⟩
    induction r using List.reverseRecOn with
    | nil =>
      obtain ⟨rfl, ha⟩ := List.append_inj' he rfl
      cases ha
      exact .inr hQ
    | append_singleton r c ih =>
      rw [← List.cons_append, ← List.append_assoc] at he
      exact .inl ⟨p, b, r, (List.append_inj' he rfl).1, hQ⟩
  · rintro (⟨p, b, r, rfl, hQ⟩ | hQ)
    · exact ⟨p, b, r ++ [a], by simp, hQ⟩
    · exact ⟨as, a, [], rfl, hQ⟩

variable (M) in
/-- Some step of the run was taken from a state and under a label that satisfy `Q`. -/
def Took (Q : σ → ℓ → Prop) (s : σ) (as : List ℓ) : Prop :=
  ∃ past a rest, as = past ++ a :: rest ∧ Q (M.exec s past) a

variable {Q : σ → ℓ → Prop}

theorem Took.concat (h : M.Took Q s as) (a : ℓ) : M.Took Q s (as ++ [a]) := by
  obtain ⟨p, b, r, rfl, hQ⟩ := h
  exact ⟨p, b, r ++ [a], by simp, hQ⟩

theorem took_last (h : Q (M.exec s as) a) : M.Took Q s (as ++ [a]) := ⟨as, a, [], rfl, h⟩

theorem mem_outs {o : ω} : o ∈ M.outs s as ↔ ∃ p a r, as = p ++ a :: r ∧ (M (M.exec s p) a).2 = o := by
  constructor
  · intro h
    induction as generalizing s with
    | nil => cases h
    | cons a as ih =>
      rcases List.mem_cons.mp h with rfl | h
      · exact ⟨[], a, as, rfl, rfl⟩
      · obtain ⟨p, b, r, rfl, hou⟩ := ih h
        exact ⟨a :: p, b, r, rfl, hou⟩
  · rintro ⟨p, a, r, rfl, rfl⟩
    rw [outs_append]
    exact List.mem_append_right _ (.head _)

theorem outs_inv {Q : ω → Prop} (hs : ∀ s a, P s → P (M s a).1) (hou : ∀ s a, P s → Q (M s a).2) (h : P s)
    (as : List ℓ) : ∀ o ∈ M.outs s as, Q o := by
  induction as generalizing s with
  | nil => simp
  | cons a as ih =>
    intro o ho
    rcases List.mem_cons.mp ho with rfl | ho
    · exact hou s a h
    · exact ih (hs s a h) o ho

/-- **At most once.** If answering `o` establishes something that every step keeps and that rules `o`
out, then no run answers `o` twice. -/
theorem outs_count_le_one [BEq ω] [LawfulBEq ω] {o : ω} (hs : ∀ s a, (M s a).2 = o → P (M s a).1)
    (hk : ∀ s a, P s → P (M s a).1) (hb : ∀ s a, P s → (M s a).2 ≠ o) (s : σ) (as : List ℓ) :
    (M.outs s as).count o ≤ 1 := by
  have hn : ∀ s, P s → ∀ as, (M.outs s as).count o = 0 := fun s h as =>
    List.count_eq_zero.mpr fun ho => outs_inv hk (Q := (· ≠ o)) hb h as o ho rfl
  induction as generalizing s with
  | nil => simp
  | cons a as ih =>
    rw [outs_cons, List.count_cons]
    by_cases ho : (M s a).2 = o
    · rw [hn _ (hs s a ho) as]
      split <;> omega
    · simpa [ho] using ih (M s a).1

/-! ### Deleting labels from a run -/

variable (M) in
/-- The outputs at the labels that satisfy `p`. -/
def outsAt (p : ℓ → Bool) (s : σ) : List ℓ → List ω
  | [] => []
  | a :: as => if p a then (M s a).2 :: outsAt p (M s a).1 as else outsAt p (M s a).1 as

/-- **Erasure.** A relation between two states and the labels still to come that survives a deleted label
on the left alone, and a kept label on both sides with equal outputs, compares a run with the same run
without the labels outside `p`: they end related and answer the kept labels alike. -/
theorem exec_erase {R : List ℓ → σ → σ → Prop} {p : ℓ → Bool}
    (hd : ∀ s t a as, R (a :: as) s t → p a = false → R as (M s a).1 t)
    (hk : ∀ s t a as, R (a :: as) s t → p a = true → R as (M s a).1 (M t a).1 ∧ (M s a).2 = (M t a).2) {t : σ}
    (as : List ℓ) (h : R as s t) :
    R [] (M.exec s as) (M.exec t (as.filter p)) ∧ M.outsAt p s as = M.outs t (as.filter p) := by
  induction as generalizing s t with
  | nil => exact ⟨h, rfl⟩
  | cons a as ih =>
    cases hp : p a with
    | false => simpa [outsAt, hp] using ih (hd s t a as h hp)
    | true =>
      obtain ⟨hR, ho⟩ := hk s t a as h hp
      obtain ⟨hR', ho'⟩ := ih hR
      simp only [List.filter_cons_of_pos hp, outs_cons, outsAt, hp, if_true]
      exact ⟨hR', by rw [ho, ho']⟩

universe x

variable (M) in
/-- Some run from `s` ends in `t`, and `o` is what `v` lets through of its outputs. -/
def Runs {γ : Type x} (v : ω → List γ) (s : σ) (o : List γ) (t : σ) : Prop :=
  ∃ as, M.exec s as = t ∧ (M.outs s as).flatMap v = o

section Runs

variable {γ : Type x} {v : ω → List γ} {t t' : σ} {o o' : List γ}

theorem Runs.refl (v : ω → List γ) (s : σ) : M.Runs v s [] s := ⟨[], rfl, rfl⟩

theorem Runs.step (v : ω → List γ) (s : σ) (a : ℓ) : M.Runs v s (v (M s a).2) (M s a).1 := ⟨[a], rfl, by simp⟩

variable (h : M.Runs v s o t)

include h

theorem Runs.trans (h' : M.Runs v t o' t') : M.Runs v s (o ++ o') t' := by
  obtain ⟨as, rfl, rfl⟩ := h
  obtain ⟨bs, rfl, rfl⟩ := h'
  exact ⟨as ++ bs, M.exec_append s as bs, by rw [outs_append, List.flatMap_append]⟩

theorem Runs.induct {R : List γ → σ → Prop} (hn : R [] s)
    (hs : ∀ o t a, R o t → R (o ++ v (M t a).2) (M t a).1) : R o t := by
  obtain ⟨as, rfl, rfl⟩ := h
  refine exec_past (P := fun as t => R ((M.outs s as).flatMap v) t) hn (fun p a ih => ?_) as
  rw [outs_append, List.flatMap_append]
  simpa using hs _ _ a ih

theorem Runs.inv (hst : ∀ t a, P t → P (M t a).1) (hs : P s) : P t :=
  h.induct (R := fun _ => P) hs fun _ t a => hst t a

end Runs

variable (M) in
/-- Some run from `s` ends in `t`. -/
def Reaches (s t : σ) : Prop := ∃ as, M.exec s as = t

section Reaches

variable {t t' : σ}

theorem Reaches.refl (s : σ) : M.Reaches s s := ⟨[], rfl⟩

theorem Reaches.step (s : σ) (a : ℓ) : M.Reaches s (M s a).1 := ⟨[a], rfl⟩

theorem Reaches.trans (h : M.Reaches s t) (h' : M.Reaches t t') : M.Reaches s t' := by
  obtain ⟨as, rfl⟩ := h
  obtain ⟨bs, rfl⟩ := h'
  exact ⟨as ++ bs, M.exec_append s as bs⟩

theorem Reaches.inv (h : M.Reaches s t) (hst : ∀ t a, P t → P (M t a).1) (hs : P s) : P t := by
  obtain ⟨as, rfl⟩ := h
  exact exec_inv hst hs as

end Reaches

end Machine

end Vitrin.Lib
