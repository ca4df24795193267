import Mathlib.Order.Nat
import Mathlib.Data.Nat.Init

/-!
# A token bucket that is refilled when it is read

A bucket holds at most `cap` tokens and gains one every `interval` units of time. No
clock runs for it: the tokens it has gained are credited when it is next looked at.
An anchor remembers up to when they have been, so that the fraction of an interval
that has passed since is not lost.

`level` is what the bucket holds at an instant, credits included. Crediting is
settled by doing it once (`settled_credit`), so a successful `take` lowers the level
by exactly one, and a failed one leaves it (`level_take`).

Over a run of takes, what can still be had up to an instant (`prospect`) is never raised
by crediting and is lowered by every successful take. That bounds the successes up to an
instant (`granted_le`) and in a window (`grantedIn_le`).
-/

namespace Vitrin.Lib

/-- A bucket: the tokens credited so far, and up to when. -/
structure Bucket where
  tokens : Nat
  anchor : Nat

namespace Bucket

variable (cap interval : Nat)

/-- Credit what has been gained since the anchor. A full bucket forgets the surplus. -/
def credit (b : Bucket) (now : Nat) : Bucket :=
  let gained := (now - b.anchor) / interval
  if 0 < gained then
    if cap ≤ b.tokens + gained then ⟨cap, now⟩
    else ⟨b.tokens + gained, b.anchor + gained * interval⟩
  else b

/-- What the bucket holds at `now`. -/
def level (b : Bucket) (now : Nat) : Nat := (credit cap interval b now).tokens

def take (b : Bucket) (now : Nat) : Bucket × Bool :=
  let b := credit cap interval b now
  if 0 < b.tokens then ({ b with tokens := b.tokens - 1 }, true) else (b, false)

/-- Nothing is left to credit at `now`. -/
def Settled (b : Bucket) (now : Nat) : Prop := (now - b.anchor) / interval = 0

variable {cap interval} {b : Bucket} {now : Nat}

theorem credit_of_settled (h : b.Settled interval now) : credit cap interval b now = b := by
  unfold Settled at h
  simp [credit, h]

theorem settled_credit (hi : 0 < interval) : (credit cap interval b now).Settled interval now := by
  unfold credit Settled
  simp only
  split
  · rename_i hg
    split
    · simp
    · -- what is left after whole intervals are credited is less than one
      show (now - (b.anchor + (now - b.anchor) / interval * interval)) / interval = 0
      have hd := Nat.div_add_mod (now - b.anchor) interval
      have hm := Nat.mod_lt (now - b.anchor) hi
      rw [Nat.mul_comm] at hd
      exact Nat.div_eq_of_lt (by omega)
  · rename_i hg
    exact Nat.eq_zero_of_not_pos hg

theorem level_of_settled (h : b.Settled interval now) : level cap interval b now = b.tokens := by
  rw [level, credit_of_settled h]

theorem level_take (hi : 0 < interval) : level cap interval (take cap interval b now).1 now +
    (if (take cap interval b now).2 then 1 else 0) = level cap interval b now := by
  have hs : (credit cap interval b now).Settled interval now := settled_credit hi
  unfold take
  dsimp only
  split
  · rename_i hp
    have hs' : Settled interval ⟨(credit cap interval b now).tokens - 1, (credit cap interval b now).anchor⟩ now := hs
    rw [if_pos rfl, level_of_settled hs', level]
    exact Nat.sub_add_cancel hp
  · rw [level_of_settled hs, level]
    rfl

/-! ### What a bucket can hold -/

/-- No more tokens than there is room for, and nothing credited ahead of time. -/
structure Sound (cap : Nat) (b : Bucket) (now : Nat) : Prop where
  tokens : b.tokens ≤ cap
  anchor : b.anchor ≤ now

theorem Sound.later {n' : Nat} (h : b.Sound cap now) (hn : now ≤ n') : b.Sound cap n' := ⟨h.tokens, h.anchor.trans hn⟩

theorem Sound.credit (h : b.Sound cap now) : (credit cap interval b now).Sound cap now := by
  unfold Bucket.credit
  simp only
  split_ifs with hg hf
  · exact ⟨le_rfl, le_rfl⟩
  · have hc := Nat.div_mul_le_self (now - b.anchor) interval
    have ha := h.anchor
    exact ⟨(Nat.lt_of_not_le hf).le, by change b.anchor + _ ≤ now; omega⟩
  · exact h

theorem Sound.take (h : b.Sound cap now) : (take cap interval b now).1.Sound cap now := by
  have hc : (Bucket.credit cap interval b now).Sound cap now := h.credit
  unfold Bucket.take
  simp only
  split_ifs
  · exact ⟨(Nat.sub_le _ _).trans hc.tokens, hc.anchor⟩
  · exact hc

/-! ### What can still be had -/

/-- The tokens there are, and those to be gained up to `t`. -/
def prospect (interval : Nat) (b : Bucket) (t : Nat) : Nat := b.tokens + (t - b.anchor) / interval

section

variable (hi : 0 < interval)

include hi

theorem prospect_credit_le {t : Nat} (h : b.anchor ≤ now) (ht : now ≤ t) :
    (credit cap interval b now).prospect interval t ≤ b.prospect interval t := by
  have hc := Nat.div_mul_le_self (now - b.anchor) interval
  have hs (n : Nat) (hn : n * interval ≤ t - b.anchor) :
      (t - b.anchor) / interval = (t - (b.anchor + n * interval)) / interval + n := by
    rw [← Nat.add_mul_div_right _ n hi]
    congr 1
    omega
  unfold credit prospect
  simp only
  split_ifs with hg hf
  · -- a full bucket gains only from now on
    have hl : (t - now) / interval ≤ (t - (b.anchor + (now - b.anchor) / interval * interval)) / interval :=
      Nat.div_le_div_right (by omega)
    have := hs _ (hc.trans (by omega))
    dsimp only
    omega
  · have := hs _ (hc.trans (by omega))
    dsimp only
    omega
  · exact le_rfl

theorem prospect_take_le {t : Nat} (h : b.anchor ≤ now) (ht : now ≤ t) :
    (take cap interval b now).1.prospect interval t + (take cap interval b now).2.toNat ≤ b.prospect interval t := by
  have hc : (credit cap interval b now).prospect interval t ≤ b.prospect interval t := prospect_credit_le hi h ht
  refine le_trans ?_ hc
  unfold take prospect
  simp only
  split_ifs with hp
  · simp only [Bool.toNat_true]
    omega
  · simp

theorem credit_credit : credit cap interval (credit cap interval b now) now = credit cap interval b now :=
  credit_of_settled (settled_credit hi)

theorem take_credit : take cap interval (credit cap interval b now) now = take cap interval b now := by
  rw [take, credit_credit hi, take]

/-- Once credited, what can be had is at most a full bucket and a token for each interval begun. -/
theorem prospect_credited_le {l : Nat} (h : b.Sound cap now) {s : Nat}
    (hst : s ≤ now) : (credit cap interval b now).prospect interval (s + l) ≤
      cap + l / interval + 1 := by
  have hso : (credit cap interval b now).Sound cap now := h.credit
  have hs : (credit cap interval b now).Settled interval now := settled_credit hi
  have hr : now - (credit cap interval b now).anchor < interval := by
    rw [Settled, Nat.div_eq_zero_iff_lt hi] at hs
    exact hs
  have hg : (s + l - (credit cap interval b now).anchor) / interval ≤ (l + interval) / interval :=
    Nat.div_le_div_right (by omega)
  rw [Nat.add_div_right _ hi] at hg
  have ht := hso.tokens
  rw [prospect]
  omega

end

/-! ### Runs -/

/-- Of takes one after the other, how many at an instant with property `p` succeed. -/
def granted (cap interval : Nat) (p : Nat → Bool) (b : Bucket) : List Nat → Nat
  | [] => 0
  | now :: rest =>
    (p now && (take cap interval b now).2).toNat + granted cap interval p (take cap interval b now).1 rest

variable {ti : List Nat}

theorem granted_congr {p q : Nat → Bool} (h : ∀ now ∈ ti, p now = q now) :
    granted cap interval p b ti = granted cap interval q b ti := by
  induction ti generalizing b with
  | nil => rfl
  | cons now r ih =>
    obtain ⟨hn, hr⟩ := List.forall_mem_cons.mp h
    rw [granted, granted, hn, ih hr]

theorem granted_eq_zero {p : Nat → Bool} (h : ∀ now ∈ ti, p now = false) : granted cap interval p b ti = 0 := by
  induction ti generalizing b with
  | nil => rfl
  | cons now r ih =>
    obtain ⟨hn, hr⟩ := List.forall_mem_cons.mp h
    rw [granted, hn, ih hr]
    rfl

theorem granted_credit (hi : 0 < interval) (p : Nat → Bool) (r : List Nat) :
    granted cap interval p (credit cap interval b now) (now :: r) = granted cap interval p b (now :: r) := by
  rw [granted, granted, take_credit hi]

theorem granted_le {t : Nat} (hi : 0 < interval) (h : ∀ now ∈ ti, b.anchor ≤ now) (hso : ti.Pairwise (· ≤ ·))
    (hc : b.tokens ≤ cap) : granted cap interval (· ≤ t) b ti ≤ b.prospect interval t := by
  induction ti generalizing b with
  | nil => exact Nat.zero_le _
  | cons now r ih =>
    obtain ⟨hn, -⟩ := List.forall_mem_cons.mp h
    obtain ⟨hl, hr⟩ := List.pairwise_cons.mp hso
    by_cases ht : now ≤ t
    · have hs : (take cap interval b now).1.Sound cap now := Sound.take ⟨hc, hn⟩
      have hf : (take cap interval b now).1.prospect interval t + (take cap interval b now).2.toNat ≤
          b.prospect interval t := prospect_take_le hi hn ht
      have hg := ih (fun n' hn' => hs.anchor.trans (hl n' hn')) hr hs.tokens
      rw [granted, decide_eq_true ht, Bool.true_and]
      omega
    · -- this take and all later ones are past `t`
      have hp : ∀ n' ∈ now :: r, decide (n' ≤ t) = false := by
        intro n' hn'
        refine decide_eq_false fun hle => ht ?_
        rcases List.mem_cons.mp hn' with rfl | hm
        · exact hle
        · exact (hl n' hm).trans hle
      rw [granted_eq_zero hp]
      exact Nat.zero_le _

/-- In a window at most a full bucket is granted, and a token for each interval begun in it. -/
theorem grantedIn_le {s l : Nat} (hi : 0 < interval) (h : ∀ now ∈ ti, b.anchor ≤ now)
    (hsor : ti.Pairwise (· ≤ ·)) (hca : b.tokens ≤ cap) :
    granted cap interval (fun now => s ≤ now && now ≤ s + l) b ti ≤ cap + l / interval + 1 := by
  induction ti generalizing b with
  | nil => exact Nat.zero_le _
  | cons now r ih =>
    obtain ⟨hn, -⟩ := List.forall_mem_cons.mp h
    obtain ⟨hl, hr⟩ := List.pairwise_cons.mp hsor
    have hso : b.Sound cap now := ⟨hca, hn⟩
    by_cases hs : s ≤ now
    · -- the window has begun: credit the bucket, and count up to the window's end
      have hb : ∀ n' ∈ now :: r,
          (s ≤ n' && n' ≤ s + l : Bool) = decide (n' ≤ s + l) := by
        intro n' hn'
        rw [decide_eq_true, Bool.true_and]
        rcases List.mem_cons.mp hn' with rfl | hm
        · exact hs
        · exact hs.trans (hl n' hm)
      have hc : (credit cap interval b now).Sound cap now := hso.credit
      have ha : ∀ n' ∈ now :: r, (credit cap interval b now).anchor ≤ n' := by
        intro n' hn'
        rcases List.mem_cons.mp hn' with rfl | hm
        · exact hc.anchor
        · exact hc.anchor.trans (hl n' hm)
      rw [granted_congr hb, ← granted_credit hi]
      exact (granted_le hi ha hsor hc.tokens).trans (prospect_credited_le hi hso hs)
    · have hs' : (take cap interval b now).1.Sound cap now := hso.take
      rw [granted, decide_eq_false hs, Bool.false_and, Bool.false_and]
      simpa using ih (fun n' hn' => hs'.anchor.trans (hl n' hn')) hr hs'.tokens

theorem take_after_interval {n' : Nat} (hc : 0 < cap) (hi : 0 < interval)
    (h : b.anchor + interval ≤ n') : (take cap interval b n').2 = true := by
  have hg : 0 < (n' - b.anchor) / interval := Nat.div_pos (by omega) hi
  have hp : 0 < (credit cap interval b n').tokens := by
    unfold credit
    simp only
    split_ifs
    · exact hc
    · exact Nat.add_pos_right _ hg
  rw [take]
  simp [if_pos hp]

end Bucket

end Vitrin.Lib
