import Vitrin.Core.Enforcement
import Vitrin.Lib.Machine

/-!
# The rate limit of a grant

A grant carries a ceiling of events per second. The chokepoint keeps a bucket for it that
is full at first, holds one second's worth, and gains a token every `interval_ns`, which is
rounded up so that the sustained rate stays below the ceiling.

`takeToken` of `Enforcement` computes in unbounded numbers. `takeChecked` is the same
function in the widths that the source has, where an addition that overflows, a conversion
that truncates or an instant past the end of the clock is a failure.

Over every run of takes the two agree (`bucket_bound`), except at the end of the clock,
where the instant of the next token does not exist (`takeChecked_end_of_clock`).
-/

namespace Vitrin

open Lib Chokepoint
open Option (bind_some)
open Instant (bound)

/-! ### In machine widths -/

/-- A value in a word of `w` bits. -/
def word (w n : Nat) : Option Nat := if n < 2 ^ w then some n else none

/-- The refill: a full bucket drops the excess, and otherwise the anchor advances by the time credited. -/
def refillChecked (b : Bucket) (rate : NonZeroU32) (now : Instant) : Option Bucket := do
  let interval ← word 64 (intervalNs rate)
  let elapsed ← word 128 (now - b.anchor)
  let credit := elapsed / interval
  if 0 < credit then do
    let total ← word 128 (b.tokens + credit)
    if rate.val.toNat ≤ total then some ⟨rate.val.toNat, now⟩
    else do
      let tokens ← word 32 total
      let credited ← (word 128 (credit * interval)).bind (word 64)
      let anchor ← checkedAdd b.anchor credited
      some ⟨tokens, anchor⟩
  else some b

/-- `TokenBucket::take`; none if it overflows, truncates or leaves the clock. -/
def takeChecked (b : Bucket) (rate : NonZeroU32) (now : Instant) : Option (Bucket × Except Nat Unit) := do
  let b ← refillChecked b rate now
  if 0 < b.tokens then some ({ b with tokens := b.tokens - 1 }, .ok ())
  else do
    let nextTokenAt ← checkedAdd b.anchor (intervalNs rate)
    let wait := nextTokenAt - now
    let ms ← word 32 (min (max ((wait + 999999) / 1000000) 1) (2 ^ 32 - 1))
    some (b, .error ms)

theorem intervalNs_le (rate : NonZeroU32) : intervalNs rate ≤ 1000000000 := by
  have hp := rate.pos
  rw [intervalNs, Nat.div_le_iff_le_mul_add_pred hp]
  omega

theorem word_of_lt {w n : Nat} (h : n < 2 ^ w) : word w n = some n := if_pos h

variable {rate : NonZeroU32}

/-- What is credited to a bucket that does not fill up takes less than two seconds. -/
theorem credit_mul_interval_lt {c : Nat} (h : c < rate.val.toNat) : c * intervalNs rate < 2 ^ 64 := by
  have hr : rate.val.toNat < 2 ^ 32 := rate.val.toNat_lt
  calc c * intervalNs rate ≤ 2 ^ 32 * 1000000000 := Nat.mul_le_mul (by omega) (intervalNs_le rate)
    _ < 2 ^ 64 := by decide

section Checked

variable {b : Bucket} {now : Nat}

variable (h : b.Sound rate.val.toNat now)

include h

theorem refillChecked_eq (hn : now < bound) :
    refillChecked b rate now = some (b.credit rate.val.toNat (intervalNs rate) now) := by
  have hr : rate.val.toNat < 2 ^ 32 := rate.val.toNat_lt
  have hi := intervalNs_le rate
  have hb : bound < 2 ^ 94 := by decide
  have hcr : (now - b.anchor) / intervalNs rate ≤ now - b.anchor := Nat.div_le_self _ _
  have hp := Nat.div_mul_le_self (now - b.anchor) (intervalNs rate)
  have ht := h.tokens
  rw [refillChecked, word_of_lt (by omega), word_of_lt (by omega), Bucket.credit]
  simp only [Option.bind_eq_bind, bind_some]
  split_ifs with hg hf
  · rw [word_of_lt (by omega), bind_some, if_pos hf]
  · have hfe : (now - b.anchor) / intervalNs rate < rate.val.toNat := by omega
    have hc : b.anchor + (now - b.anchor) / intervalNs rate * intervalNs rate < bound := by omega
    have ha : checkedAdd b.anchor ((now - b.anchor) / intervalNs rate * intervalNs rate) = some _ := if_pos hc
    rw [word_of_lt (by omega), bind_some, if_neg hf, word_of_lt (by omega), bind_some,
      word_of_lt (by omega), bind_some, word_of_lt (credit_mul_interval_lt hfe), bind_some, ha,
      bind_some]
  · rfl

/-- A take computes what it would in unbounded numbers, unless it is refused at the end of the clock. -/
theorem takeChecked_eq (hno : now < bound)
    (hn : (takeToken b rate now).2 = .ok () ∨ now + intervalNs rate < bound) :
    takeChecked b rate now = some (takeToken b rate now) := by
  have hcr : (b.credit rate.val.toNat (intervalNs rate) now).Sound rate.val.toNat now := h.credit
  rw [takeChecked, refillChecked_eq h hno]
  rw [takeToken, Bucket.take] at hn ⊢
  simp only [Option.bind_eq_bind, bind_some]
  generalize b.credit rate.val.toNat (intervalNs rate) now = b' at *
  by_cases hp : 0 < b'.tokens
  · simp [if_pos hp]
  · simp only [if_neg hp, reduceCtorEq, false_or] at hn ⊢
    have han := hcr.anchor
    have hc : b'.anchor + intervalNs rate < bound := by omega
    have ha : checkedAdd b'.anchor (intervalNs rate) = some (b'.anchor + intervalNs rate) := if_pos hc
    rw [ha, bind_some, word_of_lt (by omega), bind_some]

end Checked

/-! ### Runs of takes -/

def bucketStep (rate : NonZeroU32) : Machine Bucket Instant (Except Nat Unit) := fun b now => takeToken b rate now

/-- How many takes of a run at an instant with property `p` succeed. -/
def takes (rate : NonZeroU32) (p : Instant → Bool) (b : Bucket) (times : List Instant) : Nat :=
  (times.zip ((bucketStep rate).outs b times)).countP fun x => p x.1 && x.2.isOk

theorem takes_eq_granted {rate : NonZeroU32} {p : Instant → Bool} {b : Bucket} {t : List Instant} :
    takes rate p b t = b.granted rate.val.toNat (intervalNs rate) p t := by
  induction t generalizing b with
  | nil => rfl
  | cons now r ih =>
    have hr := @ih (takeToken b rate now).1
    rw [takes, Machine.outs_cons, List.zip_cons_cons, List.countP_cons, Bucket.granted, ← takeToken_fst,
      ← takeToken_isOk, ← hr, Nat.add_comm]
    congr 1
    change (if (p now && (takeToken b rate now).2.isOk) = true then 1 else 0) = _
    cases p now && (takeToken b rate now).2.isOk <;> rfl

variable {b : Bucket}

theorem takeToken_sound {now : Instant} (h : b.Sound rate.val.toNat now) :
    (takeToken b rate now).1.Sound rate.val.toNat now := by
  rw [takeToken_fst]
  exact h.take

theorem bucketRun_sound {p : List Instant} {now : Instant} (hc : b.tokens ≤ rate.val.toNat)
    (hs : (b.anchor :: p ++ [now]).Pairwise (· ≤ ·)) : ((bucketStep rate).exec b p).Sound rate.val.toNat now := by
  induction p generalizing b with
  | nil =>
    obtain ⟨hn, -⟩ := List.pairwise_cons.mp hs
    exact ⟨hc, hn now (.head _)⟩
  | cons f p ih =>
    obtain ⟨hf, hr⟩ := List.pairwise_cons.mp hs
    obtain ⟨hl, hp⟩ := List.pairwise_cons.mp hr
    have hso : (takeToken b rate f).1.Sound rate.val.toNat f := takeToken_sound ⟨hc, hf f (.head _)⟩
    refine ih hso.tokens (List.pairwise_cons.mpr ⟨fun t ht => hso.anchor.trans (hl t ht), hp⟩)

/-- A refused take says how long to wait: by then its bucket has gained a token. -/
theorem takeToken_hint {now ms : Nat} (hs : b.Sound rate.val.toNat now) (h : (takeToken b rate now).2 = .error ms) :
    1 ≤ ms ∧ (takeToken b rate now).1.anchor + intervalNs rate ≤ now + millis ms := by
  have hi := intervalNs_le rate
  have ha := (@Bucket.Sound.take rate.val.toNat (intervalNs rate) b now hs).anchor
  unfold takeToken at h ⊢
  split at h
  · cases h
  · rename_i b' ht
    rw [ht] at ha
    obtain rfl := Except.error.inj h
    dsimp only at ha ⊢
    -- the wait is at most a second, so the clamp to 32 bits does nothing
    rw [millis]
    exact ⟨by omega, by omega⟩

/-- **The rate limit.** Take tokens from a bucket that is full at `t0` at instants that do
not decrease and are an interval away from the end of the clock. No computation overflows or
truncates; the bucket is never more than full and its anchor never ahead of time; a refused
take gives a hint of at least a millisecond, and any take after that long succeeds; and what
is granted up to an instant and in a window is bounded by the rate. -/
theorem bucket_bound (rate : NonZeroU32) (t0 : Instant) (times : List Instant)
    (hsorted : (t0 :: times).Pairwise (· ≤ ·)) (hclock : ∀ now ∈ times, now + intervalNs rate < Instant.bound) :
    (∀ past now rest, times = past ++ now :: rest →
      let b := (bucketStep rate).exec (fullBucket rate t0) past
      let ta := takeToken b rate now
      takeChecked b rate now = some ta ∧ ta.1.tokens ≤ rate.val.toNat ∧ ta.1.anchor ≤ now ∧
        ∀ ms, ta.2 = .error ms → 1 ≤ ms ∧ ∀ n' < Instant.bound, now + millis ms ≤ n' →
          (takeChecked ta.1 rate n').map Prod.snd = some (.ok ())) ∧
      (∀ t, takes rate (· ≤ t) (fullBucket rate t0) times ≤ rate.val.toNat + (t - t0) / intervalNs rate) ∧
      ∀ s l, takes rate (fun now => s ≤ now && now ≤ s + l) (fullBucket rate t0) times ≤
        rate.val.toNat + l / intervalNs rate + 1 := by
  obtain ⟨hst, hti⟩ := List.pairwise_cons.mp hsorted
  refine ⟨?_, fun t => ?_, fun s l => ?_⟩
  · rintro past now rest rfl b ta
    have hn : now + intervalNs rate < bound := hclock now (by simp)
    have hpr : (t0 :: past ++ [now]).Pairwise (· ≤ ·) := by
      refine hsorted.sublist (List.Sublist.cons_cons t0 ?_)
      exact (List.Sublist.refl past).append (List.Sublist.cons_cons now (List.nil_sublist rest))
    have hs : b.Sound rate.val.toNat now := bucketRun_sound (b := fullBucket rate t0) le_rfl hpr
    have ht : ta.1.Sound rate.val.toNat now := takeToken_sound hs
    refine ⟨takeChecked_eq hs (Nat.lt_of_le_of_lt (Nat.le_add_right _ _) hn) (.inr hn), ht.tokens,
      ht.anchor, fun ms hm => ?_⟩
    obtain ⟨hp, hhint⟩ := takeToken_hint hs hm
    refine ⟨hp, fun n' hn' hw => ?_⟩
    have hta : (ta.1.take rate.val.toNat (intervalNs rate) n').2 = true :=
      Bucket.take_after_interval rate.pos (intervalNs_pos rate) (hhint.trans hw)
    have hok : (takeToken ta.1 rate n').2 = .ok () := by
      have hi := (takeToken_isOk ta.1 rate n').trans hta
      cases ha : (takeToken ta.1 rate n').2 with
      | ok => rfl
      | error m' => rw [ha] at hi; cases hi
    have hl : now ≤ n' := (Nat.le_add_right _ _).trans hw
    rw [takeChecked_eq (ht.later hl) hn' (.inl hok), Option.map_some, hok]
  · rw [takes_eq_granted]
    exact Bucket.granted_le (intervalNs_pos rate) hst hti le_rfl
  · rw [takes_eq_granted]
    exact Bucket.grantedIn_le (intervalNs_pos rate) hst hti le_rfl

/-- Two events a second: three takes at once, of which the last is refused, and one later. -/
theorem bucket_bound_two_a_second :
    takes ⟨2, by decide⟩ (· ≤ 600000000) (fullBucket ⟨2, by decide⟩ 0) [0, 0, 0, 600000000] ≤
      2 + 600000000 / intervalNs ⟨2, by decide⟩ := by
  have hc : ∀ now ∈ [0, 0, 0, 600000000], now + intervalNs ⟨2, by decide⟩ < bound := by decide
  exact (bucket_bound ⟨2, by decide⟩ 0 [0, 0, 0, 600000000] (by decide) hc).2.1 600000000

/-- At the end of the clock a take that is refused asks for an instant that does not exist. -/
theorem takeChecked_end_of_clock : let rate : NonZeroU32 := ⟨1, by decide⟩
    let b := (bucketStep rate).exec (fullBucket rate (Instant.bound - 1)) [Instant.bound - 1]
    takeChecked b rate (Instant.bound - 1) = none := by
  decide

end Vitrin
