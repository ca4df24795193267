import Mathlib.Data.Nat.Digits.Lemmas

/-!
# Little-endian numbers

A number of a fixed width as bytes, the least significant first, and back. Reading is
Mathlib's `Nat.ofDigits` at base 256; `leNat_leBytes` and `leBytes_leNat` say that writing
is its inverse on numbers that fit and on bytes of that width.
-/

namespace Vitrin.Lib

/-- The low `w` bytes of a number, the least significant first. -/
def leBytes (w n : Nat) : List UInt8 := (List.range w).map fun i => UInt8.ofNat (n / 256 ^ i)

def leNat (bytes : List UInt8) : Nat := Nat.ofDigits 256 (bytes.map UInt8.toNat)

@[simp] theorem length_leBytes {w n : Nat} : (leBytes w n).length = w := by simp [leBytes]

theorem leBytes_succ {w n : Nat} : leBytes (w + 1) n = UInt8.ofNat n :: leBytes w (n / 256) := by
  simp only [leBytes, List.range_succ_eq_map]
  simp [Nat.div_div_eq_div_mul, Nat.pow_succ']

theorem leNat_cons {b : UInt8} {bs : List UInt8} : leNat (b :: bs) = b.toNat + 256 * leNat bs := Nat.ofDigits_cons

theorem leNat_lt (byt : List UInt8) : leNat byt < 256 ^ byt.length := by
  have h := Nat.ofDigits_lt_base_pow_length (b := 256) (l := byt.map UInt8.toNat) (by decide)
    fun x hx => by
      obtain ⟨b, -, rfl⟩ := List.mem_map.mp hx
      exact b.toNat_lt
  rwa [List.length_map] at h

theorem leNat_leBytes {w n : Nat} : leNat (leBytes w n) = n % 256 ^ w := by
  induction w generalizing n with
  | zero => simp [leBytes, leNat, Nat.mod_one]
  | succ w ih =>
    have hm : n % 256 ^ (w + 1) = n % 256 + 256 * (n / 256 % 256 ^ w) := by rw [Nat.pow_succ', Nat.mod_mul]
    rw [leBytes_succ, leNat_cons, ih, hm]
    exact congrArg (· + _) UInt8.toNat_ofNat'

theorem leBytes_leNat {byt : List UInt8} : leBytes byt.length (leNat byt) = byt := by
  induction byt with
  | nil => rfl
  | cons b bs ih =>
    have hb : b.toNat < 256 := b.toNat_lt
    have hh : UInt8.ofNat (leNat (b :: bs)) = b := by
      rw [← UInt8.toNat_inj, leNat_cons, UInt8.toNat_ofNat']
      omega
    have ht : leNat (b :: bs) / 256 = leNat bs := by
      rw [leNat_cons]
      omega
    rw [List.length_cons, leBytes_succ, hh, ht, ih]

/-! ### Words -/

theorem ofNat_leNat_leBytes {w : UInt32} : UInt32.ofNat (leNat (leBytes 4 w.toNat)) = w := by
  have hl : w.toNat < 256 ^ 4 := w.toNat_lt
  rw [leNat_leBytes, Nat.mod_eq_of_lt hl, UInt32.ofNat_toNat]

theorem ofNat_leNat_leBytes_half {w : UInt16} : UInt16.ofNat (leNat (leBytes 2 w.toNat)) = w := by
  have hl : w.toNat < 256 ^ 2 := w.toNat_lt
  rw [leNat_leBytes, Nat.mod_eq_of_lt hl, UInt16.ofNat_toNat]

variable {b : List UInt8}

theorem leBytes_ofNat_leNat (h : b.length = 4) : leBytes 4 (UInt32.ofNat (leNat b)).toNat = b := by
  have hl : leNat b < 256 ^ 4 := h ▸ leNat_lt b
  rw [UInt32.toNat_ofNat_of_lt' hl, ← h, leBytes_leNat]

theorem leBytes_ofNat_leNat_half (h : b.length = 2) : leBytes 2 (UInt16.ofNat (leNat b)).toNat = b := by
  have hl : leNat b < 256 ^ 2 := h ▸ leNat_lt b
  rw [UInt16.toNat_ofNat_of_lt' hl, ← h, leBytes_leNat]

end Vitrin.Lib
