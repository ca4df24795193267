import Mathlib.Data.List.Induction

/-!
# Text kept as its UTF-8 bytes

An editor that keeps a line as bytes appends a character by appending its encoding
and deletes one by popping bytes until one that is not a continuation byte has gone.

On the encoding of a text, popping removes exactly its last character
(`popChar_encode`), however many bytes it has: every encoding is one byte that starts a
character followed by continuation bytes (`utf8EncodeChar_lead`).
-/

namespace Vitrin.Lib.Utf8

def encode (cs : List Char) : List UInt8 := cs.flatMap String.utf8EncodeChar

def continues (b : UInt8) : Bool := b &&& 0xc0 == 0x80

/-- Pop bytes from the front until one that does not continue a character is gone. -/
def popFront : List UInt8 → List UInt8
  | [] => []
  | b :: bytes => if continues b then popFront bytes else bytes

def popChar (bytes : List UInt8) : List UInt8 := (popFront bytes.reverse).reverse

@[simp] theorem encode_nil : encode [] = [] := rfl

@[simp] theorem encode_append {cs ds : List Char} : encode (cs ++ ds) = encode cs ++ encode ds := List.flatMap_append

@[simp] theorem encode_singleton {c : Char} : encode [c] = String.utf8EncodeChar c := by
  simp [encode]

theorem encode_valid {cs : List Char} : (encode cs).toByteArray.IsValidUTF8 := ⟨cs, rfl⟩

/-! ### Where a character begins -/

theorem continues_low {n : Nat} (h : n < 64) : continues (.ofNat (n + 128)) = true := by
  revert n
  decide

theorem not_continues_ascii {n : Nat} (h : n < 128) : continues (.ofNat n) = false := by
  revert n
  decide

theorem not_continues_lead {n : Nat} (h : 192 ≤ n) (h' : n < 256) : continues (.ofNat n) = false := by
  obtain ⟨k, rfl⟩ := Nat.exists_eq_add_of_le h
  have hk : k < 64 := by omega
  clear h h'
  revert k
  decide

theorem utf8EncodeChar_lead (c : Char) : ∃ l r,
    String.utf8EncodeChar c = l :: r ∧ continues l = false ∧ ∀ b ∈ r, continues b = true := by
  have low (n : Nat) : continues (.ofNat (n % 64 + 128)) = true := continues_low (by omega)
  rw [String.utf8EncodeChar]
  split_ifs with h₁ h₂ h₃
  · exact ⟨_, [], rfl, not_continues_ascii (by omega), by simp⟩
  all_goals
    exact ⟨_, _, rfl, not_continues_lead (by omega) (by omega),
      by simp only [List.forall_mem_cons, low, List.not_mem_nil, false_imp_iff, forall_const, and_self]⟩

/-! ### Popping a character -/

theorem popFront_append {c byt : List UInt8} {l : UInt8} (hc : ∀ b ∈ c, continues b = true)
    (hl : continues l = false) : popFront (c ++ l :: byt) = byt := by
  induction c with
  | nil => simp [popFront, hl]
  | cons b c ih =>
    have hb := hc b (.head _)
    simpa [popFront, hb] using ih fun b' hb' => hc b' (.tail _ hb')

/-- Popping removes the last character of a text, and nothing from the empty one. -/
theorem popChar_encode (cs : List Char) : popChar (encode cs) = encode cs.dropLast := by
  induction cs using List.reverseRecOn with
  | nil => rfl
  | append_singleton cs c _ =>
    obtain ⟨l, r, hc, hl, hr⟩ := utf8EncodeChar_lead c
    have hre : (encode (cs ++ [c])).reverse = r.reverse ++ l :: (encode cs).reverse := by
      simp [hc]
    rw [popChar, hre, popFront_append (by simpa using hr) hl, List.dropLast_concat, List.reverse_reverse]

end Vitrin.Lib.Utf8
