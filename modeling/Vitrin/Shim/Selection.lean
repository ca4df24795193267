import Vitrin.Protocol.RustCodec
import Vitrin.Shim.Typing

/-!
# The text of a selection

The shim checks an app's bytes before it sends them to the core as a string, since the core
ends the connection of a shim whose string it cannot read.

No byte past the end is read, and the check takes what the core's reader takes
(`clipboardUtf8Valid_agrees`). A round of it is the seat's `utf8Next`.
-/

namespace Vitrin.Shim

open Lib Seat
open Protocol hiding encode
open Utf8 (encode)
open String (utf8EncodeChar)

/-- The loop over the bytes after a lead. -/
def followUp (bytes : List UInt8) (j cp : Nat) : Nat → Except (Stop Unit) (Option Nat)
  | 0 => .ok (some cp)
  | k + 1 => do
    let c ← byteAt bytes j
    if c &&& 0xc0 = 0x80 then followUp bytes (j + 1) (cp <<< 6 ||| (c &&& 0x3f).toNat) k else .ok none

/-- `clipboard_utf8_valid`, from `i` on. -/
def clipboardUtf8Valid (bytes : List UInt8) (i : Nat) : Except (Stop Unit) Bool :=
  if _h : i < bytes.length then do
    let b ← byteAt bytes i
    if b = 0 then .ok false
    else if b < 0x80 then clipboardUtf8Valid bytes (i + 1)
    else match utf8Lead b with
      | none => .ok false
      | some (extra, cp) =>
        if extra ≥ bytes.length - i then .ok false
        else do
          match ← followUp bytes (i + 1) cp extra with
          | none => .ok false
          | some cp =>
            if cp < minForLen extra then .ok false
            else if cp > 0x10ffff ∨ (cp ≥ 0xd800 ∧ cp ≤ 0xdfff) then .ok false
            else clipboardUtf8Valid bytes (i + (extra + 1))
  else .ok true
termination_by bytes.length - i

variable {bytes : List UInt8} {i j n cp : Nat}

theorem followUp_eq {k : Nat} (h : j + k ≤ bytes.length) :
    followUp bytes j cp k = .ok (utf8Tail cp ((bytes.drop j).take k)) := by
  induction k generalizing j cp with
  | zero => simp [followUp, utf8Tail]
  | succ k ih =>
    have hj : j < bytes.length := by omega
    rw [followUp, byteAt, List.getElem?_eq_getElem hj, List.drop_eq_getElem_cons hj, List.take_succ_cons, utf8Tail]
    dsimp only [ok_bind]
    rw [ih (by omega)]
    split <;> rfl

theorem clipboardUtf8Valid_eq (h : i < bytes.length) : clipboardUtf8Valid bytes i =
    if bytes[i] = 0 then .ok false else match utf8Next (bytes.drop i) with
      | none => .ok false
      | some (_, used) => clipboardUtf8Valid bytes (i + used) := by
  rw [clipboardUtf8Valid, dif_pos h, byteAt, List.getElem?_eq_getElem h, List.drop_eq_getElem_cons h, utf8Next]
  dsimp only [ok_bind]
  split_ifs with h0 h1
  · rfl
  · rfl
  · cases utf8Lead bytes[i] with
    | none => rfl
    | some x =>
      obtain ⟨e, b⟩ := x
      simp only [Option.bind_eq_bind, Option.bind_some, List.length_drop]
      by_cases he : e ≥ bytes.length - i
      · rw [if_pos he, if_pos (by omega)]
      · rw [if_neg he, if_neg (by omega), followUp_eq (by omega), ok_bind]
        cases utf8Tail b ((bytes.drop (i + 1)).take e) with
        | none => rfl
        | some cp =>
          dsimp only [Option.bind_some]
          by_cases hm : cp < minForLen e
          · simp [hm]
          · simp only [if_neg hm, or_iff_right hm]
            split <;> rfl

theorem utf8Lead_cases {b : UInt8} {e x : Nat} (h : utf8Lead b = some (e, x)) :
    e = 1 ∧ x < 32 ∧ b = .ofNat (x + 0xc0) ∨ e = 2 ∧ x < 16 ∧ b = .ofNat (x + 0xe0) ∨
      e = 3 ∧ x < 8 ∧ b = .ofNat (x + 0xf0) := by
  have hall : ∀ n < 256, ∀ p ∈ utf8Lead (.ofNat n), p.1 = 1 ∧ p.2 < 32 ∧ UInt8.ofNat n = .ofNat (p.2 + 0xc0) ∨
      p.1 = 2 ∧ p.2 < 16 ∧ UInt8.ofNat n = .ofNat (p.2 + 0xe0) ∨
      p.1 = 3 ∧ p.2 < 8 ∧ UInt8.ofNat n = .ofNat (p.2 + 0xf0) := by decide +kernel
  simpa using hall b.toNat b.toNat_lt (e, x) (by simpa using h)

theorem utf8Tail_eq_some {x : Nat} {l : List UInt8} (h : utf8Tail x l = some cp) : ∃ ns : List Nat,
    (∀ n ∈ ns, n < 64) ∧ l = ns.map (fun n => .ofNat (n + 0x80)) ∧ cp = ns.foldl (· * 64 + ·) x := by
  have hall : ∀ n < 256, UInt8.ofNat n &&& 0xc0 = 0x80 → 0x80 ≤ n ∧ n < 0xc0 := by decide +kernel
  induction l generalizing x with
  | nil =>
    cases h
    exact ⟨[], by simp, rfl, rfl⟩
  | cons y l ih =>
    have hy : y &&& 0xc0 = 0x80 := by
      by_contra hn
      simp [utf8Tail, hn] at h
    obtain ⟨hl, hu⟩ := hall y.toNat y.toNat_lt (by simpa using hy)
    obtain ⟨n, hn, rfl⟩ : ∃ n < 64, y = .ofNat (n + 0x80) :=
      ⟨y.toNat - 0x80, by omega, by rw [Nat.sub_add_cancel hl]; simp⟩
    rw [utf8Tail_cons hn] at h
    obtain ⟨ns, hns, rfl, rfl⟩ := ih h
    exact ⟨n :: ns, by simpa using ⟨hn, hns⟩, rfl, rfl⟩

/-- What the decoder reads is a character's shortest form. -/
theorem exists_of_utf8Next (h : utf8Next bytes = some (cp, n)) :
    ∃ c r, bytes = utf8EncodeChar c ++ r ∧ n = (utf8EncodeChar c).length := by
  cases bytes with
  | nil => cases h
  | cons b t =>
    suffices hs : ∃ c e, utf8EncodeChar c = b :: t.take e ∧ n = e + 1 ∧ e ≤ t.length by
      obtain ⟨c, e, he, rfl, hle⟩ := hs
      exact ⟨c, t.drop e, by simp [he], by simp [he, hle]⟩
    rw [utf8Next] at h
    split_ifs at h with hb
    · cases h
      have hc : b.toNat < 128 := UInt8.lt_iff_toNat_lt.mp hb
      obtain ⟨c, hv⟩ : ∃ c : Char, c.val.toNat = b.toNat := ⟨Char.ofNatAux b.toNat (.inl (by omega)), rfl⟩
      refine ⟨c, 0, ?_, rfl, Nat.zero_le _⟩
      rw [utf8EncodeChar, hv, if_pos (by omega)]
      simp
    · obtain ⟨⟨e, x⟩, hl, h⟩ := Option.bind_eq_some_iff.mp h
      dsimp only at h
      split_ifs at h with hs
      obtain ⟨v, hv, h⟩ := Option.bind_eq_some_iff.mp h
      split_ifs at h with hm
      cases h
      obtain ⟨c, hc⟩ : ∃ c : Char, c.val.toNat = cp := ⟨Char.ofNatAux cp (by rw [Nat.isValidChar]; omega), rfl⟩
      refine ⟨c, e, ?_, rfl, Nat.not_lt.mp hs⟩
      obtain ⟨ns, hns, ht, hcp⟩ := utf8Tail_eq_some hv
      have hle : ns.length = e := by
        simpa [Nat.not_lt.mp hs] using (congrArg List.length ht).symm
      rw [utf8EncodeChar, hc, ht]
      rcases utf8Lead_cases hl with ⟨rfl, hx, rfl⟩ | ⟨rfl, hx, rfl⟩ | ⟨rfl, hx, rfl⟩
      · obtain ⟨n, rfl⟩ := List.length_eq_one_iff.mp hle
        simp only [minForLen, List.foldl, List.forall_mem_cons] at hm hns hcp
        rw [if_neg (by omega), if_pos (by omega), show cp / 64 % 32 = x by omega, show cp % 64 = n by omega]
        rfl
      · obtain ⟨n, k, rfl⟩ := List.length_eq_two.mp hle
        simp only [minForLen, List.foldl, List.forall_mem_cons] at hm hns hcp
        rw [if_neg (by omega), if_neg (by omega), if_pos (by omega), show cp / 4096 % 16 = x by omega,
          show cp / 64 % 64 = n by omega, show cp % 64 = k by omega]
        rfl
      · obtain ⟨n, k, j, rfl⟩ := List.length_eq_three.mp hle
        simp only [minForLen, List.foldl, List.forall_mem_cons] at hm hns hcp
        rw [if_neg (by omega), if_neg (by omega), if_neg (by omega), show cp / 262144 % 8 = x by omega,
          show cp / 4096 % 64 = n by omega, show cp / 64 % 64 = k by omega, show cp % 64 = j by omega]
        rfl

theorem clipboardUtf8Valid_run : ∃ b, clipboardUtf8Valid bytes i = .ok b ∧
    (b = true ↔ 0 ∉ bytes.drop i ∧ ∃ cs, bytes.drop i = encode cs) := by
  induction hk : bytes.length - i using Nat.strong_induction_on generalizing i with
  | _ k ih =>
    by_cases h : i < bytes.length
    · rw [clipboardUtf8Valid_eq h]
      have hd : (bytes.drop i).head? = some bytes[i] := by simp [h]
      by_cases h0 : bytes[i] = 0
      · exact ⟨false, if_pos h0, nofun, fun hn => absurd (List.mem_of_head? (h0 ▸ hd)) hn.1⟩
      · rw [if_neg h0]
        -- the characters are those that the decoder reads, one by one
        have hcs {cs} (hc : bytes.drop i = encode cs) : ∃ c cs', cs = c :: cs' ∧
            utf8Next (bytes.drop i) = some (c.val.toNat, (utf8EncodeChar c).length) := by
          cases cs with
          | nil =>
            rw [hc] at hd
            cases hd
          | cons c cs => exact ⟨c, cs, rfl, hc ▸ utf8Next_encodeChar c (encode cs)⟩
        cases hu : utf8Next (bytes.drop i) with
        | none =>
          refine ⟨false, rfl, nofun, fun ⟨_, cs, hc⟩ => ?_⟩
          obtain ⟨c, cs', -, hn⟩ := hcs hc
          cases hu.symm.trans hn
        | some p =>
          obtain ⟨cp, n⟩ := p
          obtain ⟨c, r, hr, hn⟩ := exists_of_utf8Next hu
          obtain ⟨l, t, hc, -, ht⟩ := Utf8.utf8EncodeChar_lead c
          have hdr : bytes.drop (i + n) = r := by
            rw [← List.drop_drop, hr, hn, List.drop_left]
          have hz : 0 ∉ utf8EncodeChar c := by
            rw [hr, hc] at hd
            rw [hc, List.mem_cons]
            rintro (rfl | hm)
            · exact h0 (Option.some.inj hd).symm
            · exact absurd (ht 0 hm) (by decide)
          obtain ⟨b, hb, hi⟩ := ih _ (by rw [hc] at hn; simp at hn; omega) (i := i + n) rfl
          refine ⟨b, hb, hi.trans ?_⟩
          rw [hdr, hr, List.mem_append, or_iff_right hz]
          refine and_congr_right fun _ => ⟨fun ⟨cs, he⟩ => ⟨c :: cs, he ▸ rfl⟩, fun ⟨cs, he⟩ => ?_⟩
          obtain ⟨d, cs, rfl, hn'⟩ := hcs (hr.trans he)
          cases hu.symm.trans hn'
          refine ⟨cs, ?_⟩
          rw [← hdr, ← List.drop_drop, hr, he]
          exact List.drop_left
    · rw [clipboardUtf8Valid, dif_neg h, List.drop_eq_nil_of_le (by omega)]
      exact ⟨true, rfl, by simpa using ⟨[], rfl⟩⟩

theorem exists_checkText : (∃ s, checkText bytes = .ok s) ↔ 0 ∉ bytes ∧ bytes.toByteArray.IsValidUTF8 := by
  unfold checkText String.fromUTF8?
  by_cases h0 : 0 ∈ bytes
  · simp [h0]
  · by_cases hv : bytes.toByteArray.IsValidUTF8 <;> simp [h0, hv]

/-- The check of a selection reads no byte past its end, and takes well-formed UTF-8 without a
NUL, which is what the core reads as a string argument that is within its bound. -/
theorem clipboardUtf8Valid_agrees (bytes : List UInt8) : ∃ b, clipboardUtf8Valid bytes 0 = .ok b ∧
    (b = true ↔ 0 ∉ bytes ∧ bytes.toByteArray.IsValidUTF8) ∧
    ∀ (buf : List UInt8) (pos stop : Nat) (maxBytes : UInt32), buf.length ≤ 65535 → bytes.length ≤ maxBytes.toNat →
      Spans buf pos (Item.wire (.text bytes)) stop →
        (b = true ↔ ∃ s, readString utf8Text buf pos maxBytes = .ok (s, stop)) := by
  obtain ⟨b, hb, hi⟩ := @clipboardUtf8Valid_run bytes 0
  have hv : (∃ cs, bytes = encode cs) ↔ bytes.toByteArray.IsValidUTF8 := by
    constructor
    · rintro ⟨cs, rfl⟩
      exact Utf8.encode_valid
    · rintro ⟨cs, h⟩
      exact ⟨cs, by simpa [List.utf8Encode, encode] using congrArg (fun a => a.data.toList) h⟩
  rw [List.drop_zero, hv] at hi
  refine ⟨b, hb, hi, fun buf pos stop m hl hm hs => (hi.trans exists_checkText.symm).trans ?_⟩
  refine exists_congr fun s => ⟨fun hc => ?_, fun h => ?_⟩
  · cases checkText_sound hc
    exact (readString_eq_ok hl).mpr ⟨hs, hm, hc⟩
  · obtain ⟨hs', hm', hc⟩ := (readString_eq_ok hl).mp h
    -- the bytes at a place are those of one text only
    have he := ((readString_eq_ok (r := anyText) (s := bytes) hl).mpr ⟨hs, hm, rfl⟩).symm.trans
      ((readString_eq_ok (r := anyText) (s := utf8Bytes s) hl).mpr ⟨hs', hm', rfl⟩)
    cases he
    exact hc

theorem clipboardUtf8Valid_agrees_letters : let buf := Item.wire (.text [104, 105])
    ∃ s, readString utf8Text buf 0 4000 = .ok (s, buf.length) := by
  intro buf
  obtain ⟨b, -, hb, h⟩ := clipboardUtf8Valid_agrees [104, 105]
  have hv : (encode ['h', 'i']).toByteArray.IsValidUTF8 := Utf8.encode_valid
  refine (h buf 0 buf.length 4000 (by decide) (by decide) ?_).mp (hb.mpr ⟨by decide, hv⟩)
  exact ⟨[], [], (List.append_nil _).symm, rfl, (Nat.zero_add _).symm⟩

end Vitrin.Shim
