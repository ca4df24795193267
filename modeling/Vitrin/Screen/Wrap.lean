import Mathlib.Data.List.DropRight
import Mathlib.Data.List.Infix

/-!
# Wrapping a text

A prompt breaks a text into lines no wider than its box, after a separator where a line has
one. What does not fit on the last line gives way to a marker: two texts with a long front in
common must not look the same.

The loop's invariant for `wrap_wraps` is that the lines, the current line and what is left of
the input make up the text.
-/

namespace Vitrin.Text

def isWhitespace (c : Char) : Bool :=
  let n := c.toNat
  9 ≤ n && n ≤ 13 || 0x2000 ≤ n && n ≤ 0x200a ||
    [0x20, 0x85, 0xa0, 0x1680, 0x2028, 0x2029, 0x202f, 0x205f, 0x3000].contains n

def trimEnd (s : List Char) : List Char := s.rdropWhile isWhitespace

def ellipsis : List Char := ['.', '.', '.']

def breakAfter : List Char := ['/', '-', '_', '.', ':']

/-- A full line up to its last break opportunity, and the rest of it. -/
def retreat (current : List Char) : List Char × List Char :=
  let inside (c : Char) := !(c = ' ' || breakAfter.contains c)
  match current.rdropWhile inside with
  | [] => (current, [])
  | kept => (kept, current.rtakeWhile inside)

variable (width : List Char → Nat) (maxWidth maxLines : Nat)

/-- The loop of `truncate_last`. -/
def fit (fitted : List Char) : List Char :=
  if width (fitted ++ ellipsis) ≤ maxWidth ∨ fitted = [] then fitted ++ ellipsis else fit fitted.dropLast
termination_by fitted.length
decreasing_by
  rename_i h
  have := List.length_pos_iff.mpr (not_or.mp h).2
  rw [List.length_dropLast]
  omega

def truncateLast (lines : List (List Char)) : List (List Char) := match lines.getLast? with
  | some last => lines.dropLast ++ [fit width maxWidth last]
  | none => lines

def wrapLoop (lines : List (List Char)) (current : List Char) : List Char → List (List Char)
  | [] =>
    let lines := if current ≠ [] ∨ lines = [] then lines ++ [current] else lines
    if lines.length > maxLines then truncateLast width maxWidth (lines.take maxLines) else lines
  | ch :: s =>
    if width (current ++ [ch]) ≤ maxWidth ∨ current = [] then wrapLoop lines (current ++ [ch]) s
    else
      let (kept, carry) := retreat current
      let lines := lines ++ [trimEnd kept]
      if lines.length = maxLines then truncateLast width maxWidth lines
      else if width (carry ++ [ch]) ≤ maxWidth ∨ carry = [] then wrapLoop lines (carry ++ [ch]) s
      else
        let lines := lines ++ [trimEnd carry]
        if lines.length = maxLines then truncateLast width maxWidth lines else wrapLoop lines [ch] s

def wrap (s : List Char) : List (List Char) :=
  if maxLines = 0 ∨ maxWidth = 0 then [] else wrapLoop width maxWidth maxLines [] [] s

/-! ### What the lines hold -/

def Fits (l : List Char) : Prop := width l ≤ maxWidth ∨ l.length = 1

/-- Few enough lines, which hold the text or a marked front of it, and which fit; the empty text has one empty line. -/
structure Wraps (s : List Char) (lines : List (List Char)) : Prop where
  count : lines.length ≤ maxLines
  holds : lines.flatten = s ∨ ∃ full last, lines = full ++ [last ++ ellipsis] ∧
    full.flatten ++ last <+: s ∧ full.flatten ++ last ≠ s
  fits : ∀ l ∈ lines, Fits width maxWidth l ∨ l = ellipsis ∨ l = [] ∧ s = []

variable {width maxWidth maxLines} {s current l : List Char} {lines : List (List Char)}

theorem fit_spec (l : List Char) : ∃ f, f <+: l ∧ fit width maxWidth l = f ++ ellipsis ∧
    (width (f ++ ellipsis) ≤ maxWidth ∨ f = []) := by
  fun_induction fit width maxWidth l with
  | case1 l h => exact ⟨l, List.prefix_rfl, rfl, h⟩
  | case2 l h ih =>
    obtain ⟨f, hf, he⟩ := ih
    exact ⟨f, hf.trans (List.dropLast_prefix l), he⟩

theorem trimEnd_eq (h : ∀ c ∈ l, isWhitespace c = false) : trimEnd l = l :=
  List.rdropWhile_eq_self_iff.mpr fun hn => by simp [h _ (List.getLast_mem hn)]

theorem retreat_append : (retreat l).1 ++ (retreat l).2 = l := by
  unfold retreat
  dsimp only
  split
  · exact List.append_nil _
  · exact List.rdropWhile_append_rtakeWhile

theorem retreat_ne_nil (h : l ≠ []) : (retreat l).1 ≠ [] := by
  unfold retreat
  dsimp only
  split
  · exact h
  · assumption

/-- The text goes on after the last line. -/
theorem truncateLast_wraps (rest : List Char) (hs : lines.flatten ++ l ++ rest = s) (hr : rest ≠ [])
    (hc : (lines ++ [l]).length = maxLines) (hf : ∀ l ∈ lines, Fits width maxWidth l) :
    Wraps width maxWidth maxLines s (truncateLast width maxWidth (lines ++ [l])) := by
  obtain ⟨f, ⟨g, rfl⟩, he, hw⟩ : ∃ f, f <+: l ∧ fit width maxWidth l = f ++ ellipsis ∧ _ := fit_spec l
  have ht : truncateLast width maxWidth (lines ++ [f ++ g]) = lines ++ [f ++ ellipsis] := by
    simp [truncateLast, he]
  rw [ht]
  subst hs
  refine ⟨by simpa using hc.le, .inr ⟨lines, f, rfl, ⟨g ++ rest, by simp⟩, fun h => ?_⟩, fun l hl => ?_⟩
  · simpa [hr] using congrArg List.length h
  · rcases List.mem_append.mp hl with hl | hl
    · exact .inl (hf l hl)
    · obtain rfl := List.mem_singleton.mp hl
      rcases hw with hw | rfl
      · exact .inl (.inl hw)
      · exact .inr (.inl rfl)

section

variable (hm : ∀ a b : List Char, a.Sublist b → width a ≤ width b)

include hm

theorem Fits.part {p : List Char} (h : Fits width maxWidth l) (hp : p.Sublist l) (hn : p ≠ []) :
    Fits width maxWidth p := by
  refine h.imp (hm p l hp).trans fun hl => ?_
  exact le_antisymm (hl ▸ hp.length_le) (List.length_pos_iff.mpr hn)

theorem wrapLoop_wraps {rest : List Char} (hs : lines.flatten ++ current ++ rest = s)
    (hw : ∀ c ∈ s, isWhitespace c = false) (hl : lines.length < maxLines) (hf : ∀ l ∈ lines, Fits width maxWidth l)
    (hc : current = [] ∨ Fits width maxWidth current) :
    Wraps width maxWidth maxLines s (wrapLoop width maxWidth maxLines lines current rest) := by
  induction rest generalizing lines current with
  | nil =>
    rw [List.append_nil] at hs
    simp only [wrapLoop]
    by_cases h : current ≠ [] ∨ lines = []
    · have hle : (lines ++ [current]).length ≤ maxLines := by simpa [Nat.succ_le_iff] using hl
      rw [if_pos h, if_neg (not_lt.mpr hle)]
      refine ⟨hle, .inl (by simpa using hs), fun l hm => ?_⟩
      rcases List.mem_append.mp hm with hm | hm
      · exact .inl (hf l hm)
      · obtain rfl := List.mem_singleton.mp hm
        rcases hc with rfl | hc
        · exact .inr (.inr ⟨rfl, by simpa [h.resolve_left (absurd rfl)] using hs.symm⟩)
        · exact .inl hc
    · rw [if_neg h, if_neg (not_lt.mpr hl.le)]
      have he := not_not.mp (not_or.mp h).1
      exact ⟨hl.le, .inl (by simpa [he] using hs), fun l hm => .inl (hf l hm)⟩
  | cons ch rest ih =>
    rw [wrapLoop]
    split_ifs with h₁
    · exact ih (by simpa using hs) hl hf (.inr (h₁.imp_right fun h => by rw [h]; rfl))
    obtain ⟨-, hn⟩ := not_or.mp h₁
    have hk := retreat_ne_nil hn
    have ha : (retreat current).1 ++ (retreat current).2 = current := retreat_append
    cases hx : retreat current with
    | mk kept carry =>
    rw [hx] at hk ha
    have hp := hc.resolve_left hn
    have hfk : Fits width maxWidth kept := hp.part hm (ha ▸ List.sublist_append_left kept carry) hk
    have hfl : ∀ l ∈ lines ++ [kept], Fits width maxWidth l := by
      simpa [or_imp, forall_and] using ⟨hf, hfk⟩
    have ht : trimEnd kept = kept ∧ trimEnd carry = carry := by
      constructor <;> exact trimEnd_eq fun c hc => hw c (by simp [← hs, ← ha, hc])
    rw [← ha] at hs
    simp only [ht]
    split_ifs with h₂ h₃ h₄
    · exact truncateLast_wraps (carry ++ ch :: rest) (by simpa using hs) (by simp) h₂ hf
    · exact ih (by simpa using hs) (by simp at h₂ ⊢; omega) hfl (.inr (h₃.imp_right fun h => by rw [h]; rfl))
    · exact truncateLast_wraps (ch :: rest) (by simpa using hs) (by simp) h₄ hfl
    · refine ih (by simpa using hs) (by simp at h₂ h₄ ⊢; omega) ?_ (.inr (.inr rfl))
      have hfc := hp.part hm (ha ▸ List.sublist_append_right kept carry) (not_or.mp h₃).2
      simpa [or_imp, forall_and, and_assoc] using ⟨hf, hfk, hfc⟩

end

/-- **Nothing is lost silently.** -/
theorem wrap_wraps (hm : ∀ a b : List Char, a.Sublist b → width a ≤ width b) (hw : ∀ c ∈ s, isWhitespace c = false)
    (hb : 0 < maxWidth) (hl : 0 < maxLines) : Wraps width maxWidth maxLines s (wrap width maxWidth maxLines s) := by
  rw [wrap, if_neg (by omega)]
  exact wrapLoop_wraps hm rfl hw hl (by simp) (.inl rfl)

theorem wrap_wraps_cut : Wraps List.length 2 1 ['n', 'o', 'w'] (wrap List.length 2 1 ['n', 'o', 'w']) :=
  wrap_wraps (fun _ _ h => h.length_le) (by simp [isWhitespace]) (by decide) (by decide)

/-- The line of the empty text is as wide as the measure says. -/
theorem empty_line_overflows : ∃ l ∈ wrap (fun _ => 2) 1 1 [], ¬ (Fits (fun _ => 2) 1 l ∨ l = ellipsis) :=
  ⟨[], by decide, by simp [Fits, ellipsis]⟩

end Vitrin.Text
