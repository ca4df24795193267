import Vitrin.Config.Toml
import Vitrin.Core.Grants

/-!
# The text of a network selector

A row over the network names one host and one port, as a text the human is shown and the
connection is checked against. There must be one text for each selector, so the parser
keeps the host as it was spelled and refuses a port that it would not write itself.

`NetSelector.parse` over the characters of a text, with its refusals. The address parser of
the standard library is a parameter; its number parser is `parseU16`, which takes a plus and
leading zeros.

`parse_eq_ok`: the texts the parser takes are the spellings of selectors with an admissible
host, each the spelling of the one selector it yields. `selector_canonical` follows.
-/

namespace Vitrin

open Lib

/-- Why a text is no selector. -/
inductive NetSelectorError where
  | notANetSelector
  | malformedHostPort
  | badPort
  | forbiddenHostSyntax
  | malformedIpv6
  deriving DecidableEq

namespace NetSelector

/-- The prefix of a selector on the wire (`PREFIX`). -/
def wirePrefix : List Char := ['n', 'e', 't', ':']

/-- `u16::from_str`: digits, after a plus or without one. -/
def parseU16 (text : List Char) : Option Nat :=
  let digits := (text.dropPrefix? ['+']).getD text
  if digits ≠ [] ∧ digits.all Char.isDigit ∧ Nat.ofDigitChars 10 digits 0 < 65536 then
    some (Nat.ofDigitChars 10 digits 0)
  else none

/-- `NonZeroU16::from_str`. -/
def parsePort (text : List Char) : Option UInt16 :=
  (parseU16 text).bind fun n => if n = 0 then none else some (.ofNat n)

/-- What an unbracketed host may not contain. -/
def forbidden (c : Char) : Bool := c ∈ ['*', '/', ',', '['] || Toml.isWhitespace c || Toml.isControl c

variable (ipv6 : List Char → Bool)

/-- The host of a selector. -/
def parseHost (hostPart : List Char) : Except NetSelectorError NetHost :=
  match hostPart.dropPrefix? ['['] with
  | some inner => match inner.dropSuffix? [']'] with
    | none => .error .malformedIpv6
    | some inner => if ipv6 inner then .ok (.v6 (.ofList inner)) else .error .malformedIpv6
  | none =>
    if ':' ∈ hostPart ∨ ']' ∈ hostPart then .error .malformedIpv6
    else if hostPart.any forbidden then .error .forbiddenHostSyntax
    else if ['.'] <+: hostPart ∨ ['.'] <:+ hostPart ∨ ['.', '.'] <:+: hostPart then .error .forbiddenHostSyntax
    else .ok (.plain (.ofList hostPart))

/-- Read a selector. -/
def parse (selector : String) : Except NetSelectorError NetSelector :=
  match selector.toList.dropPrefix? wirePrefix with
  | none => .error .notANetSelector
  | some rest => match rsplitOnce ':' rest with
    | none => .error .malformedHostPort
    | some (hostPart, portPart) =>
      if hostPart = [] then .error .malformedHostPort
      else match parsePort portPart with
        | none => .error .badPort
        | some port =>
          if h : portPart = Nat.toDigits 10 port.toNat ∧ port ≠ 0 then
            (parseHost ipv6 hostPart).map fun host => ⟨host, port, h.2⟩
          else .error .badPort

/-- A host as a selector spells it. -/
def spelled : NetHost → List Char
  | .plain host => host.toList
  | .v6 host => '[' :: host.toList ++ [']']

/-- Write a selector. -/
def toWire (s : NetSelector) : String := .ofList (wirePrefix ++ spelled s.host ++ ':' :: Nat.toDigits 10 s.port.toNat)

/-- A host that needs no brackets. -/
def PlainHost (host : List Char) : Prop :=
  host ≠ [] ∧
    (∀ c ∈ host, c ∉ [':', '[', ']', '*', '/', ','] ∧ Toml.isWhitespace c = false ∧ Toml.isControl c = false) ∧
    ¬ ['.'] <+: host ∧ ¬ ['.'] <:+ host ∧ ¬ ['.', '.'] <:+: host

/-- A host a selector may have. -/
def Admissible : NetHost → Prop
  | .plain host => PlainHost host.toList
  | .v6 host => ipv6 host.toList

/-- The language of selectors: a host and the decimal of a port. -/
def Grammar (text : String) : Prop :=
  ∃ (host : List Char) (port : Nat), text.toList = wirePrefix ++ host ++ ':' :: Nat.toDigits 10 port ∧
    1 ≤ port ∧ port ≤ 65535 ∧ ((∃ inner, host = '[' :: inner ++ [']'] ∧ ipv6 inner) ∨ PlainHost host)

/-! ### Ports -/

theorem isDigit_of_mem {n : Nat} {c : Char} (h : c ∈ Nat.toDigits 10 n) : c.isDigit :=
  Nat.isDigit_of_mem_toDigits (by decide) (by decide) h

theorem colon_not_mem (n : Nat) : ':' ∉ Nat.toDigits 10 n := fun h => absurd (isDigit_of_mem h) (by decide)

theorem dropPrefix?_singleton {c : Char} {l : List Char} :
    l.dropPrefix? [c] = match l with | [] => none | x :: xs => if x = c then some xs else none := by
  cases l with
  | nil => rfl
  | cons x xs => by_cases hx : x = c <;> simp [List.dropPrefix?]

theorem parsePort_toDigits {p : UInt16} (h : p ≠ 0) : parsePort (Nat.toDigits 10 p.toNat) = some p := by
  have hp : (Nat.toDigits 10 p.toNat).dropPrefix? ['+'] = none := by
    rw [dropPrefix?_singleton]
    split
    · rfl
    next c rest he =>
      refine if_neg ?_
      rintro rfl
      exact absurd (isDigit_of_mem (he ▸ List.mem_cons_self)) (by decide)
  have ha : (Nat.toDigits 10 p.toNat).all Char.isDigit := List.all_eq_true.mpr fun c => isDigit_of_mem
  have hr : parseU16 (Nat.toDigits 10 p.toNat) = some p.toNat := by
    simp only [parseU16, hp, Option.getD_none, Nat.ofDigitChars_ten_toDigits]
    exact if_pos ⟨Nat.toDigits_ne_nil, ha, p.toNat_lt⟩
  have hn : p.toNat ≠ 0 := fun hz => h (UInt16.toNat_inj.mp hz)
  simp [parsePort, hr, hn]

/-! ### Hosts -/

theorem plainHost_iff {host : List Char} : PlainHost host ↔ host ≠ [] ∧ host.dropPrefix? ['['] = none ∧
    ¬ (':' ∈ host ∨ ']' ∈ host) ∧ host.any forbidden = false ∧
    ¬ (['.'] <+: host ∨ ['.'] <:+ host ∨ ['.', '.'] <:+: host) := by
  constructor
  · rintro ⟨hn, hch, hd⟩
    refine ⟨hn, ?_, ?_, ?_, by tauto⟩
    · rw [dropPrefix?_singleton]
      split
      · rfl
      · refine if_neg ?_
        rintro rfl
        simpa using (hch '[' (.head _)).1
    · rintro (h | h)
      · simpa using (hch _ h).1
      · simpa using (hch _ h).1
    · refine List.any_eq_false.mpr fun c hc => ?_
      obtain ⟨hc, hs, hcon⟩ := hch c hc
      simp only [forbidden]
      simp_all
  · rintro ⟨hn, -, hco, ha, hd⟩
    refine ⟨hn, fun c hc => ?_, by tauto⟩
    have hf := List.any_eq_false.mp ha c hc
    simp only [forbidden] at hf
    have he : c ≠ ':' ∧ c ≠ ']' := ⟨fun h => hco (.inl (h ▸ hc)), fun h => hco (.inr (h ▸ hc))⟩
    simp_all

theorem parseHost_eq_ok {hostPart : List Char} {host : NetHost} (hne : hostPart ≠ []) :
    parseHost ipv6 hostPart = .ok host ↔ hostPart = spelled host ∧ Admissible ipv6 host := by
  constructor
  · intro h
    unfold parseHost at h
    split at h
    next inner hi =>
      obtain ⟨_, rfl, hb⟩ := List.dropPrefix?_eq_some_iff.mp hi
      obtain rfl := beq_iff_eq.mp hb
      split at h
      · cases h
      next inner hi =>
        obtain ⟨_, rfl, hb⟩ := List.dropSuffix?_eq_some_iff.mp hi
        obtain rfl := beq_iff_eq.mp hb
        split_ifs at h with hv6
        cases h
        simp [spelled, Admissible, hv6]
    next hn =>
      split_ifs at h with hc ha hd
      cases h
      refine ⟨by simp [spelled], ?_⟩
      rw [Admissible, String.toList_ofList]
      exact plainHost_iff.mpr ⟨hne, hn, hc, by simpa using ha, hd⟩
  · rintro ⟨rfl, hh⟩
    unfold parseHost
    cases host with
    | plain host =>
      obtain ⟨-, hn, hc, ha, hd⟩ := plainHost_iff.mp hh
      simp [spelled, hn, if_neg hc, ha, if_neg hd]
    | v6 host =>
      have hop : (spelled (.v6 host)).dropPrefix? ['['] = some (host.toList ++ [']']) :=
        List.dropPrefix?_eq_some_iff.mpr ⟨['['], rfl, beq_self_eq_true _⟩
      have hcl : (host.toList ++ [']']).dropSuffix? [']'] = some host.toList :=
        List.dropSuffix?_eq_some_iff.mpr ⟨[']'], rfl, beq_self_eq_true _⟩
      simp only [hop, hcl, String.ofList_toList]
      exact if_pos hh

theorem spelled_ne_nil {host : NetHost} (h : Admissible ipv6 host) : spelled host ≠ [] := by
  cases host with
  | plain host => exact h.1
  | v6 host => exact List.cons_ne_nil _ _

/-- **The texts of selectors.** A text is read as a selector exactly if it is what the selector is written as. -/
theorem parse_eq_ok {t : String} {s : NetSelector} : parse ipv6 t = .ok s ↔ t = s.toWire ∧ Admissible ipv6 s.host := by
  rw [← String.toList_inj, toWire, String.toList_ofList]
  constructor
  · intro h
    unfold parse at h
    split at h
    · cases h
    next rest hr =>
      obtain ⟨_, ht, hb⟩ := List.dropPrefix?_eq_some_iff.mp hr
      obtain rfl := beq_iff_eq.mp hb
      split at h
      · cases h
      next hostPart portPart hsp =>
        split_ifs at h with he
        split at h
        · cases h
        next port _ =>
          split_ifs at h with hp
          cases hh : parseHost ipv6 hostPart with
          | error e => simp [hh, Except.map] at h
          | ok host =>
            rw [hh] at h
            cases h
            obtain ⟨hs, ha⟩ := (parseHost_eq_ok ipv6 he).mp hh
            refine ⟨?_, ha⟩
            rw [ht, rsplitOnce_eq_some hsp, hs, List.append_assoc]
            exact congrArg (fun d => wirePrefix ++ (spelled host ++ ':' :: d)) hp.1
  · rintro ⟨ht, hh⟩
    have hpr : t.toList.dropPrefix? wirePrefix = some (spelled s.host ++ ':' :: Nat.toDigits 10 s.port.toNat) :=
      List.dropPrefix?_eq_some_iff.mpr ⟨wirePrefix, by rw [ht, List.append_assoc], beq_self_eq_true _⟩
    have hn := spelled_ne_nil ipv6 hh
    simp only [parse, hpr, rsplitOnce_append _ (colon_not_mem s.port.toNat), if_neg hn,
      parsePort_toDigits s.port_ne, (parseHost_eq_ok ipv6 hn).mpr ⟨rfl, hh⟩, ne_eq, s.port_ne,
      not_false_eq_true, and_self, dite_true, Except.map]

theorem toWire_inj {s s' : NetSelector} (h : Admissible ipv6 s.host) (h' : Admissible ipv6 s'.host)
    (he : s.toWire = s'.toWire) : s = s' := by
  have hr := (parse_eq_ok ipv6).mpr ⟨he, h'⟩
  rw [(parse_eq_ok ipv6).mpr ⟨rfl, h⟩] at hr
  exact Except.ok.inj hr

theorem grammar_iff {t : String} : Grammar ipv6 t ↔ ∃ s : NetSelector, t = s.toWire ∧ Admissible ipv6 s.host := by
  constructor
  · rintro ⟨host, p, ht, hpo, hl, hh⟩
    have hp : (UInt16.ofNat p).toNat = p := UInt16.toNat_ofNat_of_lt' (Nat.lt_succ_of_le hl)
    have hn : UInt16.ofNat p ≠ 0 := fun h => by
      rw [h] at hp
      exact absurd hp (by simp; omega)
    rcases hh with ⟨i, rfl, hi⟩ | hpl
    · refine ⟨⟨.v6 (.ofList i), .ofNat p, hn⟩, ?_, by simpa [Admissible] using hi⟩
      rw [← String.toList_inj, ht]
      simp [toWire, spelled, hp]
    · refine ⟨⟨.plain (.ofList host), .ofNat p, hn⟩, ?_, by simpa [Admissible] using hpl⟩
      rw [← String.toList_inj, ht]
      simp [toWire, spelled, hp]
  · rintro ⟨s, rfl, hh⟩
    refine ⟨spelled s.host, s.port.toNat, by rw [toWire, String.toList_ofList], ?_,
      Nat.le_of_lt_succ s.port.toNat_lt, ?_⟩
    · exact Nat.pos_of_ne_zero fun hz => s.port_ne (UInt16.toNat_inj.mp hz)
    · obtain ⟨host, p, hn⟩ := s
      cases host with
      | plain host => exact .inr hh
      | v6 host => exact .inl ⟨host.toList, rfl, hh⟩

end NetSelector

open NetSelector

/-- **A selector's text is canonical.** The parser takes the language of the grammar. For what it takes, it yields a
selector that is written as the same text, and that text is read as that selector. So selectors it yields cover each
other exactly if their texts are equal. -/
theorem selector_canonical (ipv6 : List Char → Bool) :
    (∀ text, (∃ s, parse ipv6 text = .ok s) ↔ Grammar ipv6 text) ∧
      (∀ text s, parse ipv6 text = .ok s → s.toWire = text ∧ parse ipv6 s.toWire = .ok s) ∧
      ∀ text text' s s', parse ipv6 text = .ok s → parse ipv6 text' = .ok s' →
        ((ResourceRef.net s).covers (.net s') ∧ (ResourceRef.net s').covers (.net s) ↔ text = text') := by
  refine ⟨fun text => ?_, fun text s h => ?_, fun text text' s s' h h' => ?_⟩
  · rw [grammar_iff]
    exact exists_congr fun s => parse_eq_ok ipv6
  · obtain ⟨rfl, hh⟩ := (parse_eq_ok ipv6).mp h
    exact ⟨rfl, h⟩
  · obtain ⟨rfl, hh⟩ := (parse_eq_ok ipv6).mp h
    obtain ⟨rfl, hh'⟩ := (parse_eq_ok ipv6).mp h'
    simp only [ResourceRef.covers, decide_eq_true_eq]
    exact ⟨fun he => he.1 ▸ rfl, fun he => by simp [toWire_inj ipv6 hh hh' he]⟩

/-- A selector is read and written. -/
theorem selector_canonical_host : ∃ s, parse (fun _ => false) "net:a.b:80" = .ok s ∧ s.toWire = "net:a.b:80" := by
  have hp : PlainHost ['a', '.', 'b'] := by
    unfold PlainHost
    rw [List.forall_mem_cons, List.forall_mem_cons, List.forall_mem_singleton]
    decide
  obtain ⟨s, hs⟩ := ((selector_canonical fun _ => false).1 "net:a.b:80").mpr
    ⟨['a', '.', 'b'], 80, by decide +kernel, by decide, by decide, .inr hp⟩
  exact ⟨s, hs, ((selector_canonical fun _ => false).2.1 _ s hs).1⟩

end Vitrin
