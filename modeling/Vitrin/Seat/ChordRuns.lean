import Vitrin.Lib.Machine
import Vitrin.Seat.Chord

/-!
# What a chord matcher does over a run

A matcher sees every event twice: it observes it, which keeps the modifiers it believes to
be down, and it judges it, which may take a press and later its release. Both memories go
by keysym, while a key is a scancode whose keysym the keymap resolves anew at every event.

`chordStep` is one event. `HeldPress`es are kept beside it: which keys are down, the keysym each
was pressed as, and the verdict on that press. They are read off the events and the
verdicts; the matcher knows nothing of them.

If keys keep their keysyms and share none (`Paired`), a release gets its press's verdict
(`chord_paired`). If no two keys of one modifier are down together (`OneEach`), the matcher's
modifiers are those with a key down (`chord_exact`). Neither holds without: `release_split` and
`twin_modifier` are runs of an ordinary keyboard.
-/

namespace Vitrin

open Lib Machine ChordMatcher Modifier Modifiers

/-! ### A modifier set as its members -/

variable {p : Modifier → Bool}

namespace Modifiers

/-- `contains`. -/
def has (mods : Modifiers) (m : Modifier) : Bool := mods &&& m.bit ≠ 0

/-- The set with these members. -/
def of (ctrl shift alt super : Bool) : Modifiers :=
  (if ctrl then 1 else 0) ||| (if shift then 2 else 0) ||| (if alt then 4 else 0) ||| (if super then 8 else 0)

/-- The set of the modifiers with a property. -/
def ofPred (p : Modifier → Bool) : Modifiers := of (p .ctrl) (p .shift) (p .alt) (p .super)

theorem has_ofPred (p : Modifier → Bool) (m : Modifier) : (ofPred p).has m = p m := by
  have h : ∀ a b c d : Bool, (of a b c d).has .ctrl = a ∧ (of a b c d).has .shift = b ∧
      (of a b c d).has .alt = c ∧ (of a b c d).has .super = d := by decide
  obtain ⟨hc, hs, ha, hsu⟩ := h (p .ctrl) (p .shift) (p .alt) (p .super)
  cases m
  · exact hc
  · exact hs
  · exact ha
  · exact hsu

theorem ofPred_inj {q : Modifier → Bool} : ofPred p = ofPred q ↔ ∀ m, p m = q m := by
  refine ⟨fun h m => ?_, fun h => congrArg ofPred (funext h)⟩
  rw [← has_ofPred p, h, has_ofPred]

theorem adding_ofPred {m : Modifier} : (ofPred p).adding m = ofPred fun m' => m' = m ∨ p m' := by
  have h : ∀ a b c d : Bool, ∀ m : Modifier, (of a b c d).adding m =
      of (.ctrl = m ∨ a) (.shift = m ∨ b) (.alt = m ∨ c) (.super = m ∨ d) := by
    intro a b c d m
    revert a b c d
    cases m <;> decide
  exact h _ _ _ _ m

theorem without_ofPred {m : Modifier} : (ofPred p).without m = ofPred fun m' => m' ≠ m ∧ p m' := by
  have h : ∀ a b c d : Bool, ∀ m : Modifier, (of a b c d).without m =
      of (.ctrl ≠ m ∧ a) (.shift ≠ m ∧ b) (.alt ≠ m ∧ c) (.super ≠ m ∧ d) := by
    intro a b c d m
    revert a b c d
    cases m <;> decide
  exact h _ _ _ _ m

end Modifiers

/-- Why a chord is refused. -/
inductive ChordSpecError where
  | repeatedModifier
  | noModifier

/-- The loop of `ModChord::new`. -/
def Modifiers.collect (set : Modifiers) : List Modifier → Except ChordSpecError Modifiers
  | [] => .ok set
  | m :: mods => if set.has m then .error .repeatedModifier else (set.adding m).collect mods

/-- A chord of these modifiers and this key. -/
def ModChord.new (mods : List Modifier) (trigger : Trigger) : Except ChordSpecError ModChord :=
  match Modifiers.collect 0 mods with
  | .error e => .error e
  | .ok set => if h : set ≠ 0 then .ok ⟨set, trigger, h⟩ else .error .noModifier

variable {mods : List Modifier}

theorem Modifiers.collect_ok {se : Modifiers} (h : (ofPred p).collect mods = .ok se) :
    se = ofPred fun m => m ∈ mods ∨ p m := by
  induction mods generalizing p with
  | nil => simpa using (Except.ok.inj h).symm
  | cons m mods ih =>
    unfold collect at h
    split_ifs at h
    rw [adding_ofPred] at h
    rw [ih h, ofPred_inj]
    simp only [List.mem_cons, decide_eq_decide, decide_eq_true_eq]
    tauto

theorem ModChord.new_mods {t : Trigger} {c : ModChord} (h : ModChord.new mods t = .ok c) :
    c.mods = ofPred fun m => m ∈ mods := by
  unfold ModChord.new at h
  split at h
  · cases h
  next set hs =>
    split_ifs at h
    cases h
    have hn : (0 : Modifiers) = ofPred fun _ => false := rfl
    rw [hn] at hs
    simpa using collect_ok hs

/-! ### The keys that are down -/

structure HeldPress where
  source : KeySource
  keysym : Nat
  verdict : Gate

/-- The keys that are down after an event that was judged so. -/
def remember (held : List HeldPress) (input : SeatInput) (verdict : Gate) : List HeldPress := match input with
  | ⟨.physical, .key source keysym .pressed⟩ => ⟨source, keysym, verdict⟩ :: held
  | ⟨.physical, .key source _ .released⟩ => held.filter (·.source ≠ source)
  | _ => held

def chordStep {K : Type} : Machine (ChordMatcher K) SeatInput (Gate × Option K) := fun m input =>
  (m.observe input).gate input

/-- One event at the matcher, with the keys that are down. -/
def watchStep {K : Type} : Machine (ChordMatcher K × List HeldPress) SeatInput (Gate × Option K) := fun s input =>
  (((chordStep s.1 input).1, remember s.2 input (chordStep s.1 input).2.1), (chordStep s.1 input).2)

/-- A key goes down that is up, and goes up that is down. -/
def Alternating (held : List HeldPress) : SeatInput → Prop
  | ⟨.physical, .key source _ .pressed⟩ => ∀ e ∈ held, e.source ≠ source
  | ⟨.physical, .key source _ .released⟩ => ∃ e ∈ held, e.source = source
  | _ => True

/-- No key goes down as a keysym another key is down as, and each goes up as what it went down as. -/
def Paired (held : List HeldPress) (input : SeatInput) : Prop :=
  Alternating held input ∧ match input with
    | ⟨.physical, .key _ keysym .pressed⟩ => ∀ e ∈ held, e.keysym ≠ keysym
    | ⟨.physical, .key source keysym .released⟩ => ∀ e ∈ held, e.source = source → e.keysym = keysym
    | _ => True

/-- No key of a modifier goes down while another one of it is down, and each goes up as one of what it went down as. -/
def OneEach (held : List HeldPress) (input : SeatInput) : Prop :=
  Alternating held input ∧ match input with
    | ⟨.physical, .key _ keysym .pressed⟩ =>
      ∀ e ∈ held, (Modifier.ofKeysym keysym).isSome → Modifier.ofKeysym e.keysym ≠ Modifier.ofKeysym keysym
    | ⟨.physical, .key source keysym .released⟩ =>
      ∀ e ∈ held, e.source = source → Modifier.ofKeysym e.keysym = Modifier.ofKeysym keysym
    | _ => True

instance (held : List HeldPress) : DecidablePred (Alternating held) := fun input => by
  unfold Alternating
  split <;> infer_instance

instance (held : List HeldPress) : DecidablePred (Paired held) := fun input => by
  unfold Paired
  split <;> infer_instance

instance (held : List HeldPress) : DecidablePred (OneEach held) := fun input => by
  unfold OneEach
  split <;> infer_instance

section Runs

variable {K : Type} {m : ChordMatcher K} {held : List HeldPress} {bindings : List (ModChord × K)} {source : KeySource}
  {keysym : Nat}

theorem chordStep_press :
    chordStep m ⟨.physical, .key source keysym .pressed⟩ = match ofKeysym keysym, m.hit keysym with
      | some mo, _ => ({ m with down := m.down.adding mo }, .deliver, none)
      | none, some value => ({ m with consumed := m.consumed.insert keysym }, .consume, some value)
      | none, none => (m, .deliver, none) := by
  cases hm : ofKeysym keysym with
  | some mo => simp [chordStep, observe, gate, hm]
  | none =>
    cases hh : m.hit keysym <;> simp [chordStep, observe, gate, hm, hh]

theorem chordStep_release :
    chordStep m ⟨.physical, .key source keysym .released⟩ = match ofKeysym keysym with
      | some mo => ({ m with down := m.down.without mo }, .deliver, none)
      | none => if keysym ∈ m.consumed then ({ m with consumed := m.consumed.erase keysym }, .consume, none)
        else (m, .deliver, none) := by
  cases hm : ofKeysym keysym <;> simp [chordStep, observe, gate, hm]

variable {input : SeatInput}

/-- Nothing else is the matcher's. -/
theorem chordStep_other (h : ∀ source keysym st, input ≠ ⟨.physical, .key source keysym st⟩) :
    chordStep m input = (m, .deliver, none) := by
  obtain ⟨o, k⟩ := input
  cases o with
  | emulated => rfl
  | physical =>
    cases k with
    | key source keysym st => exact absurd rfl (h source keysym st)
    | _ => rfl

@[simp] theorem chordStep_bindings : (chordStep m input).1.bindings = m.bindings := by
  by_cases hk : ∃ source keysym st, input = ⟨.physical, .key source keysym st⟩
  · obtain ⟨source, keysym, st, rfl⟩ := hk
    cases st with
    | pressed => rw [chordStep_press]; split <;> rfl
    | released => rw [chordStep_release]; split <;> [rfl; split_ifs <;> rfl]
  · rw [chordStep_other (by simpa using hk)]

@[simp] theorem watchStep_exec {s : ChordMatcher K × List HeldPress} {ev : List SeatInput} :
    (watchStep.exec s ev).1 = chordStep.exec s.1 ev := by
  induction ev generalizing s with
  | nil => rfl
  | cons e ev ih => exact ih

/-! ### Taken keys -/

/-- No two of them have one `f`. -/
def Distinct {β : Type} (f : HeldPress → β) (held : List HeldPress) : Prop :=
  ∀ e ∈ held, ∀ e' ∈ held, f e = f e' → e = e'

/-- The keys that are down are different keys, of different keysyms, and the taken keysyms are those of the taken
ones. -/
structure Matched (consumed : List Nat) (held : List HeldPress) : Prop where
  sources : Distinct (·.source) held
  keysyms : Distinct (·.keysym) held
  nodup : consumed.Nodup
  taken : ∀ e ∈ held, e.keysym ∈ consumed ↔ e.verdict = .consume
  owed : ∀ k ∈ consumed, ∃ e ∈ held, e.keysym = k
  plain : ∀ e ∈ held, e.verdict = .consume → Modifier.ofKeysym e.keysym = none

variable {consumed : List Nat}

theorem Matched.press (h : Matched consumed held) (hs : ∀ e ∈ held, e.source ≠ source)
    (hf : ∀ e ∈ held, e.keysym ≠ keysym) : Matched consumed (⟨source, keysym, .deliver⟩ :: held) := by
  obtain ⟨hso, hk, hn, ht, how, hp⟩ := h
  constructor <;> grind [Distinct]

theorem Matched.take (h : Matched consumed held) (hs : ∀ e ∈ held, e.source ≠ source)
    (hf : ∀ e ∈ held, e.keysym ≠ keysym) (hm : ofKeysym keysym = none) :
    Matched (consumed.insert keysym) (⟨source, keysym, .consume⟩ :: held) := by
  obtain ⟨hso, hk, hn, ht, how, hp⟩ := h
  constructor <;> grind [Distinct, List.mem_cons_self]

variable {e : HeldPress}

theorem Matched.release (h : Matched consumed held) (he : e ∈ held) :
    Matched (if e.verdict = .consume then consumed.erase e.keysym else consumed)
      (held.filter (·.source ≠ e.source)) := by
  obtain ⟨hs, hk, hn, ht, how, hp⟩ := h
  constructor <;> grind [Distinct, List.Nodup.mem_erase_iff]

variable {s : ChordMatcher K × List HeldPress}

theorem watchStep_matched (hi : Paired s.2 input) (h : Matched s.1.consumed s.2) :
    Matched (watchStep s input).1.1.consumed (watchStep s input).1.2 := by
  obtain ⟨ha, hi⟩ := hi
  show Matched (chordStep s.1 input).1.consumed (remember s.2 input (chordStep s.1 input).2.1)
  unfold remember
  split
  · rw [chordStep_press]
    split
    · exact h.press ha hi
    next hm _ => exact h.take ha hi hm
    · exact h.press ha hi
  · obtain ⟨e, he, rfl⟩ := ha
    obtain rfl := hi e he rfl
    have hre := h.release he
    have ht := h.taken e he
    rw [chordStep_release]
    split
    next hm =>
      have hv : e.verdict ≠ .consume := fun hv => by simp [h.plain e he hv] at hm
      simpa [hv] using hre
    · split_ifs with hc <;> simpa [← ht, hc] using hre
  next hp hr =>
    rw [chordStep_other fun source keysym st => ?_]
    · exact h
    · rintro rfl
      cases st
      · exact hr _ _ rfl
      · exact hp _ _ rfl

/-- **Consumption is paired.** If keys alternate, are released as the keysym they were pressed as, and no two keys of
one keysym are down together, then the verdict on a release is that on the key's press; and the verdict on a press is
the same whatever chords were taken before. -/
theorem chord_paired (hnew : ChordMatcher.new bindings = some m) (events : List SeatInput) (source : KeySource)
    (keysym : Nat)
    (hpaired : watchStep.Along (fun s input => Paired s.2 input) (m, [])
      (events ++ [⟨.physical, .key source keysym .released⟩])) :
    (∃ e ∈ (watchStep.exec (m, []) events).2, e.source = source ∧ e.keysym = keysym ∧
        (chordStep (chordStep.exec m events) ⟨.physical, .key source keysym .released⟩).2 = (e.verdict, none)) ∧
      ∀ (source' : KeySource) (keysym' : Nat) (consumed : List Nat),
        (chordStep { chordStep.exec m events with consumed := consumed }
          ⟨.physical, .key source' keysym' .pressed⟩).2 =
        (chordStep (chordStep.exec m events) ⟨.physical, .key source' keysym' .pressed⟩).2 := by
  refine ⟨?_, fun source' keysym' consumed => ?_⟩
  · have hst : m.consumed = [] := by
      unfold new at hnew
      split_ifs at hnew
      exact Option.some.inj hnew ▸ rfl
    obtain ⟨hp, ⟨⟨e, he, rfl⟩, hs⟩, -⟩ := (watchStep.along_append _ _ _ _).mp hpaired
    obtain rfl := hs e he rfl
    have hr := watchStep.exec_along (P := fun s => Matched s.1.consumed s.2) (fun s input => watchStep_matched)
      (by constructor <;> simp [hst, Distinct]) hp
    have ht := hr.taken e he
    rw [watchStep_exec] at ht
    refine ⟨e, he, rfl, rfl, ?_⟩
    rw [chordStep_release]
    cases hv : e.verdict with
    | consume => rw [hr.plain e he hv, if_pos (ht.mpr hv)]
    | deliver =>
      have hf := mt ht.mp (by simp [hv])
      split <;> simp [hf]
  · have hh : hit { chordStep.exec m events with consumed := consumed } keysym' =
        (chordStep.exec m events).hit keysym' := rfl
    rw [chordStep_press, chordStep_press, hh]
    cases ofKeysym keysym' <;> cases (chordStep.exec m events).hit keysym' <;> rfl

/-! ### The modifiers that are down -/

/-- A key of the modifier is down. -/
def classHeld (held : List HeldPress) (modifier : Modifier) : Bool :=
  held.any fun e => Modifier.ofKeysym e.keysym = some modifier

@[simp] theorem classHeld_iff {mo : Modifier} : classHeld held mo ↔ ∃ e ∈ held, ofKeysym e.keysym = some mo := by
  simp [classHeld]

/-- The matcher's modifiers are those with a key down, and each has one. -/
structure Followed (down : Modifiers) (held : List HeldPress) : Prop where
  down : down = Modifiers.ofPred (classHeld held)
  sources : Distinct (·.source) held
  single : ∀ e ∈ held, ∀ e' ∈ held, ∀ modifier, Modifier.ofKeysym e.keysym = some modifier →
    Modifier.ofKeysym e'.keysym = some modifier → e = e'

theorem Followed.press {d : Modifiers} (h : Followed d held) (hs : ∀ e' ∈ held, e'.source ≠ e.source)
    (hf : ∀ e' ∈ held, (ofKeysym e.keysym).isSome → ofKeysym e'.keysym ≠ ofKeysym e.keysym) :
    Followed ((ofKeysym e.keysym).elim d d.adding) (e :: held) := by
  refine ⟨?_, by have := h.sources; grind [Distinct], by have := h.single; grind⟩
  cases hm : ofKeysym e.keysym with
  | none =>
    rw [Option.elim_none, h.down, ofPred_inj]
    simp [classHeld, hm]
  | some mo =>
    rw [Option.elim_some, h.down, adding_ofPred, ofPred_inj]
    intro m
    rw [Bool.eq_iff_iff, decide_eq_true_eq]
    simp only [classHeld_iff, List.exists_mem_cons_iff, hm, Option.some.injEq]
    rw [@eq_comm _ m]

theorem Followed.release {d : Modifiers} (h : Followed d held) (he : e ∈ held) :
    Followed ((ofKeysym e.keysym).elim d d.without) (held.filter (·.source ≠ e.source)) := by
  have hl : ∀ m, classHeld (held.filter (·.source ≠ e.source)) m ↔
      ofKeysym e.keysym ≠ some m ∧ classHeld held m := by
    have := h.sources
    have := h.single
    simp only [classHeld_iff]
    grind [Distinct]
  refine ⟨?_, by have := h.sources; grind [Distinct], by have := h.single; grind⟩
  cases hm : ofKeysym e.keysym with
  | none =>
    rw [Option.elim_none, h.down, ofPred_inj]
    intro m
    rw [Bool.eq_iff_iff, hl]
    simp [hm]
  | some mo =>
    rw [Option.elim_some, h.down, without_ofPred, ofPred_inj]
    intro m
    rw [Bool.eq_iff_iff, hl]
    rw [decide_eq_true_eq, hm, ne_eq, ne_eq, Option.some.injEq, @eq_comm _ m]

theorem watchStep_followed (hi : OneEach s.2 input) (h : Followed s.1.down s.2) :
    Followed (watchStep s input).1.1.down (watchStep s input).1.2 := by
  obtain ⟨ha, hi⟩ := hi
  show Followed (chordStep s.1 input).1.down (remember s.2 input (chordStep s.1 input).2.1)
  unfold remember
  split
  next source keysym =>
    have hpr := h.press (e := ⟨source, keysym, (chordStep s.1 ⟨.physical, .key source keysym .pressed⟩).2.1⟩)
      ha hi
    convert hpr using 1
    rw [chordStep_press]
    split <;> simp [*]
  · obtain ⟨e, he, rfl⟩ := ha
    have hre := h.release he
    rw [hi e he rfl] at hre
    convert hre using 1
    rw [chordStep_release]
    split
    · simp [*]
    · split_ifs <;> simp [*]
  next hp hr =>
    rw [chordStep_other fun source keysym st => ?_]
    · exact h
    · rintro rfl
      cases st
      · exact hr _ _ rfl
      · exact hp _ _ rfl

/-- The keysyms of the vocabulary name their entry, and none is a modifier's. -/
theorem Trigger.keysym_inj {t t' : Trigger} (h : t.keysym = t'.keysym) : t = t' := by
  have ha : ∀ a ∈ triggerVocabulary, ∀ b ∈ triggerVocabulary, a.2.2 = b.2.2 → a = b := by decide
  have he := ha _ t.listed _ t'.listed h
  cases t
  simp_all

theorem Trigger.not_modifier (t : Trigger) : ofKeysym t.keysym = none := by
  have ha : ∀ a ∈ triggerVocabulary, ofKeysym a.2.2 = none := by decide
  exact ha _ t.listed

/-- The chord came from its constructor. -/
def ModChord.Made (chord : ModChord) : Prop := ∃ mods, ModChord.new mods chord.trigger = .ok chord

theorem ModChord.Made.mods_eq {c : ModChord} (h : c.Made) : c.mods = ofPred c.mods.has := by
  obtain ⟨mods, hn⟩ := h
  have hm := ModChord.new_mods hn
  rw [hm, ofPred_inj]
  intro m
  rw [has_ofPred]

theorem ChordMatcher.hit_eq_some (hn : (m.bindings.map (·.1)).Nodup) (keysym : Nat) (v : K) :
    m.hit keysym = some v ↔
      ∃ c, (c, v) ∈ m.bindings ∧ c.trigger.keysym = keysym ∧ c.mods = m.down := by
  unfold hit
  rw [Option.map_eq_some_iff]
  constructor
  · rintro ⟨⟨c, v'⟩, hf, rfl⟩
    have hk := List.find?_some hf
    exact ⟨c, List.mem_of_find?_eq_some hf, by simpa using hk⟩
  · rintro ⟨c, hm, hk, hmo⟩
    obtain ⟨⟨c', v'⟩, hf⟩ : ∃ b, m.bindings.find?
        (fun b => b.1.trigger.keysym = keysym ∧ b.1.mods = m.down) = some b := by
      rw [← Option.isSome_iff_exists, List.find?_isSome]
      exact ⟨_, hm, by simp [hk, hmo]⟩
    -- Another one found would be the same chord: the key says the trigger.
    have hk' := List.find?_some hf
    simp only [decide_eq_true_eq] at hk'
    have hc : c' = c := by
      have ht := Trigger.keysym_inj (hk'.1.trans hk.symm)
      cases c
      cases c'
      simp_all
    subst hc
    have hv : v' = v := by
      have := List.inj_on_of_nodup_map hn (List.mem_of_find?_eq_some hf) hm rfl
      simpa using this
    exact ⟨_, hf, hv⟩

theorem chordStep_fires {v : K} :
    (chordStep m ⟨.physical, .key source keysym .pressed⟩).2.2 = some v ↔
      ofKeysym keysym = none ∧ m.hit keysym = some v := by
  rw [chordStep_press]
  cases ofKeysym keysym <;> cases m.hit keysym <;> simp

/-- **Chords are exact.** If no two keys of one modifier are down together, a press completes a chord exactly when it
is of the chord's key and the modifiers with a key down are the chord's. What principals make completes none, and
leaves no trace. -/
theorem chord_exact (hnew : ChordMatcher.new bindings = some m) (hmade : ∀ b ∈ bindings, b.1.Made)
    (events : List SeatInput) (hone : watchStep.Along (fun s input => OneEach s.2 input) (m, []) events) :
    (∀ (source : KeySource) (keysym : Nat) (value : K),
      (chordStep (chordStep.exec m events) ⟨.physical, .key source keysym .pressed⟩).2.2 = some value ↔
        ∃ chord, (chord, value) ∈ bindings ∧ chord.trigger.keysym = keysym ∧
          ∀ modifier, chord.mods.has modifier ↔
            ∃ e ∈ (watchStep.exec (m, []) events).2, Modifier.ofKeysym e.keysym = some modifier) ∧
      (∀ kind, (chordStep (chordStep.exec m events) (.emulated kind)).2 = (.deliver, none)) ∧
      chordStep.exec m events = chordStep.exec m (events.filter (·.origin = .physical)) := by
  obtain ⟨hn, rfl⟩ : (bindings.map (·.1)).Nodup ∧ m = ⟨bindings, 0, []⟩ := by
    unfold new at hnew
    split_ifs at hnew with h
    exact ⟨h, (Option.some.inj hnew).symm⟩
  have hb : (chordStep.exec ⟨bindings, 0, []⟩ events).bindings = bindings :=
    chordStep.exec_inv (P := fun m => m.bindings = bindings) (by simp) rfl events
  have hr := watchStep.exec_along (P := fun s => Followed s.1.down s.2)
    (fun s input => watchStep_followed)
    ⟨show (0 : Modifiers) = ofPred fun _ => false from rfl, by simp [Distinct], by simp⟩ hone
  rw [watchStep_exec] at hr
  refine ⟨fun source keysym value => ?_, fun _ => rfl, ?_⟩
  · rw [chordStep_fires, hit_eq_some (by rwa [hb]), hb]
    constructor
    · rintro ⟨-, chord, hm, hk, hmo⟩
      refine ⟨chord, hm, hk, fun modifier => ?_⟩
      rw [hmo, hr.down, has_ofPred, classHeld_iff]
    · rintro ⟨chord, hm, rfl, hmo⟩
      refine ⟨chord.trigger.not_modifier, chord, hm, rfl, ?_⟩
      rw [(hmade _ hm).mods_eq, hr.down, ofPred_inj]
      intro modifier
      rw [Bool.eq_iff_iff, hmo modifier, classHeld_iff]
  · generalize (⟨bindings, 0, []⟩ : ChordMatcher K) = m
    clear hone hr hb hnew
    induction events generalizing m with
    | nil => rfl
    | cons e events ih =>
      obtain ⟨o, kind⟩ := e
      cases o with
      | physical | emulated => exact ih _

end Runs

namespace Sample

/-- A press or a release of a key of the keyboard. -/
def stroke (scancode keysym : Nat) (state : PressState) : SeatInput := ⟨.physical, .key (.device scancode) keysym state⟩

def tab : Trigger := ⟨"tab", 15, 0xff09, by decide⟩

def insertKey : Trigger := ⟨"insert", 110, 0xff63, by decide⟩

def altTab : ModChord := ⟨4, tab, by decide⟩

def ctrlInsert : ModChord := ⟨1, insertKey, by decide⟩

def shiftedTab : List SeatInput :=
  [stroke 56 0xffe9 .pressed, stroke 15 0xff09 .pressed, stroke 42 0xffe1 .pressed, stroke 15 0xfe20 .released,
    stroke 42 0xffe1 .released, stroke 56 0xffe9 .released, stroke 15 0xff09 .pressed, stroke 15 0xff09 .released]

/-- Both control keys go down and the left one goes up. -/
def bothControls : List SeatInput :=
  [stroke 29 0xffe3 .pressed, stroke 97 0xffe4 .pressed, stroke 29 0xffe3 .released]

def matcherOf (chord : ModChord) : ChordMatcher Unit := ⟨[(chord, ())], 0, []⟩

end Sample

open Sample in
/-- Alt and Tab are pressed: the release of Tab is taken, as its press was. -/
theorem chord_paired_tab :
    (chordStep (chordStep.exec (matcherOf altTab) [stroke 56 0xffe9 .pressed, stroke 15 0xff09 .pressed])
      (stroke 15 0xff09 .released)).2 = (.consume, none) := by
  have hn : new [(altTab, ())] = some (matcherOf altTab) := by simp [new, matcherOf]
  have h := (chord_paired hn [stroke 56 0xffe9 .pressed, stroke 15 0xff09 .pressed] (.device 15) 0xff09 (by decide)).1
  obtain ⟨e, he, -, hk, hou⟩ := h
  have hv : ∀ e ∈ (watchStep.exec (matcherOf altTab, [])
      [stroke 56 0xffe9 .pressed, stroke 15 0xff09 .pressed]).2, e.keysym = 0xff09 → e.verdict = .consume := by decide
  rw [← hv e he hk]
  exact hou

open Sample in
/-- Shift goes down while Tab is: the key that was taken goes up as another keysym and is delivered, and the next
time it is pressed its press is delivered and its release is not. -/
theorem release_split :
    ChordMatcher.new [(altTab, ())] = some (matcherOf altTab) ∧
      watchStep.Along (fun s input => Alternating s.2 input) (matcherOf altTab, []) shiftedTab ∧
      (chordStep.outs (matcherOf altTab) shiftedTab).map (·.1) =
        [.deliver, .consume, .deliver, .deliver, .deliver, .deliver, .deliver, .consume] :=
  ⟨by simp [new, matcherOf], by decide, by decide⟩

open Sample in
/-- Control and Insert are pressed: the chord completes, as the held modifiers say it does. -/
theorem chord_exact_insert :
    (chordStep (chordStep.exec (matcherOf ctrlInsert) [stroke 29 0xffe3 .pressed])
      (stroke 110 0xff63 .pressed)).2.2 = some () := by
  have hn : new [(ctrlInsert, ())] = some (matcherOf ctrlInsert) := by simp [new, matcherOf]
  have h := (chord_exact hn (by simpa using ⟨[.ctrl], rfl⟩) [stroke 29 0xffe3 .pressed] (by decide)).1
    (.device 110) 0xff63 ()
  refine h.mpr ⟨ctrlInsert, by simp, rfl, fun mo => ?_⟩
  cases mo <;> decide

open Sample in
/-- Both control keys go down and one goes up: the chord does not complete with the other one down. -/
theorem twin_modifier :
    ChordMatcher.new [(ctrlInsert, ())] = some (matcherOf ctrlInsert) ∧
      watchStep.Along (fun s input => Alternating s.2 input) (matcherOf ctrlInsert, []) bothControls ∧
      (∀ modifier, ctrlInsert.mods.has modifier ↔ ∃ e ∈ (watchStep.exec (matcherOf ctrlInsert, []) bothControls).2,
          Modifier.ofKeysym e.keysym = some modifier) ∧
      (chordStep (chordStep.exec (matcherOf ctrlInsert) bothControls) (stroke 110 0xff63 .pressed)).2.2 = none := by
  refine ⟨by simp [new, matcherOf], by decide, fun modifier => ?_, by decide⟩
  cases modifier <;> decide

end Vitrin
