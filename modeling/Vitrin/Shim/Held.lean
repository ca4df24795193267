import Vitrin.Shim.Typing

/-!
# Which keys the app holds

The shim has two accounts of the keys that are down: a mark on each slot, and the set that
`wlr_keyboard` keeps, which a surface is handed when it gets the keyboard.

`Kept` says that the two accounts are one, and are what the app was told. Every step keeps
it unless a key that is held is released while no surface has the keyboard
(`seatStep_kept`); then a slot is down exactly from the press that was sent on it to the
release of that press's keysym (`keys_held`).

The proviso is needed. Without a focus the release takes the mark off the slot, but
`wlr_keyboard` is not told: the next surface is handed a key that nobody holds
(`phantom_key`).
-/

namespace Vitrin.Shim

open Lib

universe u

variable {σ : Type u}

/-! ### What the app was told -/

/-- The last press or release of the slot was a press. -/
def downIn (log : List (SeatMark σ)) (i : Nat) : Bool :=
  log.foldl (fun down m => match m with | .key j pressed _ _ => if j = i then pressed else down | _ => down) false

/-- A slot that is pressed is up, one that is released is down, and a surface is handed the slots that are down. -/
def SeatMark.Fits (down : Nat → Bool) : SeatMark σ → Prop
  | .key i pressed _ _ => pressed = !down i
  | .entered _ keys => ∀ i, i ∈ keys ↔ down i = true
  | .bound _ _ _ | .keymap => True

/-- Every mark fits what came before it. -/
inductive Faithful : List (SeatMark σ) → Prop
  | nil : Faithful []
  | concat {log : List (SeatMark σ)} {m : SeatMark σ} (h : Faithful log) (hm : m.Fits (downIn log)) :
      Faithful (log ++ [m])

namespace Seat

variable {r r' : Seat σ} {i : Nat}

/-- The marks on the slots, the set of `wlr_keyboard` and what the app was told agree. -/
structure Kept (r : Seat σ) : Prop where
  pressed : ∀ i, i ∈ r.pressed ↔ (r.slotAt i).held = true
  log : ∀ i, (r.slotAt i).held = downIn r.log i
  faithful : Faithful r.log

theorem Kept.noted (h : r.Kept) {m : SeatMark σ} (hk : m.sent = none) (hf : m.Fits (downIn r.log))
    (hl : r'.log = r.log ++ [m]) (hp : r'.pressed = r.pressed)
    (hh : ∀ i, (r'.slotAt i).held = (r.slotAt i).held) : r'.Kept where
  pressed i := by rw [hp, hh, h.pressed]
  log i := by
    rw [hh, h.log, hl, downIn, downIn, List.foldl_concat]
    cases m with
    | key => cases hk
    | _ => rfl
  faithful := hl ▸ h.faithful.concat hf

theorem Kept.keySend (h : r.Kept) {pressed : Bool} (hi : i < keySlots) (hh : (r.slotAt i).held = !pressed) :
    (r.keySend i pressed).Kept where
  pressed j := by
    rw [slotAt_keySend hi]
    have hj := h.pressed j
    cases pressed with
    | false =>
      simp only [Seat.keySend, Bool.false_eq_true, if_false]
      split_ifs with hij
      · simp [hij]
      · simp [hj, Ne.symm hij]
    | true =>
      simp only [Seat.keySend, if_true]
      split_ifs with hij
      · simp [hij]
      · simp [hj, Ne.symm hij]
  log j := by
    rw [slotAt_keySend hi]
    simp only [Seat.keySend, note, downIn, List.foldl_concat]
    split_ifs
    · rfl
    · exact h.log j
  faithful := by
    have hu : pressed = !downIn r.log i := by rw [← h.log, hh, Bool.not_not]
    exact h.faithful.concat hu

theorem Kept.keymapSync (h : r.Kept) : r.keymapSync.Kept := by
  have hh := (keymapSync_sends r).held
  rw [Seat.keymapSync] at hh ⊢
  split_ifs at hh ⊢
  · exact h.noted (m := .keymap) rfl trivial rfl rfl hh
  · exact h

theorem Kept.slotBind (h : r.Kept) {k c : Nat} (hb : r.slotBind k c = some (i, r')) : r'.Kept := by
  obtain ⟨-, rfl⟩ | ⟨t, -, -, rfl⟩ := slotBind_cases hb
  · exact h
  · exact h.noted (m := .bound _ k _) rfl trivial rfl rfl (slotBind_spec hb).1.held

theorem Kept.bindChunk (h : r.Kept) (c : Nat) (ke : List Nat) : (r.bindChunk c ke).2.Kept := by
  fun_induction Seat.bindChunk r c ke with
  | case1 | case2 => exact h
  | case3 r k ke i r' hb s r'' hc ih =>
    rw [hc] at ih
    exact ih (h.slotBind hb)

theorem Kept.typeSlots (h : r.Kept) {s : List Nat} (hu : ∀ i ∈ s, i < keySlots ∧ (r.slotAt i).held = false) :
    (r.typeSlots s).Kept := by
  induction s generalizing r with
  | nil => exact h
  | cons i s ih =>
    obtain ⟨⟨hi, hi'⟩, hs⟩ := List.forall_mem_cons.mp hu
    have hd : ((r.keySend i true).slotAt i).held = !false := by rw [slotAt_keySend hi, if_pos rfl]; rfl
    have hp : (r.keySend i true).Kept := h.keySend hi hi'
    refine ih (hp.keySend hi hd) ?_
    intro j hj
    rw [slotAt_press_release hi hi']
    exact hs j hj

theorem Kept.typeText (h : r.Kept) (f : Nat) (ke : List Nat) : (typeText f r ke).Kept := by
  fun_induction Seat.typeText f r ke with
  | case1 | case2 => exact h
  | case3 f r k ke r' hc =>
    have hb := h.bindChunk (r.bindSeq + 1) (k :: ke)
    rwa [hc] at hb
  | case4 f r k ke s r' hs hc ih =>
    have hu := bindChunk_up r (r.bindSeq + 1) (k :: ke)
    have hb := h.bindChunk (r.bindSeq + 1) (k :: ke)
    rw [hc] at hu hb
    refine ih (hb.keymapSync.typeSlots ?_)
    simpa only [slotAt_keymapSync] using hu

/-! ### Which key a slot is down for -/

def Holds (r : Seat σ) (i keysym : Nat) : Prop := (r.slotAt i).held = true ∧ (r.slotAt i).keysym = keysym

/-- The key event brings the slot down. -/
def Presses (r : Seat σ) (keysym i : Nat) : Prop :=
  (r.slotAt i).held = false ∧ ((r.replayKey keysym true).slotAt i).held = true

variable {k : Nat}

theorem Sends.holds {ke : List (Nat × Bool × Nat)} (h : r.Sends ke r') : r'.Holds i k ↔ r.Holds i k := by
  unfold Holds
  rw [h.held]
  refine and_congr_right fun hh => ?_
  rw [h.kept i hh]

/-- No two slots are held for one key. -/
structure Single (r : Seat σ) : Prop where
  real : ∀ {i k}, r.Holds i k → k ≠ noSymbol
  one : ∀ {i j k}, r.Holds i k → r.Holds j k → i = j

/-- A press that is sent is the only change, and is of a key that was not held. -/
theorem press_holds (r : Seat σ) (ke : Nat) :
    (∀ i k, (r.replayKey ke true).Holds i k ↔ k = ke ∧ r.Presses ke i ∨ r.Holds i k) ∧
      ∀ i, r.Presses ke i → ke ≠ noSymbol ∧ (∀ j, ¬ r.Holds j ke) ∧ ∀ j, r.Presses ke j → j = i := by
  have ht := r.replayKey_turn ke true
  unfold Presses
  generalize r.replayKey ke true = r' at ht ⊢
  cases ht with
  | ignored =>
    have hn (i : Nat) : ¬ ((r.slotAt i).held = false ∧ (r.slotAt i).held = true) := by simp
    simp
  | @pressed s b hz hf hb =>
    obtain ⟨hse, hi, hk, hu⟩ := slotBind_spec hb
    have hs := hse.trans (keymapSync_sends b)
    have hsl (i : Nat) : (r.slotAt i).held = false ∧
        ((b.keymapSync.keySend s true).slotAt i).held = true ↔ i = s := by
      rw [← hs.held, slotAt_keySend hi]
      split_ifs with his
      · simp [← his, slotAt_keymapSync, hu]
      · simp [Ne.symm his]
    simp only [hsl]
    refine ⟨?_, fun i hp => ⟨hz, fun j hj => ?_, fun j hj => hj.trans hp.symm⟩⟩
    swap
    · exact (slotFind_eq_none hz).mp hf j hj.2 hj.1
    intro i k
    rw [← hs.holds, Holds, slotAt_keySend hi]
    by_cases his : s = i
    · subst his
      simp [Holds, slotAt_keymapSync, hk, hu, eq_comm]
    · simp [his, Ne.symm his, Holds]

theorem release_holds (h : r.Single) (ke : Nat) : (r.replayKey ke false).Holds i k ↔ r.Holds i k ∧ k ≠ ke := by
  have ht := r.replayKey_turn ke false
  generalize r.replayKey ke false = r' at ht ⊢
  have hl {s : Nat} (hf : r.slotFind ke true = some s) (r' : Seat σ)
      (hs : ∀ j, r'.slotAt j = if s = j then { r.slotAt s with held := false } else r.slotAt j) :
      r'.Holds i k ↔ r.Holds i k ∧ k ≠ ke := by
    obtain ⟨-, hk, hh⟩ := slotFind_eq_some hf
    rw [Holds, hs]
    by_cases his : s = i
    · subst his
      simp [Holds, hk, hh, eq_comm]
    · rw [if_neg his]
      refine ⟨fun hi => ⟨hi, ?_⟩, And.left⟩
      rintro rfl
      exact his (h.one ⟨hh, hk⟩ hi)
  cases ht with
  | ignored hn =>
    refine ⟨fun hi => ⟨hi, ?_⟩, And.left⟩
    rintro rfl
    rcases hn rfl with hz | hn
    · exact h.real hi hz
    · exact (slotFind_eq_none (h.real hi)).mp hn _ hi.2 hi.1
  | released hf => exact hl hf _ (slotAt_keySend (slotFind_eq_some hf).1 false)
  | lifted hf => exact hl hf _ (slotAt_setSlot (slotFind_eq_some hf).1 _)

end Seat

/-! ### Runs -/

open Seat

variable {r : Seat σ} {xkb : Nat → Nat} {i k : Nat}

/-- No key that is held is released while no surface has the keyboard. -/
def Attended (r : Seat σ) : SeatOp σ → Prop
  | .key keysym false => r.focused = none → r.slotFind keysym true = none
  | _ => True

theorem seatStep_kept (h : r.Kept) {op : SeatOp σ} (hop : Attended r op) : (seatStep xkb r op).1.Kept := by
  cases op with
  | key keysym pressed =>
    have ht := r.replayKey_turn keysym pressed
    simp only [seatStep]
    generalize r.replayKey keysym pressed = r' at ht
    cases ht with
    | ignored => exact h
    | @pressed slot bound hz hfr hb =>
      obtain ⟨-, hi, -, hu⟩ := slotBind_spec hb
      refine (h.slotBind hb).keymapSync.keySend hi ?_
      rwa [slotAt_keymapSync]
    | released hf =>
      obtain ⟨hi, -, hh⟩ := slotFind_eq_some hf
      exact h.keySend hi hh
    | lifted hf hfo => cases (hop hfo).symm.trans hf
  | text utf8 =>
    simp only [seatStep, replayText]
    split_ifs
    · exact h
    · exact h.typeText _ _
  | focusKeyboard surface =>
    have hfi : ∀ i, i ∈ r.pressed ↔ downIn r.log i = true := fun i => by rw [h.pressed, h.log]
    exact h.noted (m := .entered surface r.pressed) rfl hfi rfl rfl fun _ => rfl
  | clearKeyboard => exact ⟨h.pressed, h.log, h.faithful⟩

theorem seatStep_holds (hr : r.Uploaded) (h : r.Single) (op : SeatOp σ) :
    (seatStep xkb r op).1.Holds i k ↔ op = .key k true ∧ r.Presses k i ∨ r.Holds i k ∧ op ≠ .key k false := by
  cases op with
  | key ke p =>
    cases p with
    | false =>
      refine (release_holds h ke).trans ?_
      simp [eq_comm]
    | true =>
      rw [show (seatStep xkb r (.key ke true)).1 = r.replayKey ke true from rfl, (press_holds r ke).1]
      refine or_congr ⟨?_, ?_⟩ (by simp)
      · rintro ⟨rfl, hp⟩
        exact ⟨rfl, hp⟩
      · rintro ⟨hop, hp⟩
        cases hop
        exact ⟨rfl, hp⟩
  | text u8 =>
    simp only [seatStep, replayText]
    split_ifs
    · simp
    · obtain ⟨t, hs, -⟩ := typeText_sends (Nat.le_refl (textKeysyms xkb u8).length) hr
      simp [hs.holds]
  | focusKeyboard s => simp [seatStep, focusKeyboard, Holds, slotAt, note]
  | clearKeyboard => simp [seatStep, clearKeyboard, Holds, slotAt]

theorem seatStep_single (hr : r.Uploaded) (h : r.Single) (op : SeatOp σ) : (seatStep xkb r op).1.Single where
  real hi := by
    rcases (seatStep_holds hr h op).mp hi with ⟨-, hp⟩ | ⟨hi, -⟩
    · exact ((press_holds r _).2 _ hp).1
    · exact h.real hi
  one hi hj := by
    rcases (seatStep_holds hr h op).mp hi with ⟨-, hp⟩ | ⟨hi, -⟩
    · obtain ⟨-, hn, hon⟩ := (press_holds r _).2 _ hp
      rcases (seatStep_holds hr h op).mp hj with ⟨-, hp'⟩ | ⟨hj, -⟩
      · exact (hon _ hp').symm
      · exact absurd hj (hn _)
    · rcases (seatStep_holds hr h op).mp hj with ⟨-, hp⟩ | ⟨hj, -⟩
      · exact absurd hi (((press_holds r _).2 _ hp).2.1 _)
      · exact h.one hi hj

/-- The slot was pressed for the keysym, and the keysym was not released since. -/
def StillDown (xkb : Nat → Nat) (ops : List (SeatOp σ)) (i keysym : Nat) : Prop :=
  ∃ before after, ops = before ++ .key keysym true :: after ∧
    ((seatStep xkb).exec (init xkb) before).Presses keysym i ∧ .key keysym false ∉ after

theorem stillDown_concat {ops : List (SeatOp σ)} {op : SeatOp σ} : StillDown xkb (ops ++ [op]) i k ↔
    op = .key k true ∧ ((seatStep xkb).exec (init xkb) ops).Presses k i ∨
      StillDown xkb ops i k ∧ op ≠ .key k false := by
  constructor
  · rintro ⟨b, a, hops, hp, hk⟩
    rcases List.eq_nil_or_concat a with rfl | ⟨a, l, rfl⟩
    · obtain ⟨rfl, hop⟩ := List.append_inj' hops rfl
      exact .inl ⟨List.singleton_inj.mp hop, hp⟩
    · rw [List.concat_eq_append, ← List.cons_append, ← List.append_assoc] at hops
      obtain ⟨rfl, hop⟩ := List.append_inj' hops rfl
      obtain rfl := List.singleton_inj.mp hop
      simp only [List.concat_eq_append, List.mem_append, List.mem_singleton, not_or] at hk
      exact .inr ⟨⟨b, a, rfl, hp, hk.1⟩, Ne.symm hk.2⟩
  · rintro (⟨rfl, hp⟩ | ⟨⟨b, a, rfl, hp, hk⟩, hop⟩)
    · exact ⟨ops, [], rfl, hp, by simp⟩
    · exact ⟨b, a ++ [op], by simp, hp, by simp [hk, Ne.symm hop]⟩

theorem init_up (xkb : Nat → Nat) (i : Nat) : ((init xkb : Seat σ).slotAt i).held = false := by
  simp only [init, slotAt, List.getD_eq_getElem?_getD, List.getElem?_map]
  cases (pinned xkb ++ List.replicate (keySlots - (pinned xkb).length) noSymbol)[i]? <;> rfl

/-- **The app's keyboard holds what the human holds, if no held key is released while no surface has the keyboard.**
After every such run the keys that `wlr_keyboard` has as pressed are the slots marked held, and these are the slots
which were pressed for a keysym that was not released since. Of what was sent, the presses and releases of each slot
alternate, and a surface was handed just the slots that were down. -/
theorem keys_held (xkb : Nat → Nat) (ops : List (SeatOp σ)) (hops : (seatStep xkb).Along Attended (init xkb) ops) :
    let r := (seatStep xkb).exec (init xkb) ops
    (∀ i, i ∈ r.pressed ↔ (r.slotAt i).held = true) ∧
      (∀ i, (r.slotAt i).held = true ↔ ∃ keysym, StillDown xkb ops i keysym) ∧
      (∀ i, (r.slotAt i).held = downIn r.log i) ∧ Faithful r.log := by
  intro r
  have hk : r.Kept := by
    refine (seatStep xkb).exec_along (fun _ _ hop h => seatStep_kept h hop) ⟨?_, init_up xkb, .nil⟩ hops
    intro i
    rw [init_up]
    simp [init]
  have hh : r.Uploaded ∧ r.Single ∧ ∀ i k, r.Holds i k ↔ StillDown xkb ops i k := by
    refine (seatStep xkb).exec_past
      (P := fun past (r : Seat σ) => r.Uploaded ∧ r.Single ∧ ∀ i k, r.Holds i k ↔ StillDown xkb past i k) ?_ ?_ ops
    · have hn (i k : Nat) : ¬ (init xkb : Seat σ).Holds i k := fun h => by
        rw [Holds, init_up] at h
        cases h.1
      refine ⟨init_uploaded xkb, ⟨fun h => absurd h (hn _ _), fun h => absurd h (hn _ _)⟩, fun i k => ?_⟩
      simp [hn, StillDown]
    · rintro past op ⟨hr, hs, hd⟩
      refine ⟨(seatStep_advances hr op).uploaded hr, seatStep_single hr hs op, fun i k => ?_⟩
      rw [seatStep_holds hr hs, stillDown_concat, hd]
  refine ⟨hk.pressed, fun i => ?_, hk.log, hk.faithful⟩
  simp [← hh.2.2, Holds]

/-- Shift is held while the focus moves. -/
theorem keys_held_shift :
    let ops : List (SeatOp Unit) := [.focusKeyboard (), .key 0xffe1 true, .clearKeyboard, .focusKeyboard ()]
    let r := (seatStep unicodeKeysym).exec (init unicodeKeysym) ops
    (seatStep unicodeKeysym).Along Attended (init unicodeKeysym) ops ∧ (r.slotAt 0).held = true ∧ 0 ∈ r.pressed ∧
      Faithful r.log := by
  intro ops r
  have hop : (seatStep unicodeKeysym).Along Attended (init unicodeKeysym) ops := by
    exact ⟨trivial, trivial, trivial, trivial, trivial⟩
  have hh : (r.slotAt 0).held = true := by decide +kernel
  obtain ⟨hp, -, -, hl⟩ := keys_held unicodeKeysym ops hop
  exact ⟨hop, hh, (hp 0).mpr hh, hl⟩

/-- Shift is released while no surface has the keyboard. The slot is up, and the next surface is told that it is down. -/
theorem phantom_key :
    let r := (seatStep unicodeKeysym).exec (init unicodeKeysym : Seat Unit)
      [.focusKeyboard (), .key 0xffe1 true, .clearKeyboard, .key 0xffe1 false]
    (r.slotAt 0).held = false ∧
      (seatStep unicodeKeysym r (.focusKeyboard ())).1.log = r.log ++ [.entered () [0]] := by
  intro r
  have he (r : Seat Unit) :
      (seatStep unicodeKeysym r (.focusKeyboard ())).1.log = r.log ++ [.entered () r.pressed] := rfl
  have hp : r.pressed = [0] := by decide +kernel
  exact ⟨by decide +kernel, by rw [he, hp]⟩

end Vitrin.Shim
