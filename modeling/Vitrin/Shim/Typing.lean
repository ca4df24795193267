import Vitrin.Shim.Seat
import Vitrin.Lib.Utf8
import Mathlib.Data.Finset.Card
import Mathlib.Data.List.Rotate

/-!
# What the app reads of a text

A text is typed in chunks: as many of its keysyms as can be are bound to slots, the keymap
is uploaded, and the slots are pressed and released one after the other. What the app reads
is each slot's keysym in that keymap.

A text is sent as pairs of a press and a release. The pairs read as the text, up to a keysym
that gets no slot, provided that the slots which the text's new keysyms would take hold none
of its keysyms, and are enough for them or none at all (`Suits`, `text_arrives`). Then no
chunk recycles a slot it has already chosen (`chunksIntact`).

A proviso is needed. The chunk floor protects the slots bound in the chunk, but not a slot
that was bound earlier and is used again: `slot_bind` returns it without a fresh sequence
number, and a later keysym of the chunk may take it (`reused_slot_recycled`).
-/

namespace Vitrin.Shim

open Lib
open Utf8 (encode)

universe u

variable {σ : Type u}

/-! ### Marks -/

/-- A slot that is bound is up, and so is one that is pressed; one that is released is down. -/
def SeatMark.Orderly : SeatMark σ → Prop
  | .bound _ _ held => held = false
  | .key _ pressed _ held => held = !pressed
  | .keymap | .entered _ _ => True

/-- A press or release: the slot, which of the two, and the keysym in the keymap in force. -/
def SeatMark.sent : SeatMark σ → Option (Nat × Bool × Nat)
  | .key slot pressed keysym _ => some (slot, pressed, keysym)
  | _ => none

def keysIn (marks : List (SeatMark σ)) : List (Nat × Bool × Nat) := marks.filterMap SeatMark.sent

/-- A slot is pressed and released, and read as a keysym. -/
def pair (typed : Nat × Nat) : List (Nat × Bool × Nat) := [(typed.1, true, typed.2), (typed.1, false, typed.2)]

variable {r : Seat σ}

namespace Seat

/-! ### The slots -/

variable {i : Nat}

theorem slotAt_setSlot (hi : i < keySlots) (s : KeySlot) (j : Nat) :
    (r.setSlot i s).slotAt j = if i = j then s else r.slotAt j := by
  have hi' : i < r.slots.length := by rwa [r.size]
  simp only [slotAt, setSlot, List.getD_eq_getElem?_getD, List.getElem?_set]
  split_ifs with hij
  · rfl
  · rfl

variable {k : Nat}

theorem slotFind_eq_some {held : Bool} (h : r.slotFind k held = some i) :
    i < keySlots ∧ (r.slotAt i).keysym = k ∧ (r.slotAt i).held = held := by
  rw [slotFind] at h
  split_ifs at h
  obtain ⟨hi, hs, -⟩ := List.findIdx?_eq_some_iff_getElem.mp h
  have ha : r.slotAt i = r.slots[i] := by simp [slotAt, hi]
  rw [ha]
  exact ⟨r.size ▸ hi, by simpa using hs⟩

theorem slotFind_eq_none {held : Bool} (hk : k ≠ noSymbol) :
    r.slotFind k held = none ↔ ∀ i, (r.slotAt i).keysym = k → (r.slotAt i).held ≠ held := by
  rw [slotFind, if_neg hk, List.findIdx?_eq_none_iff]
  constructor
  · intro h i hke
    rcases Nat.lt_or_ge i r.slots.length with hi | hi
    · have ha : r.slotAt i = r.slots[i] := by simp [slotAt, hi]
      have hs := h _ (List.getElem_mem hi)
      rw [ha] at hke ⊢
      simpa [hke] using hs
    · simp [slotAt, hi] at hke
      exact absurd hke.symm hk
  · intro h slot hm
    obtain ⟨i, hi, rfl⟩ := List.getElem_of_mem hm
    have ha : r.slotAt i = r.slots[i] := by simp [slotAt, hi]
    have hs := h i
    rw [ha] at hs
    simpa using hs

theorem ringSlot_lt (r : Seat σ) (t : Nat) : r.ringSlot t < keySlots := by
  have hr := r.roomy
  have hp : 0 < r.dynCount := by rw [dynCount]; omega
  have hm := Nat.mod_lt (r.ringNext + t) hp
  rw [ringSlot]
  rw [dynCount] at hm ⊢
  omega

/-- The keymap that the app has is that of the table, unless the table has changed since. -/
def Uploaded (r : Seat σ) : Prop :=
  r.keymapDirty = false → ∀ i, r.inForce.getD i noSymbol = (r.slotAt i).keysym

/-- From one seat to another the app is sent `keys`, in order; what was held is held, with its keysym. -/
structure Sends (r : Seat σ) (keys : List (Nat × Bool × Nat)) (r' : Seat σ) : Prop where
  log : ∃ marks, r'.log = r.log ++ marks ∧ keysIn marks = keys ∧ ∀ m ∈ marks, m.Orderly
  held : ∀ i, (r'.slotAt i).held = (r.slotAt i).held
  kept : ∀ i, (r.slotAt i).held = true → (r'.slotAt i).keysym = (r.slotAt i).keysym
  uploaded : r.Uploaded → r'.Uploaded

theorem Sends.refl (r : Seat σ) : r.Sends [] r where
  log := ⟨[], by simp [keysIn]⟩
  held _ := rfl
  kept _ _ := rfl
  uploaded := id

theorem Sends.trans {s t : Seat σ} {ke k' : List (Nat × Bool × Nat)} (h : r.Sends ke s) (h' : s.Sends k' t) :
    r.Sends (ke ++ k') t where
  log := by
    obtain ⟨ma, hl, hk, hma⟩ := h.log
    obtain ⟨m', hl', hk', hm'⟩ := h'.log
    refine ⟨ma ++ m', by rw [hl', hl, List.append_assoc], ?_, ?_⟩
    · rw [keysIn, List.filterMap_append]
      exact congrArg₂ _ hk hk'
    · intro m hm
      exact (List.mem_append.mp hm).elim (hma m) (hm' m)
  held i := (h'.held i).trans (h.held i)
  kept i hi := (h'.kept i ((h.held i).trans hi)).trans (h.kept i hi)
  uploaded := h'.uploaded ∘ h.uploaded

/-! ### Binding -/

variable {c : Nat} {r' : Seat σ}

theorem slotBind_cases (h : r.slotBind k c = some (i, r')) :
    (r.slotFind k false = some i ∧ r' = r) ∨
      ∃ t, i = r.ringSlot t ∧ (r.slotAt i).held = false ∧ r' = r.rebind k t := by
  rw [slotBind] at h
  split at h
  next j hj =>
    obtain ⟨rfl, rfl⟩ := Prod.mk.inj (Option.some.inj h)
    exact .inl ⟨hj, rfl⟩
  next =>
    split at h
    next t hf =>
      obtain ⟨rfl, rfl⟩ := Prod.mk.inj (Option.some.inj h)
      have hr := List.find?_some hf
      simp only [recyclable, Bool.and_eq_true, Bool.not_eq_true'] at hr
      exact .inr ⟨t, rfl, hr.1, rfl⟩
    next => cases h

theorem slotAt_rebind {k t j : Nat} : (r.rebind k t).slotAt j =
    if r.ringSlot t = j then { r.slotAt (r.ringSlot t) with keysym := k, boundSeq := r.bindSeq + 1 }
    else r.slotAt j :=
  slotAt_setSlot (r.ringSlot_lt t) _ j

theorem rebind_sends {t : Nat} (h : (r.slotAt (r.ringSlot t)).held = false) :
    r.Sends [] (r.rebind k t) where
  log := ⟨[.bound (r.ringSlot t) k (r.slotAt (r.ringSlot t)).held], rfl, rfl,
    by simpa [SeatMark.Orderly] using h⟩
  held i := by
    rw [slotAt_rebind]
    split_ifs with hi
    · exact hi ▸ rfl
    · rfl
  kept i hi := by
    rw [slotAt_rebind, if_neg]
    rintro rfl
    exact absurd (h.symm.trans hi) (by decide)
  uploaded _ hd := nomatch hd

theorem slotBind_spec (h : r.slotBind k c = some (i, r')) :
    r.Sends [] r' ∧ i < keySlots ∧ (r'.slotAt i).keysym = k ∧ (r'.slotAt i).held = false := by
  obtain ⟨hf, rfl⟩ | ⟨t, rfl, hh, rfl⟩ := slotBind_cases h
  · exact ⟨.refl _, slotFind_eq_some hf⟩
  · refine ⟨rebind_sends hh, r.ringSlot_lt t, ?_⟩
    rw [slotAt_rebind, if_pos rfl]
    exact ⟨rfl, hh⟩

/-- No keysym that the chunk still binds takes a slot in `taken`. -/
def intact (r : Seat σ) (chunkFloor : Nat) (taken : List Nat) : List Nat → Bool
  | [] => true
  | k :: keysyms => match r.slotBind k chunkFloor with
    | none => true
    | some (i, r') =>
      (taken.all fun j => (r'.slotAt j).keysym == (r.slotAt j).keysym) && r'.intact chunkFloor (i :: taken) keysyms

theorem bindChunk_sends (r : Seat σ) (c : Nat) (ke : List Nat) : r.Sends [] (r.bindChunk c ke).2 := by
  fun_induction bindChunk r c ke with
  | case1 r | case2 r k ke hb => exact .refl r
  | case3 r k ke i r' hb s r'' hc ih =>
    rw [hc] at ih
    exact (slotBind_spec hb).1.trans ih

theorem bindChunk_up (r : Seat σ) (c : Nat) (ke : List Nat) :
    ∀ i ∈ (r.bindChunk c ke).1,
      i < keySlots ∧ ((r.bindChunk c ke).2.slotAt i).held = false := by
  fun_induction bindChunk r c ke with
  | case1 | case2 => simp
  | case3 r k ke i r' hb s r'' hc ih =>
    have hs := bindChunk_sends r' c ke
    rw [hc] at ih hs
    obtain ⟨-, hi, -, hu⟩ := slotBind_spec hb
    exact List.forall_mem_cons.mpr ⟨⟨hi, (hs.held i).trans hu⟩, ih⟩

theorem bindChunk_stops (r : Seat σ) (c : Nat) (ke : List Nat) :
    ke.drop (r.bindChunk c ke).1.length = [] ∨ ∃ k re, ke.drop (r.bindChunk c ke).1.length = k :: re ∧
        (r.bindChunk c ke).2.slotBind k c = none := by
  fun_induction bindChunk r c ke with
  | case1 r => exact .inl rfl
  | case2 r k ke hb => exact .inr ⟨k, ke, rfl, hb⟩
  | case3 r k ke i r' hb s r'' hc ih =>
    rw [hc] at ih
    exact ih

theorem bindChunk_taken {t ke : List Nat} (h : r.intact c t ke = true) :
    ∀ j ∈ t, ((r.bindChunk c ke).2.slotAt j).keysym = (r.slotAt j).keysym := by
  fun_induction bindChunk r c ke generalizing t with
  | case1 | case2 => exact fun _ _ => rfl
  | case3 r k ke i r' hb s r'' hc ih =>
    rw [hc] at ih
    simp only [intact, hb, Bool.and_eq_true, List.all_eq_true, beq_iff_eq] at h
    intro j hj
    exact (ih h.2 j (List.mem_cons_of_mem i hj)).trans (h.1 j hj)

theorem bindChunk_carries {t ke : List Nat} (h : r.intact c t ke = true) :
    (r.bindChunk c ke).1.map (fun i => ((r.bindChunk c ke).2.slotAt i).keysym) =
      ke.take (r.bindChunk c ke).1.length := by
  fun_induction bindChunk r c ke generalizing t with
  | case1 | case2 => rfl
  | case3 r k ke i r' hb s r'' hch ih =>
    simp only [intact, hb, Bool.and_eq_true] at h
    have hi := bindChunk_taken h.2 i (.head _)
    have hc := ih h.2
    rw [hch] at hi hc
    obtain ⟨-, -, hk, -⟩ := slotBind_spec hb
    rw [List.map_cons, List.length_cons, List.take_succ_cons, hi, hk, hc]

/-! ### Typing -/

theorem slotAt_keymapSync : r.keymapSync.slotAt i = r.slotAt i := by
  rw [keymapSync]
  split_ifs <;> rfl

theorem keymapSync_reads (h : r.Uploaded) (i : Nat) : r.keymapSync.inForce.getD i noSymbol = (r.slotAt i).keysym := by
  rw [keymapSync]
  split_ifs with hd
  · simp only [List.getD_eq_getElem?_getD, List.getElem?_map]
    exact Option.getD_map KeySlot.keysym ⟨noSymbol, false, 0⟩ _
  · exact h (by simpa using hd) i

theorem keymapSync_sends (r : Seat σ) : r.Sends [] r.keymapSync where
  log := by
    rw [keymapSync]
    split_ifs
    · exact ⟨[.keymap], rfl, rfl, by simp [SeatMark.Orderly]⟩
    · exact (Sends.refl r).log
  held i := by rw [slotAt_keymapSync]
  kept i _ := by rw [slotAt_keymapSync]
  uploaded h _ i := by rw [keymapSync_reads h, slotAt_keymapSync]

theorem slotAt_keySend (hi : i < keySlots) (p : Bool) (j : Nat) :
    (r.keySend i p).slotAt j = if i = j then { r.slotAt i with held := p } else r.slotAt j :=
  slotAt_setSlot hi _ j

theorem slotAt_press_release (hi : i < keySlots) (hu : (r.slotAt i).held = false) (j : Nat) :
    ((r.keySend i true).keySend i false).slotAt j = r.slotAt j := by
  rw [slotAt_keySend hi, slotAt_keySend hi, slotAt_keySend hi, if_pos rfl]
  split_ifs with hij
  · rw [← hij, ← hu]
  · rfl

theorem press_release_sends (hi : i < keySlots) (hu : (r.slotAt i).held = false) :
    r.Sends (pair (i, r.inForce.getD i noSymbol)) ((r.keySend i true).keySend i false) where
  log := by
    have hdo : ((r.keySend i true).slotAt i).held = true := by rw [slotAt_keySend hi, if_pos rfl]
    refine ⟨[.key i true (r.inForce.getD i noSymbol) (r.slotAt i).held,
      .key i false (r.inForce.getD i noSymbol) ((r.keySend i true).slotAt i).held], ?_, rfl, ?_⟩
    · exact List.append_assoc r.log _ _
    · simp [SeatMark.Orderly, hu, hdo]
  held j := by rw [slotAt_press_release hi hu]
  kept j _ := by rw [slotAt_press_release hi hu]
  uploaded h hd j := (h hd j).trans (by rw [slotAt_press_release hi hu])

theorem typeSlots_sends {s : List Nat} (hu : ∀ i ∈ s, i < keySlots ∧ (r.slotAt i).held = false) :
    r.Sends ((s.map fun i => (i, r.inForce.getD i noSymbol)).flatMap pair) (r.typeSlots s) := by
  induction s generalizing r with
  | nil => exact .refl r
  | cons i s ih =>
    obtain ⟨⟨hi, hi'⟩, hs⟩ := List.forall_mem_cons.mp hu
    refine (press_release_sends hi hi').trans (ih ?_)
    intro j hj
    rw [slotAt_press_release hi hi']
    exact hs j hj

/-- No chunk of the text recycles a slot it has already chosen. -/
def chunksIntact : Nat → Seat σ → List Nat → Bool
  | 0, _, _ => true
  | _, _, [] => true
  | fuel + 1, r, k :: keysyms =>
    r.intact (r.bindSeq + 1) [] (k :: keysyms) &&
      match r.bindChunk (r.bindSeq + 1) (k :: keysyms) with
      | ([], _) => true
      | (slots, r) => chunksIntact fuel (r.keymapSync.typeSlots slots) ((k :: keysyms).drop slots.length)

/-! ### The ring -/

/-- The slots that can be recycled, in the order in which the ring gives them out. -/
def spare (r : Seat σ) (chunkFloor : Nat) : List Nat :=
  ((List.range r.dynCount).map r.ringSlot).filter (r.recyclable chunkFloor)

/-- The keysyms of a text that no free slot has. -/
def fresh (r : Seat σ) (keysyms : List Nat) : Finset Nat :=
  keysyms.toFinset.filter fun k => r.slotFind k false = none

/-- None of the slots that the keysyms in need of one would take has a keysym of the text; and there are enough of them,
or none at all. -/
def Suits (r : Seat σ) (keysyms : List Nat) : Prop :=
  let spare := r.spare (r.bindSeq + 1)
  let needed := (r.fresh keysyms).card
  (∀ i ∈ spare.take needed, (r.slotAt i).keysym ∉ keysyms) ∧ (needed ≤ spare.length ∨ spare = [])

instance (r : Seat σ) (keysyms : List Nat) : Decidable (r.Suits keysyms) := inferInstanceAs (Decidable (_ ∧ _))

theorem ring_eq_rotate (r : Seat σ) : (List.range r.dynCount).map r.ringSlot =
    ((List.range r.dynCount).map (r.warmSlots + ·)).rotate r.ringNext := by
  refine List.ext_getElem (by simp) fun t ht _ => ?_
  simp [List.getElem_rotate, ringSlot, Nat.add_comm]

theorem ring_nodup (r : Seat σ) : ((List.range r.dynCount).map r.ringSlot).Nodup := by
  rw [ring_eq_rotate, List.nodup_rotate]
  exact List.nodup_range.map fun _ _ h => Nat.add_left_cancel h

/-- A keysym that no free slot has gets the first slot the ring has to give out, which is not given out again. -/
theorem slotBind_spare {rest : List Nat} (hk : k ≠ noSymbol) (hf : r.slotFind k false = none)
    (hc : c ≤ r.bindSeq + 1) (hs : r.spare c = i :: rest) : ∃ r', r.slotBind k c = some (i, r') ∧
      r'.spare c = rest ∧ c ≤ r'.bindSeq + 1 ∧ i ∉ rest ∧ (∀ j, j ≠ i → r'.slotAt j = r.slotAt j) ∧
      (r'.slotAt i).keysym = k ∧ (r'.slotAt i).held = false := by
  obtain ⟨pre, post, hring, hpre, hi, hpost⟩ := List.filter_eq_cons_iff.mp hs
  -- the scan passes over `pre`, and the next one begins behind `i`
  have hlen : pre.length < r.dynCount := by
    have := congrArg List.length hring
    simp at this
    omega
  have hslot : r.ringSlot pre.length = i := by
    have := congrArg (·[pre.length]?) hring
    simpa [hlen] using this
  have hbefore : ∀ t < pre.length, r.recyclable c (r.ringSlot t) = false := fun t ht => by
    have := congrArg (·[t]?) hring
    simp only [List.getElem?_map, List.getElem?_range (ht.trans hlen), Option.map_some,
      List.getElem?_append_left ht, List.getElem?_eq_getElem ht, Option.some_inj] at this
    simpa [this] using hpre _ (List.getElem_mem ht)
  have hfind : ((List.range r.dynCount).find? fun t => r.recyclable c (r.ringSlot t)) = some pre.length := by
    rw [List.find?_range_eq_some]
    exact ⟨by rwa [hslot], by simpa using hlen, by simpa using hbefore⟩
  have hnodup := r.ring_nodup
  rw [hring] at hnodup
  obtain ⟨hnp, hnc, hdis⟩ := List.nodup_append.mp hnodup
  have hslots : ∀ j, (r.rebind k pre.length).slotAt j =
      if i = j then { r.slotAt i with keysym := k, boundSeq := r.bindSeq + 1 } else r.slotAt j := fun j => by
    rw [slotAt_rebind, hslot]
  have hheld : (r.slotAt i).held = false := by
    simp only [recyclable, Bool.and_eq_true, Bool.not_eq_true'] at hi
    exact hi.1
  have hrot : (List.range (r.rebind k pre.length).dynCount).map (r.rebind k pre.length).ringSlot =
      post ++ (pre ++ [i]) := by
    rw [ring_eq_rotate]
    change (((List.range r.dynCount).map (r.warmSlots + ·)).rotate ((r.ringNext + pre.length + 1) % r.dynCount)) = _
    have hmod := List.rotate_mod ((List.range r.dynCount).map (r.warmSlots + ·)) (r.ringNext + pre.length + 1)
    rw [List.length_map, List.length_range] at hmod
    have hlen' : pre.length + 1 = (pre ++ [i]).length := by simp
    rw [hmod, Nat.add_assoc, ← List.rotate_rotate, ← ring_eq_rotate, hring, List.append_cons, hlen',
      List.rotate_append_length_eq]
  have hsame : ∀ j, j ≠ i → (r.rebind k pre.length).recyclable c j = r.recyclable c j := fun j hj => by
    rw [recyclable, recyclable, hslots, if_neg (Ne.symm hj)]
  refine ⟨r.rebind k pre.length, ?_, ?_, Nat.le_succ_of_le hc, ?_, fun j hj => ?_, ?_, ?_⟩
  · rw [slotBind, hf]
    dsimp only
    rw [hfind]
    dsimp only
    rw [hslot]
  · have hgone : (pre ++ [i]).filter ((r.rebind k pre.length).recyclable c) = [] := by
      refine List.filter_eq_nil_iff.mpr fun j hj => ?_
      rcases List.mem_append.mp hj with hj | hj
      · rw [hsame j fun h => hdis j hj i (.head _) h]
        exact hpre j hj
      · obtain rfl := List.mem_singleton.mp hj
        simp [recyclable, hslots, hk, hc]
    rw [spare, hrot, List.filter_append, hgone, List.append_nil, ← hpost]
    refine List.filter_congr fun j hj => hsame j ?_
    rintro rfl
    exact (List.nodup_cons.mp hnc).1 hj
  · rw [← hpost]
    exact fun hm => (List.nodup_cons.mp hnc).1 (List.mem_filter.mp hm).1
  · rw [hslots, if_neg (Ne.symm hj)]
  · rw [hslots, if_pos rfl]
  · rw [hslots, if_pos rfl]
    exact hheld

/-- A keysym that is bound to the first slot of the ring is fresh no longer, and the others are as before. -/
theorem fresh_cons {r r' : Seat σ} {text ke : List Nat} (hk : k ≠ noSymbol) (hke : ∀ x ∈ ke, x ∈ text ∧ x ≠ noSymbol)
    (hf : r.slotFind k false = none) (hnot : (r.slotAt i).keysym ∉ text)
    (hkeep : ∀ j, j ≠ i → r'.slotAt j = r.slotAt j) (hki : (r'.slotAt i).keysym = k)
    (hup : (r'.slotAt i).held = false) : (r.fresh (k :: ke)).card = (r'.fresh ke).card + 1 := by
  have hk' : r'.slotFind k false ≠ none := fun hn => (slotFind_eq_none hk).mp hn i hki hup
  have hother : ∀ x ∈ ke, x ≠ k → (r'.slotFind x false = none ↔ r.slotFind x false = none) := by
    intro x hx hxk
    rw [slotFind_eq_none (hke x hx).2, slotFind_eq_none (hke x hx).2]
    refine forall_congr' fun j => ?_
    by_cases hj : j = i
    · subst hj
      have hnew : (r'.slotAt j).keysym ≠ x := hki ▸ Ne.symm hxk
      have hold : (r.slotAt j).keysym ≠ x := fun h => hnot (h ▸ (hke x hx).1)
      simp [hnew, hold]
    · rw [hkeep j hj]
  have hinsert : r.fresh (k :: ke) = insert k (r'.fresh ke) := by
    ext x
    simp only [fresh, List.toFinset_cons, Finset.mem_filter, Finset.mem_insert, List.mem_toFinset]
    by_cases hxk : x = k
    · simp [hxk, hf]
    · simp only [hxk, false_or]
      exact and_congr_right fun hx => (hother x hx hxk).symm
  rw [hinsert, Finset.card_insert_of_notMem (by simp [fresh, hk'])]

theorem slotBind_eq_none (hf : r.slotFind k false = none) (hs : r.spare c = []) : r.slotBind k c = none := by
  have hn : ((List.range r.dynCount).find? fun t => r.recyclable c (r.ringSlot t)) = none := by
    simpa [spare, List.find?_eq_none, List.filter_eq_nil_iff] using hs
  rw [slotBind, hf]
  dsimp only
  rw [hn]

/-- What is left of a text is bound without recycling a slot that has a keysym of the text. -/
theorem bindChunk_suits {text ke t : List Nat} (hke : ∀ x ∈ ke, x ∈ text ∧ x ≠ noSymbol) (hc : c ≤ r.bindSeq + 1)
    (ht : ∀ j ∈ t, (r.slotAt j).keysym ∈ text)
    (h : ∀ i ∈ (r.spare c).take (r.fresh ke).card, (r.slotAt i).keysym ∉ text) :
    r.intact c t ke = true ∧ ((r.fresh ke).card ≤ (r.spare c).length → (r.bindChunk c ke).1.length = ke.length) := by
  induction ke generalizing r t with
  | nil => exact ⟨rfl, fun _ => rfl⟩
  | cons k ke ih =>
    obtain ⟨⟨hk, hkz⟩, hke⟩ := List.forall_mem_cons.mp hke
    rw [intact, bindChunk]
    cases hf : r.slotFind k false with
    | some i =>
      have hb : r.slotBind k c = some (i, r) := by rw [slotBind, hf]
      have hfresh : r.fresh (k :: ke) = r.fresh ke := by
        simp [fresh, List.toFinset_cons, Finset.filter_insert, hf]
      rw [hfresh] at h ⊢
      have hki := (slotFind_eq_some hf).2.1
      obtain ⟨hint, hlen⟩ := ih (t := i :: t) hke hc (List.forall_mem_cons.mpr ⟨hki ▸ hk, ht⟩) h
      rw [hb]
      refine ⟨by simp [hint], fun hle => ?_⟩
      exact congrArg (· + 1) (hlen hle)
    | none =>
      cases hs : r.spare c with
      | nil =>
        rw [slotBind_eq_none hf hs]
        have hmem : k ∈ r.fresh (k :: ke) := by simp [fresh, hf]
        exact ⟨rfl, fun hle => absurd hmem (Finset.card_eq_zero.mp (Nat.le_zero.mp hle) ▸ Finset.notMem_empty k)⟩
      | cons i rest =>
        obtain ⟨r', hb, hrest, hc', hni, hkeep, hki, hup⟩ := slotBind_spare hkz hf hc hs
        have hpos : 0 < (r.fresh (k :: ke)).card := Finset.card_pos.mpr ⟨k, by simp [fresh, hf]⟩
        have hnot : (r.slotAt i).keysym ∉ text := by
          refine h i ?_
          rw [hs, ← Nat.succ_pred_eq_of_pos hpos, List.take_succ_cons]
          exact .head _
        have hcard := fresh_cons hkz hke hf hnot hkeep hki hup
        have hne : ∀ j ∈ t, j ≠ i := fun j hj hji => hnot (hji ▸ ht j hj)
        have htaken : ∀ j ∈ i :: t, (r'.slotAt j).keysym ∈ text := by
          refine List.forall_mem_cons.mpr ⟨hki ▸ hk, fun j hj => ?_⟩
          rw [hkeep j (hne j hj)]
          exact ht j hj
        have hleft : ∀ j ∈ (r'.spare c).take (r'.fresh ke).card, (r'.slotAt j).keysym ∉ text := by
          intro j hj
          rw [hrest] at hj
          rw [hkeep j fun h => hni (h ▸ List.mem_of_mem_take hj)]
          refine h j ?_
          rw [hs, hcard, List.take_succ_cons]
          exact .tail _ hj
        obtain ⟨hint, hlen⟩ := ih hke hc' htaken hleft
        rw [hb]
        constructor
        · simp only [hint, Bool.and_true, List.all_eq_true]
          intro j hj
          rw [hkeep j (hne j hj)]
          exact beq_self_eq_true _
        · intro hle
          rw [hcard, List.length_cons] at hle
          exact congrArg (· + 1) (hlen (hrest ▸ Nat.le_of_succ_le_succ hle))

theorem bindChunk_full (hs : r.spare c = []) (ke : List Nat) : (r.bindChunk c ke).2 = r := by
  induction ke with
  | nil => rfl
  | cons k ke ih =>
    rw [bindChunk]
    cases hf : r.slotFind k false with
    | some i =>
      have hb : r.slotBind k c = some (i, r) := by rw [slotBind, hf]
      rw [hb]
      exact ih
    | none => rw [slotBind_eq_none hf hs]

theorem typeSlots_spare {s : List Nat} (hu : ∀ i ∈ s, i < keySlots ∧ (r.slotAt i).held = false) (c : Nat) :
    (r.typeSlots s).spare c = r.spare c ∧ (r.typeSlots s).bindSeq = r.bindSeq := by
  induction s generalizing r with
  | nil => exact ⟨rfl, rfl⟩
  | cons i s ih =>
    obtain ⟨⟨hi, hi'⟩, hs⟩ := List.forall_mem_cons.mp hu
    obtain ⟨hsp, hse⟩ := ih (r := (r.keySend i true).keySend i false) fun j hj => by
      rw [slotAt_press_release hi hi']
      exact hs j hj
    refine ⟨hsp.trans (List.filter_congr fun j _ => ?_), hse⟩
    rw [recyclable, recyclable, slotAt_press_release hi hi']

/-- A ring with nothing to give out stays so, and no chunk recycles anything. -/
theorem chunksIntact_full {f : Nat} {ke : List Nat} (hke : ∀ x ∈ ke, x ≠ noSymbol)
    (hs : r.spare (r.bindSeq + 1) = []) : chunksIntact f r ke = true := by
  induction f generalizing r ke with
  | zero => rfl
  | succ f ih =>
    cases ke with
    | nil => rfl
    | cons k ke =>
      have hmem : ∀ x ∈ k :: ke, x ∈ k :: ke ∧ x ≠ noSymbol := fun x hx => ⟨hx, hke x hx⟩
      have hin := (bindChunk_suits (t := []) hmem (Nat.le_refl (r.bindSeq + 1)) nofun (by simp [hs])).1
      have hup := bindChunk_up r (r.bindSeq + 1) (k :: ke)
      have hfull := bindChunk_full hs (k :: ke)
      rw [chunksIntact, hin, Bool.true_and]
      generalize r.bindChunk (r.bindSeq + 1) (k :: ke) = chunk at hup hfull
      obtain ⟨s, r'⟩ := chunk
      obtain rfl : r' = r := hfull
      split
      · rfl
      · have hup' : ∀ i ∈ s, i < keySlots ∧ (r'.keymapSync.slotAt i).held = false := by
          simpa only [slotAt_keymapSync] using hup
        have hsync : r'.keymapSync.spare (r'.bindSeq + 1) = r'.spare (r'.bindSeq + 1) ∧
            r'.keymapSync.bindSeq = r'.bindSeq := by
          rw [keymapSync]
          split_ifs <;> exact ⟨rfl, rfl⟩
        obtain ⟨hsp, hse⟩ := typeSlots_spare hup' (r'.bindSeq + 1)
        rename_i heq
        obtain ⟨rfl, rfl⟩ := Prod.mk.inj heq
        refine ih (fun x hx => hke x (List.mem_of_mem_drop hx)) ?_
        rw [hse, hsync.2, hsp, hsync.1, hs]

theorem Suits.chunksIntact {f : Nat} {ke : List Nat} (hke : ∀ x ∈ ke, x ≠ noSymbol) (h : r.Suits ke) :
    chunksIntact f r ke = true := by
  obtain ⟨hno, hle | hfull⟩ := h
  · cases f with
    | zero => rfl
    | succ f =>
      cases ke with
      | nil => rfl
      | cons k ke =>
        have hmem : ∀ x ∈ k :: ke, x ∈ k :: ke ∧ x ≠ noSymbol := fun x hx => ⟨hx, hke x hx⟩
        obtain ⟨hin, hlen⟩ := bindChunk_suits (t := []) hmem (Nat.le_refl _) nofun hno
        have hlen := hlen hle
        rw [Seat.chunksIntact, hin, Bool.true_and]
        -- one chunk is enough for all of the text
        split
        · rfl
        · next heq =>
          rw [heq] at hlen
          rw [List.drop_of_length_le (Nat.le_of_eq hlen.symm)]
          cases f <;> rfl
  · exact chunksIntact_full hke hfull

/-- What is read is the text, or its beginning up to a keysym that gets no slot. -/
def Reads (keysyms typed : List Nat) (r : Seat σ) : Prop :=
  typed = keysyms ∨ ∃ k rest, keysyms = typed ++ k :: rest ∧ r.slotBind k (r.bindSeq + 1) = none

theorem chunk_sends (hr : r.Uploaded) (c : Nat) (ke : List Nat) : let (s, r') := r.bindChunk c ke
    r.Sends ((s.map fun i => (i, (r'.slotAt i).keysym)).flatMap pair) (r'.keymapSync.typeSlots s) := by
  have hb := bindChunk_sends r c ke
  have hu := bindChunk_up r c ke
  generalize r.bindChunk c ke = chunk at hb hu
  obtain ⟨s, r'⟩ := chunk
  have hu' : ∀ i ∈ s, i < keySlots ∧ (r'.keymapSync.slotAt i).held = false := by
    simpa only [slotAt_keymapSync] using hu
  have ht := typeSlots_sends hu'
  simp only [keymapSync_reads (hb.uploaded hr)] at ht
  exact (hb.trans (keymapSync_sends r')).trans ht

theorem typeText_sends {f : Nat} {ke : List Nat} (hf : ke.length ≤ f) (hr : r.Uploaded) :
    ∃ t : List (Nat × Nat), r.Sends (t.flatMap pair) (typeText f r ke) ∧
      (chunksIntact f r ke = true → Reads ke (t.map Prod.snd) (typeText f r ke)) := by
  induction f generalizing r ke with
  | zero =>
    obtain rfl := List.length_eq_zero_iff.mp (Nat.le_zero.mp hf)
    exact ⟨[], .refl r, fun _ => .inl rfl⟩
  | succ f ih =>
    cases ke with
    | nil => exact ⟨[], .refl r, fun _ => .inl rfl⟩
    | cons k ke =>
      have hc := chunk_sends hr (r.bindSeq + 1) (k :: ke)
      have hst := bindChunk_stops r (r.bindSeq + 1) (k :: ke)
      have hca := @bindChunk_carries _ r (r.bindSeq + 1) [] (k :: ke)
      have hni : (r.bindChunk (r.bindSeq + 1) (k :: ke)).1 = [] →
          (r.bindChunk (r.bindSeq + 1) (k :: ke)).2 = r := by
        rw [bindChunk]
        split <;> simp
      rw [typeText, chunksIntact]
      generalize r.bindChunk (r.bindSeq + 1) (k :: ke) = chunk at *
      obtain ⟨s, r'⟩ := chunk
      cases s with
      | nil =>
        obtain rfl := hni rfl
        refine ⟨[], .refl r', fun _ => .inr ?_⟩
        obtain he | ⟨k', re, hd, hn⟩ := hst
        · cases he
        · exact ⟨k', re, hd, hn⟩
      | cons i s =>
        have hres : ((k :: ke).drop (i :: s).length).length ≤ f := by
          rw [List.length_drop, List.length_cons]
          rw [List.length_cons] at hf ⊢
          omega
        obtain ⟨t, hs, hre⟩ := ih hres (hc.uploaded hr)
        refine ⟨_ ++ t, by simpa only [List.flatMap_append] using hc.trans hs, ?_⟩
        intro hi
        rw [Bool.and_eq_true] at hi
        have hfi : ((i :: s).map fun i => (i, (r'.slotAt i).keysym)).map Prod.snd =
            (k :: ke).take (i :: s).length := by
          rw [List.map_map]
          exact hca hi.1
        rw [List.map_append, hfi]
        obtain ha | ⟨k', re, hd, hn⟩ := hre hi.2
        · exact .inl (by rw [ha, List.take_append_drop])
        · refine .inr ⟨k', re, ?_, hn⟩
          rw [List.append_assoc, ← hd, List.take_append_drop]

/-! ### Keys -/

/-- What every step does: the marks it makes are orderly, and a held slot keeps its keysym. -/
structure Advances (r r' : Seat σ) : Prop where
  log : ∃ marks, r'.log = r.log ++ marks ∧ ∀ m ∈ marks, m.Orderly
  kept : ∀ i, (r.slotAt i).held = true → (r'.slotAt i).keysym = (r.slotAt i).keysym
  uploaded : r.Uploaded → r'.Uploaded

theorem Sends.advances {ke : List (Nat × Bool × Nat)} (h : r.Sends ke r') : r.Advances r' where
  log := by
    obtain ⟨m, hl, -, hm⟩ := h.log
    exact ⟨m, hl, hm⟩
  kept := h.kept
  uploaded := h.uploaded

theorem setSlot_keeps (hi : i < keySlots) (held : Bool) (j : Nat) :
    ((r.setSlot i { r.slotAt i with held }).slotAt j).keysym = (r.slotAt j).keysym := by
  rw [slotAt_setSlot hi]
  split_ifs with hij
  · rw [← hij]
  · rfl

theorem keySend_advances {pressed : Bool} (hi : i < keySlots) (hh : (r.slotAt i).held = !pressed) :
    r.Advances (r.keySend i pressed) where
  log := ⟨_, rfl, by simpa [SeatMark.Orderly] using hh⟩
  kept j _ := setSlot_keeps hi pressed j
  uploaded h hd j := (h hd j).trans (setSlot_keeps hi pressed j).symm

/-- What a key event can do: nothing, press a slot it has bound, or lift the slot its keysym is held on, of which the
app hears if it has the focus. -/
inductive KeyTurn (r : Seat σ) (keysym : Nat) : Bool → Seat σ → Prop
  | ignored {pressed : Bool} (h : pressed = false → keysym = noSymbol ∨ r.slotFind keysym true = none) :
      KeyTurn r keysym pressed r
  | pressed {i : Nat} {r' : Seat σ} (hzero : keysym ≠ noSymbol) (hfree : r.slotFind keysym true = none)
      (hbind : r.slotBind keysym (r.bindSeq + 1) = some (i, r')) : KeyTurn r keysym true (r'.keymapSync.keySend i true)
  | released {i : Nat} (hfind : r.slotFind keysym true = some i) : KeyTurn r keysym false (r.keySend i false)
  | lifted {i : Nat} (hfind : r.slotFind keysym true = some i) (hfocus : r.focused = none) :
      KeyTurn r keysym false (r.setSlot i { r.slotAt i with held := false })

theorem replayKey_turn (r : Seat σ) (ke : Nat) (p : Bool) : r.KeyTurn ke p (r.replayKey ke p) := by
  by_cases hz : ke = noSymbol
  · rw [replayKey.eq_def, if_pos hz]
    exact .ignored fun _ => .inl hz
  rw [replayKey.eq_def, if_neg hz]
  cases p with
  | false =>
    dsimp only
    split
    next hf => exact .ignored fun _ => .inr hf
    next i hf =>
      split_ifs with hfo
      · exact .lifted hf (Option.isNone_iff_eq_none.mp hfo)
      · exact .released hf
  | true =>
    dsimp only
    split_ifs with hfo hh
    · exact .ignored nofun
    · exact .ignored nofun
    · split
      next => exact .ignored nofun
      next i r' hb => exact .pressed hz (by simpa using hh) hb

theorem replayKey_advances (r : Seat σ) (ke : Nat) (p : Bool) : r.Advances (r.replayKey ke p) := by
  have ht := r.replayKey_turn ke p
  generalize r.replayKey ke p = r' at ht
  cases ht with
  | ignored => exact (Sends.refl r).advances
  | released hf =>
    obtain ⟨hi, -, hh⟩ := slotFind_eq_some hf
    exact keySend_advances hi hh
  | lifted hf =>
    obtain ⟨hi, -, -⟩ := slotFind_eq_some hf
    exact {
      log := ⟨[], by simp [setSlot]⟩
      kept := fun j _ => setSlot_keeps hi false j
      uploaded := fun h hd j => (h hd j).trans (setSlot_keeps hi false j).symm }
  | @pressed i r' _ _ hb =>
    obtain ⟨hsen, hi, -, hu⟩ := slotBind_spec hb
    have hs := hsen.trans (keymapSync_sends r')
    have hu' : (r'.keymapSync.slotAt i).held = false := by rwa [slotAt_keymapSync]
    have hse : r'.keymapSync.Advances (r'.keymapSync.keySend i true) := keySend_advances hi hu'
    obtain ⟨ma, hl, -, hma⟩ := hs.log
    obtain ⟨m', hl', hm'⟩ := hse.log
    refine ⟨⟨ma ++ m', by rw [hl', hl, List.append_assoc], ?_⟩, ?_, hse.uploaded ∘ hs.uploaded⟩
    · intro m hm
      exact (List.mem_append.mp hm).elim (hma m) (hm' m)
    · intro j hj
      exact (hse.kept j ((hs.held j).trans hj)).trans (hs.kept j hj)

/-! ### Code points -/

variable {n : Nat}

theorem utf8Lead_two (h : n < 32) : ¬UInt8.ofNat (n + 0xc0) < 0x80 ∧ utf8Lead (.ofNat (n + 0xc0)) = some (1, n) := by
  revert n
  decide

theorem utf8Lead_three (h : n < 16) : ¬UInt8.ofNat (n + 0xe0) < 0x80 ∧ utf8Lead (.ofNat (n + 0xe0)) = some (2, n) := by
  revert n
  decide

theorem utf8Lead_four (h : n < 8) : ¬UInt8.ofNat (n + 0xf0) < 0x80 ∧ utf8Lead (.ofNat (n + 0xf0)) = some (3, n) := by
  revert n
  decide

theorem continuation_bits (h : n < 64) :
    UInt8.ofNat (n + 0x80) &&& 0xc0 = 0x80 ∧ (UInt8.ofNat (n + 0x80) &&& 0x3f).toNat = n := by
  revert n
  decide

theorem utf8Tail_cons (h : n < 64) (cp : Nat) (re : List UInt8) :
    utf8Tail cp (.ofNat (n + 0x80) :: re) = utf8Tail (cp * 64 + n) re := by
  obtain ⟨hm, hb⟩ := continuation_bits h
  rw [utf8Tail, if_pos hm, hb, ← Nat.shiftLeft_add_eq_or_of_lt (i := 6) (by simpa using h), Nat.shiftLeft_eq]

/-- A sequence of several bytes is read if it is the shortest one of a scalar value. -/
theorem utf8Next_long {l : UInt8} {t : List UInt8} {e b cp : Nat}
    (hl : ¬l < 0x80 ∧ utf8Lead l = some (e, b)) (hle : t.length = e)
    (ht : utf8Tail b t = some cp) (hm : minForLen e ≤ cp) (hv : cp.isValidChar)
    (re : List UInt8) : utf8Next (l :: t ++ re) = some (cp, e + 1) := by
  have hsh : ¬(t ++ re).length < e := by rw [List.length_append]; omega
  have hs : ¬(cp < minForLen e ∨ cp > 0x10ffff ∨ (cp ≥ 0xd800 ∧ cp ≤ 0xdfff)) := by
    omega
  rw [List.cons_append, utf8Next, if_neg hl.1, hl.2]
  have hta : (t ++ re).take e = t := by rw [← hle, List.take_left]
  simp only [Option.bind_eq_bind, Option.bind_some]
  rw [if_neg hsh, hta, ht, Option.bind_some, if_neg hs]

theorem utf8Next_encodeChar (c : Char) (re : List UInt8) :
    utf8Next (String.utf8EncodeChar c ++ re) = some (c.val.toNat, (String.utf8EncodeChar c).length) := by
  have hva : c.val.toNat.isValidChar := c.valid
  have low (n : Nat) : n % 64 < 64 := Nat.mod_lt n (by decide)
  rw [String.utf8EncodeChar]
  generalize c.val.toNat = v at hva
  split_ifs with h₁ h₂ h₃
  · have hv : v % 2 ^ 8 = v := by omega
    have hl : UInt8.ofNat v < 0x80 := by
      rw [UInt8.lt_iff_toNat_lt, UInt8.toNat_ofNat', hv]
      exact Nat.lt_succ_of_le h₁
    rw [List.singleton_append, utf8Next, if_pos hl, UInt8.toNat_ofNat', hv]
    rfl
  · refine utf8Next_long (utf8Lead_two (by omega)) rfl ?_ (by rw [minForLen]; omega) hva re
    rw [utf8Tail_cons (low _), utf8Tail]
    exact congrArg some (by omega)
  · refine utf8Next_long (utf8Lead_three (by omega)) rfl ?_ (by rw [minForLen]; omega) hva re
    rw [utf8Tail_cons (low _), utf8Tail_cons (low _), utf8Tail]
    exact congrArg some (by omega)
  · rw [Nat.isValidChar] at hva
    refine utf8Next_long (utf8Lead_four (by omega)) rfl ?_ (by simp [minForLen]; omega) hva re
    rw [utf8Tail_cons (low _), utf8Tail_cons (low _), utf8Tail_cons (low _), utf8Tail]
    exact congrArg some (by omega)

end Seat

/-! ### Runs -/

open Seat

theorem init_uploaded (xkb : Nat → Nat) : (init xkb : Seat σ).Uploaded := by
  intro _ i
  simp only [init, slotAt, List.getD_eq_getElem?_getD, List.getElem?_map]
  cases (pinned xkb ++ List.replicate (keySlots - (pinned xkb).length) noSymbol)[i]? <;> rfl

theorem replayText_advances {x : Nat → Nat} (hr : r.Uploaded) (u8 : List UInt8) :
    r.Advances (r.replayText x u8) := by
  rw [replayText]
  split_ifs
  · exact (Sends.refl r).advances
  · obtain ⟨t, hs, -⟩ := typeText_sends (Nat.le_refl _) hr
    exact hs.advances

theorem seatStep_advances {x : Nat → Nat} (hr : r.Uploaded) (op : SeatOp σ) : r.Advances (seatStep x r op).1 := by
  cases op with
  | key ke p => exact replayKey_advances r ke p
  | text u8 => exact replayText_advances hr u8
  | focusKeyboard s => exact ⟨⟨[.entered s r.pressed], rfl, by simp [SeatMark.Orderly]⟩, fun _ _ => rfl, id⟩
  | clearKeyboard => exact ⟨⟨[], (List.append_nil _).symm, by simp⟩, fun _ _ => rfl, id⟩

def unicodeKeysym (cp : Nat) : Nat := if cp < 0x100 then cp else 0x01000000 + cp

end Vitrin.Shim
