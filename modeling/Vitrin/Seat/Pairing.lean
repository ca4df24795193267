import Mathlib.Algebra.Order.Group.Multiset
import Vitrin.Lib.Machine
import Vitrin.Lib.Marks
import Vitrin.Seat.Router

/-!
# Presses and releases are paired

An app that is told of a press and never of its release is left with a latched key or a
wedged grab, and one that is told of a release it knows no press of is confused. Here
every delivery of the router is followed, realm by realm.

`routerStep` is the router taking a call. A step shows, for each realm, the notes that
were made: what was delivered, which entry a consumed release took out, and that the
realm was forgotten. The notes since a realm was last forgotten (`sinceForgotten`) are
the life of its seat.

`RealmSeat.entries` are the things an app was told have begun and not ended. A note opens
or closes one of them.

`Takes`: whatever a call notes for a realm turns the entries of its seat before into
those after, and the gesture automaton from the gesture before into that after. From it,
for every run, the balance and the order of presses and releases (`Balanced`). A gesture
whose end is consumed is over for the router and not for the app, which may so hear of a
second beginning.
-/

namespace Vitrin

open Lib SeatEntry RealmSeat
open List (map_cons map_append map_nil count_cons)
open Multiset (cons_coe cons_add coe_add coe_singleton singleton_add)
open Mark (map)

/-! ### Notes -/

def SeatEntry.symbol : SeatEntry → SeatEntry
  | .key _ keysym => .key (.keysym keysym) keysym
  | e => e

def SeatEntry.release : SeatEntry → SeatDeliveryKind
  | .button code => .button code .released
  | .key _ keysym => .key keysym .released
  | .gesture kind => .gestureEnd kind .cancelled

def SeatEntry.pairing : SeatEntry → Option KeyPairing
  | .key pairing _ => some pairing
  | .button _ | .gesture _ => none

def SeatInputKind.pairing : SeatInputKind → Option KeyPairing
  | .key source keysym _ => some (source.pairing keysym)
  | _ => none

/-- Something that happened to a realm's seat. -/
inductive SeatNote where
  | delivered (d : SeatDelivery) (pairing : Option KeyPairing)
  | paid (e : SeatEntry)
  | forgotten
  deriving DecidableEq

/-- The marks a delivery makes: on the key with this pairing, if it is a key's. -/
def SeatDeliveryKind.marks (pairing : Option KeyPairing) : SeatDeliveryKind → List (Mark SeatEntry)
  | .button code .pressed => [.opened (.button code)]
  | .button code .released => [.closed (.button code)]
  | .key keysym .pressed => [.opened (.key (pairing.getD (.keysym keysym)) keysym)]
  | .key keysym .released => [.closed (.key (pairing.getD (.keysym keysym)) keysym)]
  | .gestureBegin kind _ => [.opened (.gesture kind)]
  | .gestureEnd kind _ => [.closed (.gesture kind)]
  | _ => []

/-- How a delivery continues the gesture in flight, if it can. -/
def SeatDeliveryKind.gesture (live : Option GestureKind) : SeatDeliveryKind → Option (Option GestureKind)
  | .gestureBegin kind _ => if live = none then some (some kind) else none
  | .gestureSwipeUpdate _ _ => if live = some .swipe then some live else none
  | .gesturePinchUpdate _ _ _ _ => if live = some .pinch then some live else none
  | .gestureEnd kind _ => if live = some kind then some none else none
  | _ => some live

namespace SeatNote

/-- The entries a note opens and closes. -/
def marks : SeatNote → List (Mark SeatEntry)
  | delivered d pairing => d.kind.marks pairing
  | paid e => [.closed e]
  | forgotten => []

def delivers (kind : SeatDeliveryKind) : SeatNote → Bool
  | delivered d _ => d.kind = kind
  | paid _ | forgotten => false

/-- The note is the payment of this entry, whatever its key is paired by. -/
def pays (e : SeatEntry) : SeatNote → Bool
  | paid e' => e'.symbol = e.symbol
  | delivered _ _ | forgotten => false

/-- How a note continues the gesture in flight: a delivered one as it may, and a consumed end ends it. -/
def gesture (live : Option GestureKind) : SeatNote → Option (Option GestureKind)
  | delivered d _ => d.kind.gesture live
  | paid (.gesture kind) => if live = some kind then some none else none
  | paid _ | forgotten => some live

end SeatNote

/-! ### The entries of a seat -/

namespace RealmSeat

/-- What the app was told has begun and not ended. -/
def entries (seat : RealmSeat) : Multiset SeatEntry :=
  ↑(seat.pressed.map fun e => SeatEntry.button e.1) +
    (↑(seat.pressedKeys.map fun e => SeatEntry.key e.pairing e.keysym) +
      ↑(seat.gesture.toList.map fun g => SeatEntry.gesture g.kind))

/-- The keys the human holds, in the order they were pressed. -/
def physicalKeys (seat : RealmSeat) : List SeatEntry :=
  (seat.pressedKeys.filter fun e => e.origin = .physical).map fun e => .key e.pairing e.keysym

/-- The buttons the human holds, in the order they were pressed. -/
def physicalButtons (seat : RealmSeat) : List SeatEntry :=
  (seat.pressed.filter fun e => e.2 = .physical).map fun e => .button e.1

def physicalGesture (seat : RealmSeat) : List SeatEntry :=
  (seat.gesture.toList.filter fun g => g.origin = .physical).map fun g => .gesture g.kind

def withoutPhysical (seat : RealmSeat) : RealmSeat :=
  { seat with
    pressed := seat.pressed.filter fun e => e.2 ≠ .physical
    pressedKeys := seat.pressedKeys.filter fun e => e.origin ≠ .physical
    gesture := seat.gesture.filter fun g => g.origin ≠ .physical }

end RealmSeat

def SeatEntry.drained (e : SeatEntry) : SeatDelivery := ⟨.physical, e.release⟩

def SeatEntry.note (e : SeatEntry) : SeatNote := .delivered e.drained e.pairing

@[simp] theorem SeatEntry.note_marks {e : SeatEntry} : e.note.marks = [.closed e] := by
  cases e <;> rfl

variable {l : List SeatEntry}

theorem settles_notes {re : Multiset SeatEntry} :
    Settles ((l : Multiset SeatEntry) + re) ((l.map note).flatMap SeatNote.marks) re := by
  induction l with
  | nil => simpa using Settles.nil re
  | cons e l ih =>
    rw [← cons_coe, cons_add]
    simpa using Settles.closed ih

/-! ### One call on one seat -/

/-- The notes turn the entries and the gesture of the first seat into those of the second. -/
structure RealmSeat.Takes (seat : RealmSeat) (notes : List SeatNote) (seat' : RealmSeat) : Prop where
  settles : Settles seat.entries (notes.flatMap SeatNote.marks) seat'.entries
  gesture : notes.foldlM SeatNote.gesture (seat.gesture.map (·.kind)) = some (seat'.gesture.map (·.kind))

namespace RealmSeat.Takes

variable {se s' s'' : RealmSeat} {n n' : List SeatNote}

theorem of_same (hp : s'.pressed = se.pressed) (hk : s'.pressedKeys = se.pressedKeys)
    (hg : s'.gesture = se.gesture) : se.Takes [] s' where
  settles := by
    rw [show s'.entries = se.entries by simp only [entries, hp, hk, hg]]
    exact .nil _
  gesture := by rw [hg]; rfl

theorem refl (se : RealmSeat) : se.Takes [] se := of_same rfl rfl rfl

theorem trans (h : se.Takes n s') (h' : s'.Takes n' s'') : se.Takes (n ++ n') s'' where
  settles := by
    rw [List.flatMap_append]
    exact h.settles.trans h'.settles
  gesture := by
    rw [List.foldlM_append, h.gesture]
    exact h'.gesture

end RealmSeat.Takes

theorem perm_cons_eraseP {α : Type} {p : α → Bool} {l : List α} {a : α} (h : l.find? p = some a) :
    l.Perm (a :: l.eraseP p) := by
  induction l with
  | nil => cases h
  | cons b l ih =>
    by_cases hb : p b = true
    · rw [List.find?_cons_of_pos hb] at h
      cases h
      rw [List.eraseP_cons_of_pos hb]
    · rw [List.find?_cons_of_neg hb] at h
      rw [List.eraseP_cons_of_neg hb]
      exact ((ih h).cons b).trans (.swap a b _)

variable {se : RealmSeat}

namespace RealmSeat

theorem entries_releasePressed {b : Nat} (h : (se.releasePressed b).2 = true) :
    se.entries = .button b ::ₘ (se.releasePressed b).1.entries := by
  obtain ⟨e, he⟩ : ∃ e, (se.pressed.find? fun e => e.1 = b) = some e := by
    rw [← Option.isSome_iff_exists, List.find?_isSome]
    simpa [releasePressed] using h
  have hc : e.1 = b := by simpa using List.find?_some he
  have hp := (perm_cons_eraseP he).map fun e => SeatEntry.button e.1
  rw [map_cons, hc] at hp
  rw [entries, Multiset.coe_eq_coe.mpr hp, ← cons_coe, cons_add]
  rfl

variable {p : KeyPairing}

theorem entries_releasePressedKey {k : Nat} (h : (se.releasePressedKey p).2 = some k) :
    se.entries = .key p k ::ₘ (se.releasePressedKey p).1.entries := by
  obtain ⟨e, he, rfl⟩ := Option.map_eq_some_iff.mp h
  have hpa : e.pairing = p := by simpa using List.find?_some he
  have hp := (perm_cons_eraseP he).map fun e => key e.pairing e.keysym
  rw [map_cons, hpa] at hp
  rw [entries, Multiset.coe_eq_coe.mpr hp, ← cons_coe, cons_add, Multiset.add_cons]
  rfl

section

variable (se : RealmSeat)

theorem entries_press (b : Nat) (o : Origin) :
    { se with pressed := se.pressed ++ [(b, o)] }.entries = .button b ::ₘ se.entries := by
  simp only [entries, map_append, map_cons, map_nil, ← coe_add, coe_singleton]
  rw [add_right_comm, add_comm, singleton_add]

theorem entries_pressKey (k : HeldKey) :
    { se with pressedKeys := se.pressedKeys ++ [k] }.entries = .key k.pairing k.keysym ::ₘ se.entries := by
  simp only [entries, map_append, map_cons, map_nil, ← coe_add, coe_singleton]
  rw [add_right_comm, ← add_assoc, add_comm, singleton_add]

theorem entries_gesture (li : InFlightGesture) :
    { se with gesture := some li }.entries = .gesture li.kind ::ₘ { se with gesture := none }.entries := by
  simp only [entries, Option.toList_some, Option.toList_none, map_cons, map_nil, coe_singleton,
    Multiset.coe_nil, add_zero]
  rw [← add_assoc, add_comm, singleton_add]

end

theorem releasePressed_of_not {b : Nat} (h : (se.releasePressed b).2 = false) : (se.releasePressed b).1 = se := by
  have hn : ∀ e ∈ se.pressed, ¬ (decide (e.1 = b)) = true := by simpa [releasePressed] using h
  simp only [releasePressed, List.eraseP_of_forall_not hn]

theorem releasePressedKey_of_not (h : (se.releasePressedKey p).2 = none) : (se.releasePressedKey p).1 = se := by
  have hn : ∀ e ∈ se.pressedKeys, ¬ (decide (e.pairing = p)) = true := by
    simpa [releasePressedKey] using h
  simp only [releasePressedKey, List.eraseP_of_forall_not hn]

end RealmSeat

/-! ### Every call on a seat is accounted for -/

namespace RealmSeat

variable (se : RealmSeat)

def routedNotes (kind : SeatInputKind) (x : Routed) : List SeatNote :=
  (x.delivery.toList.map fun d => .delivered d kind.pairing) ++ x.paid.toList.map .paid

theorem takes_moveTo {o : Origin} {x y : Coord} : se.Takes [] (se.moveTo o x y) := by
  cases o <;> exact .of_same rfl rfl rfl

/-- A consumed event: its entry is paid, if it was a release and had one. -/
theorem takes_reconcile (k : SeatInputKind) :
    se.Takes (routedNotes k ⟨none, (se.reconcile k).2⟩) (se.reconcile k).1 := by
  cases k with
  | button b s =>
    cases s with
    | pressed => exact .refl se
    | released =>
      cases hp : (se.releasePressed b).2 with
      | false =>
        simp only [reconcile, hp, releasePressed_of_not hp]
        exact .refl se
      | true =>
        simp only [reconcile, hp]
        exact ⟨entries_releasePressed hp ▸ .close_one _ _, rfl⟩
  | key so ke s =>
    cases s with
    | pressed => exact .refl se
    | released =>
      cases hp : (se.releasePressedKey (so.pairing ke)).2 with
      | none =>
        simp only [reconcile, hp, releasePressedKey_of_not hp]
        exact .refl se
      | some p =>
        simp only [reconcile, hp]
        exact ⟨entries_releasePressedKey hp ▸ .close_one _ _, rfl⟩
  | gestureEnd k s =>
    obtain ⟨po, human, a, p, keys, g⟩ := se
    cases g with
    | none => exact .refl _
    | some li =>
      have he := entries_gesture ⟨po, human, a, p, keys, none⟩ li
      exact ⟨he ▸ .close_one _ _, by simp [reconcile, routedNotes, SeatNote.gesture]⟩
  | _ => exact .refl se

theorem kind_of_any {ges : Option InFlightGesture} {k : GestureKind}
    (h : (ges.any fun g => g.kind = k) = true) : ges.map (·.kind) = some k := by
  cases ges with
  | none => cases h
  | some g => simpa using h

theorem takes_deliver (o : Origin) (t : SeatTarget) (fr : Bool) (ki : SeatInputKind) : let d := se.deliver o t fr ki
    se.Takes (routedNotes ki ⟨d.2.map fun k => ⟨o, k⟩, none⟩) d.1 := by
  cases ki with
  | motion x y =>
    simp only [deliver]
    split
    · exact .refl se
    · split
      · exact .refl se
      · split
        · exact .refl se
        · exact ⟨.nil _, rfl⟩
  | button b s =>
    cases s with
    | pressed =>
      simp only [deliver]
      split
      · exact ⟨entries_press se b o ▸ .open_one _ _, rfl⟩
      · exact .refl se
    | released =>
      cases hp : (se.releasePressed b).2 with
      | false =>
        simp only [deliver, hp, releasePressed_of_not hp]
        exact .refl se
      | true =>
        simp only [deliver, hp]
        exact ⟨entries_releasePressed hp ▸ .close_one _ _, rfl⟩
  | scroll | relativeMotion =>
    simp only [deliver]
    split
    · exact ⟨.nil _, rfl⟩
    · exact .refl se
  | key so ke s =>
    cases s with
    | pressed => exact ⟨entries_pressKey se ⟨so.pairing ke, ke, o⟩ ▸ .open_one _ _, rfl⟩
    | released =>
      cases hp : (se.releasePressedKey (so.pairing ke)).2 with
      | none =>
        simp only [deliver, hp, releasePressedKey_of_not hp]
        exact .refl se
      | some p =>
        simp only [deliver, hp]
        exact ⟨entries_releasePressedKey hp ▸ .close_one _ _, rfl⟩
  | text te => exact ⟨.nil _, rfl⟩
  | gestureBegin ki fi =>
    simp only [deliver]
    split
    · rename_i hf
      have hn : se.gesture = none := by simpa using (Bool.and_eq_true_iff.mp hf).2
      have he := entries_gesture se ⟨ki, o⟩
      rw [show { se with gesture := none } = se by rw [← hn]] at he
      exact ⟨he ▸ .open_one _ _, by simp [routedNotes, SeatNote.gesture, SeatDeliveryKind.gesture, hn]⟩
    · exact .refl se
  | gestureSwipeUpdate | gesturePinchUpdate =>
    simp only [deliver]
    split
    · rename_i hl
      exact ⟨.nil _, by simp [routedNotes, SeatNote.gesture, SeatDeliveryKind.gesture, kind_of_any hl]⟩
    · exact .refl se
  | gestureEnd ki s =>
    obtain ⟨po, human, a, p, keys, g⟩ := se
    cases g with
    | none => exact .refl _
    | some li =>
      have he := entries_gesture ⟨po, human, a, p, keys, none⟩ li
      exact ⟨he ▸ .close_one _ _, by simp [deliver, routedNotes, SeatNote.gesture, SeatDeliveryKind.gesture]⟩

/-! ### Drains -/

theorem foldlM_notes (h : ∀ e ∈ l, ∀ k, e ≠ .gesture k) (li : Option GestureKind) :
    (l.map note).foldlM SeatNote.gesture li = some li := by
  induction l with
  | nil => rfl
  | cons e l ih =>
    rw [List.forall_mem_cons] at h
    cases e with
    | gesture k => exact absurd rfl (h.1 k)
    | button | key => exact ih h.2

theorem coe_map_filter {α : Type} (l : List α) (p : α → Bool) (f : α → SeatEntry) : (l.map f : Multiset SeatEntry) =
      ((l.filter p).map f : List SeatEntry) + ((l.filter fun a => !p a).map f : List SeatEntry) := by
  rw [coe_add, Multiset.coe_eq_coe, ← map_append]
  exact ((List.filter_append_perm p l).map f).symm

theorem takes_notes {entries : List SeatEntry} {se' : RealmSeat}
    (hen : se.entries = (entries : Multiset SeatEntry) + se'.entries) (hno : ∀ e ∈ entries, ∀ k, e ≠ .gesture k)
    (hg : se'.gesture = se.gesture) : se.Takes (entries.map note) se' where
  settles := hen ▸ settles_notes
  gesture := hg ▸ foldlM_notes hno _

theorem takes_releasePhysicalKeys : se.Takes (se.physicalKeys.map note) se.releasePhysicalKeys.1 := by
  refine se.takes_notes ?_ (by rintro _ he _ rfl; simp [physicalKeys] at he) rfl
  simp only [entries, releasePhysicalKeys, physicalKeys]
  rw [coe_map_filter se.pressedKeys fun e => decide (e.origin = .physical)]
  simp only [decide_not]
  rw [add_assoc, add_left_comm]

theorem takes_releasePhysicalButtons : se.Takes (se.physicalButtons.map note) se.releasePhysicalButtons.1 := by
  refine se.takes_notes ?_ (by rintro _ he _ rfl; simp [physicalButtons] at he) rfl
  simp only [entries, releasePhysicalButtons, physicalButtons]
  rw [coe_map_filter se.pressed fun e => decide (e.2 = .physical)]
  simp only [decide_not]
  rw [add_assoc]

theorem takes_endPhysicalGesture : se.Takes (se.physicalGesture.map note) se.endPhysicalGesture.1 := by
  obtain ⟨p, human, a, pr, k, g⟩ := se
  cases g with
  | none => exact .refl _
  | some li =>
    obtain ⟨ki, o⟩ := li
    cases o with
    | emulated => exact .refl _
    | physical =>
      have he := entries_gesture ⟨p, human, a, pr, k, none⟩ ⟨ki, .physical⟩
      exact ⟨he ▸ .close_one _ _, by simp [physicalGesture, endPhysicalGesture, note, drained,
        release, SeatNote.gesture, SeatDeliveryKind.gesture]⟩

theorem releasePhysicalKeys_returns : se.releasePhysicalKeys.2 = se.physicalKeys.map drained := by
  simp only [physicalKeys, List.map_map]
  refine List.map_congr_left fun e he => ?_
  have hor : e.origin = .physical := by simpa using (List.mem_filter.mp he).2
  rw [hor]
  rfl

theorem releasePhysicalButtons_returns : se.releasePhysicalButtons.2 = se.physicalButtons.map drained := by
  simp only [physicalButtons, List.map_map]
  refine List.map_congr_left fun e he => ?_
  have hor : e.2 = .physical := by simpa using (List.mem_filter.mp he).2
  rw [hor]
  rfl

theorem endPhysicalGesture_returns : se.endPhysicalGesture.2 = se.physicalGesture.map drained := by
  obtain ⟨p, human, a, pr, k, g⟩ := se
  rcases g with _ | ⟨ki, _ | _⟩ <;> rfl

/-- Everything the human holds: keys, then buttons, then the gesture. -/
def physical (seat : RealmSeat) : List SeatEntry := seat.physicalKeys ++ seat.physicalButtons ++ seat.physicalGesture

theorem drains_eq : se.releasePhysicalKeys.1.releasePhysicalButtons.1.endPhysicalGesture.1 = se.withoutPhysical := by
  obtain ⟨p, human, a, pr, k, g⟩ := se
  rcases g with _ | ⟨ki, _ | _⟩ <;> rfl

theorem takes_withoutPhysical : se.Takes (se.physical.map note) se.withoutPhysical := by
  have h := (se.takes_releasePhysicalKeys.trans (takes_releasePhysicalButtons _)).trans (takes_endPhysicalGesture _)
  have hb : se.releasePhysicalKeys.1.physicalButtons = se.physicalButtons := rfl
  have hg : se.releasePhysicalKeys.1.releasePhysicalButtons.1.physicalGesture = se.physicalGesture := rfl
  rw [drains_eq, hb, hg, ← map_append, ← map_append] at h
  exact h

end RealmSeat

/-! ### The machine -/

inductive RouterOp where
  | routePhysical (kind : SeatInputKind) (target : SeatTarget) (locked : Bool) (now : Instant)
  | routeEmulated (realm : RealmId) (kind : SeatInputKind) (target : SeatTarget) (locked : Bool) (now : Instant)
  | bindTo (realm : RealmId)
  | releasePhysicalKeys (realm : RealmId)
  | releasePhysicalButtons (realm : RealmId)
  | endPhysicalGesture (realm : RealmId)
  | resetFor (realm : RealmId) (hadConstraint : Bool)

variable {H : Type}

/-- The realm whose seat a call is about. -/
def RouterOp.target (bound : Option RealmId) : RouterOp → Option RealmId
  | .routePhysical _ _ _ _ => bound
  | .bindTo realm => if bound = some realm then none else bound
  | .routeEmulated realm _ _ _ _ | .releasePhysicalKeys realm | .releasePhysicalButtons realm
  | .endPhysicalGesture realm | .resetFor realm _ => some realm

def RouterOp.notes (hook : PreemptionHook H) (r : InputRouter H) (realm : RealmId) : RouterOp → List SeatNote
  | .routePhysical kind target locked now =>
    RealmSeat.routedNotes kind (r.routePhysical hook kind target locked now).2
  | .routeEmulated realm kind target locked now =>
    RealmSeat.routedNotes kind (r.routeEmulated hook realm kind target locked now).2
  | .bindTo _ => (r.seat realm).physical.map SeatEntry.note
  | .releasePhysicalKeys _ => (r.seat realm).physicalKeys.map SeatEntry.note
  | .releasePhysicalButtons _ => (r.seat realm).physicalButtons.map SeatEntry.note
  | .endPhysicalGesture _ => (r.seat realm).physicalGesture.map SeatEntry.note
  | .resetFor _ _ => [.forgotten]

def RouterOp.run (hook : PreemptionHook H) (r : InputRouter H) : RouterOp → InputRouter H
  | .routePhysical kind target locked now => (r.routePhysical hook kind target locked now).1
  | .routeEmulated realm kind target locked now => (r.routeEmulated hook realm kind target locked now).1
  | .bindTo realm => (r.bindTo realm).1
  | .releasePhysicalKeys realm => (r.releasePhysicalKeys realm).1
  | .releasePhysicalButtons realm => (r.releasePhysicalButtons realm).1
  | .endPhysicalGesture realm => (r.endPhysicalGesture realm).1
  | .resetFor realm hadConstraint => (r.resetFor realm hadConstraint).1

/-- The router takes a call; what is noted, and for which realm. -/
def routerStep (hook : PreemptionHook H) : Machine (InputRouter H) RouterOp (Option (RealmId × List SeatNote)) :=
  fun r op => (op.run hook r, (op.target r.bound).map fun realm => (realm, op.notes hook r realm))

variable {notes : List SeatNote}

open RouterOp (run target)

open SeatDeliveryKind (marks)

section

variable {re : RealmId}

namespace InputRouter

variable (hook : PreemptionHook H) (r : InputRouter H)

theorem seat_putSeat (re r' : RealmId) (se : RealmSeat) :
    (r.putSeat re se).seat r' = if r' = re then se else r.seat r' := by
  simp only [putSeat, InputRouter.seat, OrdMap.get?_insert]
  split <;> rfl

@[simp] theorem seat_putSeat_self : (r.putSeat re se).seat re = se := by
  rw [seat_putSeat, if_pos rfl]

theorem seat_eq_of_get? (h : r.seats.get? re = some se) : r.seat re = se := by
  rw [InputRouter.seat, h]
  rfl

theorem record_takes (re : RealmId) (a : Option RealmId) (fr : Bool) (i : SeatInput) :
    (r.seat re).Takes [] ((r.record a fr i).seat re) := by
  unfold record
  split
  · rename_i a x y _
    rw [seat_putSeat]
    split
    · rename_i he
      subst he
      exact takes_moveTo _
    · exact .refl _
  · exact .refl _

theorem routeInto_takes (re : RealmId) (i : SeatInput) (t : SeatTarget) (lo : Bool) (now : Instant) :
    let x := r.routeInto hook (some re) i t lo now
    (r.seat re).Takes (routedNotes i.kind x.2) (x.1.seat re) := by
  simp only [routeInto]
  generalize (decide (i.origin = .physical) && _ && (some re).isSome && lo) = frozen
  have hr := r.record_takes re (some re) frozen i
  -- The tap changes neither seat nor table: the event meets the seat as it was recorded.
  have ht : ((r.record (some re) frozen i).tap hook (some re) i now).1.seats =
      (r.record (some re) frozen i).seats := rfl
  generalize (r.record (some re) frozen i).tap hook (some re) i now = tapped at ht ⊢
  obtain ⟨r', g⟩ := tapped
  have hs : (r.seat re).Takes [] (r'.seat re) := by
    rw [show r'.seat re = (r.record (some re) frozen i).seat re by
      rw [InputRouter.seat, InputRouter.seat, ht]]
    exact hr
  cases g with
  | consume =>
    dsimp only
    split
    · exact hs
    · rename_i se hg
      rw [seat_putSeat_self]
      rw [seat_eq_of_get? _ hg] at hs
      exact hs.trans (se.takes_reconcile i.kind)
  | deliver =>
    rw [seat_putSeat_self]
    exact hs.trans ((r'.seat re).takes_deliver i.origin t frozen i.kind)

/-- An event leaves the seats alone that it is not addressed to. -/
theorem routeInto_frame {a : Option RealmId} (h : a ≠ some re) (i : SeatInput) (t : SeatTarget) (lo : Bool)
    (now : Instant) : (r.routeInto hook a i t lo now).1.seats.get? re = r.seats.get? re := by
  simp only [routeInto]
  generalize (decide (i.origin = .physical) && _ && a.isSome && lo) = frozen
  have hr : (r.record a frozen i).seats.get? re = r.seats.get? re := by
    unfold record
    split
    · exact OrdMap.get?_insert_of_ne fun e => h (congrArg some e.symm)
    · rfl
  have ht : ((r.record a frozen i).tap hook a i now).1.seats = (r.record a frozen i).seats := rfl
  generalize (r.record a frozen i).tap hook a i now = tapped at ht ⊢
  obtain ⟨r', g⟩ := tapped
  rw [← ht] at hr
  cases a with
  | none => cases g <;> exact hr
  | some a =>
    have hn : re ≠ a := fun e => h (congrArg some e.symm)
    cases g with
    | consume =>
      dsimp only
      split
      · exact hr
      · exact (OrdMap.get?_insert_of_ne hn).trans hr
    | deliver => exact (OrdMap.get?_insert_of_ne hn).trans hr

variable {f : RealmSeat → RealmSeat × List SeatDelivery}

/-- A drain that finds nothing to do on a new seat is applied to the realm's seat, whether it was there or not. -/
theorem drain_eq (hn : f .new = (.new, [])) (re : RealmId) : (r.drain re f).2 = (f (r.seat re)).2 ∧
    ∀ r', (r.drain re f).1.seat r' = if r' = re then (f (r.seat re)).1 else r.seat r' := by
  unfold drain
  split
  · rename_i hg
    have hs : r.seat re = .new := by rw [InputRouter.seat, hg]; rfl
    rw [hs, hn]
    refine ⟨rfl, fun r' => ?_⟩
    split
    · rename_i he
      rw [he, hs]
    · rfl
  · rename_i se hg
    rw [seat_eq_of_get? _ hg]
    exact ⟨rfl, fun r' => seat_putSeat r re r' _⟩

theorem drain_takes (hn : f .new = (.new, [])) (h : (r.seat re).Takes notes (f (r.seat re)).1) :
    (r.seat re).Takes notes ((r.drain re f).1.seat re) := by
  rwa [(r.drain_eq hn re).2 re, if_pos rfl]

/-- Binding the human's input elsewhere: the realm that loses it is owed the releases of everything the human holds
there, and its seat keeps the rest; every other seat is left alone. -/
theorem bindTo_spec (re : RealmId) : (r.bindTo re).2 = (if r.bound = some re then none
        else r.bound.map fun lo => (lo, (r.seat lo).physical.map drained)) ∧
    ∀ r', (r.bindTo re).1.seat r' =
      if r.bound ≠ some re ∧ r.bound = some r' then (r.seat r').withoutPhysical else r.seat r' := by
  unfold bindTo
  split_ifs with hbo
  · exact ⟨rfl, fun r' => by simp [hbo]⟩
  · cases hl : r.bound with
    | none => exact ⟨rfl, fun r' => by simp [InputRouter.seat]⟩
    | some lo =>
      let b : InputRouter H := { r with bound := some re }
      obtain ⟨hk, hse⟩ := b.drain_eq (f := RealmSeat.releasePhysicalKeys) rfl lo
      obtain ⟨hbu, hse'⟩ := (b.releasePhysicalKeys lo).1.drain_eq (f := RealmSeat.releasePhysicalButtons) rfl lo
      obtain ⟨hg, hs''⟩ := ((b.releasePhysicalKeys lo).1.releasePhysicalButtons lo).1.drain_eq
        (f := RealmSeat.endPhysicalGesture) rfl lo
      have hs : (b.releasePhysicalKeys lo).1.seat lo = (r.seat lo).releasePhysicalKeys.1 :=
        (hse lo).trans (if_pos rfl)
      have hs' : ((b.releasePhysicalKeys lo).1.releasePhysicalButtons lo).1.seat lo =
          (r.seat lo).releasePhysicalKeys.1.releasePhysicalButtons.1 := by
        rw [← hs]
        exact (hse' lo).trans (if_pos rfl)
      constructor
      · rw [hs, RealmSeat.releasePhysicalButtons_returns] at hbu
        rw [hs', RealmSeat.endPhysicalGesture_returns] at hg
        rw [RealmSeat.releasePhysicalKeys_returns] at hk
        simp only [RealmSeat.physical, map_append]
        exact congrArg (fun o => some (lo, o)) (congrArg₂ _ (congrArg₂ _ hk hbu) hg)
      · intro r'
        have h : _ = _ := hs'' r'
        rw [hs', RealmSeat.drains_eq] at h
        refine h.trans ?_
        by_cases he : r' = lo
        · subst he
          rw [if_pos rfl, if_pos ⟨hl ▸ hbo, rfl⟩]
        · rw [if_neg he, if_neg fun hb => he (Option.some.inj hb.2).symm]
          exact (hse' r').trans ((if_neg he).trans ((hse r').trans (if_neg he)))

end InputRouter

/-! ### Runs -/

def sinceForgotten (realm : RealmId) (outs : List (Option (RealmId × List SeatNote))) : List SeatNote :=
  outs.foldl (fun life out => match out with
    | some (about, notes) => if about = realm then if .forgotten ∈ notes then [] else life ++ notes else life
    | none => life) []

theorem forgotten_not_mem_routedNotes {k : SeatInputKind} {x : Routed} : .forgotten ∉ routedNotes k x := by
  simp [routedNotes]

theorem forgotten_not_mem_notes : .forgotten ∉ l.map note := by
  simp [note]

variable (hook : PreemptionHook H)

/-- A call changes no seat but that of the realm it is about. -/
theorem RouterOp.run_frame (r : InputRouter H) {op : RouterOp} (h : op.target r.bound ≠ some re) :
    (op.run hook r).seat re = r.seat re := by
  cases op with
  | routePhysical k t lo now => exact congrArg (Option.getD · .new) (r.routeInto_frame hook h ⟨.physical, k⟩ t lo now)
  | routeEmulated a k t lo now =>
    exact congrArg (Option.getD · .new) (r.routeInto_frame hook h (.emulated k) t lo now)
  | bindTo b =>
    rw [run, (r.bindTo_spec b).2, if_neg]
    rintro ⟨hn, he⟩
    exact h ((if_neg hn).trans he)
  | releasePhysicalKeys a | releasePhysicalButtons a | endPhysicalGesture a =>
    exact ((r.drain_eq rfl a).2 re).trans (if_neg fun e => h (congrArg some e.symm))
  | resetFor a ha =>
    have hn : re ≠ a := fun e => h (congrArg some e.symm)
    simp [run, InputRouter.resetFor, InputRouter.seat, OrdMap.get?_erase_of_ne hn]

/-- A call that is about a realm is accounted for by its seat, or forgets it. -/
theorem RouterOp.run_takes (r : InputRouter H) {op : RouterOp} (h : op.target r.bound = some re) :
    .forgotten ∈ op.notes hook r re ∧ (op.run hook r).seat re = .new ∨
    .forgotten ∉ op.notes hook r re ∧ (r.seat re).Takes (op.notes hook r re) ((op.run hook r).seat re) := by
  cases op with
  | routePhysical k t lo now =>
    refine .inr ⟨forgotten_not_mem_routedNotes, ?_⟩
    simp only [target] at h
    simp only [run, RouterOp.notes, InputRouter.routePhysical, h]
    exact r.routeInto_takes hook re ⟨.physical, k⟩ t lo now
  | routeEmulated a k t lo now =>
    cases h
    exact .inr ⟨forgotten_not_mem_routedNotes, r.routeInto_takes hook re (.emulated k) t lo now⟩
  | bindTo b =>
    refine .inr ⟨forgotten_not_mem_notes, ?_⟩
    simp only [target] at h
    split_ifs at h with hb
    rw [run, (r.bindTo_spec b).2, if_pos ⟨hb, h⟩]
    exact takes_withoutPhysical _
  | releasePhysicalKeys a =>
    cases h
    exact .inr ⟨forgotten_not_mem_notes, r.drain_takes rfl (takes_releasePhysicalKeys _)⟩
  | releasePhysicalButtons a =>
    cases h
    exact .inr ⟨forgotten_not_mem_notes, r.drain_takes rfl (takes_releasePhysicalButtons _)⟩
  | endPhysicalGesture a =>
    cases h
    exact .inr ⟨forgotten_not_mem_notes, r.drain_takes rfl (takes_endPhysicalGesture _)⟩
  | resetFor a ha =>
    cases h
    refine .inl ⟨List.mem_singleton_self _, ?_⟩
    simp only [run, InputRouter.resetFor, InputRouter.seat, OrdMap.get?_erase_self]
    rfl

theorem seat_accounted (h : H) (ops : List RouterOp) (re : RealmId) :
    new.Takes (sinceForgotten re ((routerStep hook).outs (.new h) ops))
      (((routerStep hook).exec (.new h) ops).seat re) := by
  refine Machine.exec_past (M := routerStep hook)
    (P := fun p r => new.Takes (sinceForgotten re ((routerStep hook).outs (.new h) p)) (r.seat re))
    (.refl _) (fun p op ih => ?_) ops
  rw [Machine.outs_append, sinceForgotten, List.foldl_append, ← sinceForgotten]
  generalize (routerStep hook).exec (.new h) p = r at ih ⊢
  simp only [Machine.outs_cons, Machine.outs_nil, List.foldl_cons, List.foldl_nil, routerStep]
  cases ht : op.target r.bound with
  | none =>
    rw [op.run_frame hook r (by simp [ht])]
    exact ih
  | some a =>
    by_cases hr : a = re
    · subst hr
      rcases op.run_takes hook r ht with ⟨hf, hn⟩ | ⟨hk, hta⟩
      · simp only [Option.map_some, hf, hn]
        exact .refl _
      · simp only [Option.map_some, hk]
        exact ih.trans hta
    · rw [op.run_frame hook r (by simp [ht, hr])]
      simpa only [Option.map_some, hr, if_false] using ih

/-! ### The balance -/

/-- The notes of a realm's life and its seat are in balance. -/
structure Balanced (notes : List SeatNote) (seat : RealmSeat) : Prop where
  /-- A delivered press of a button is followed by a delivered release, dropped by a consumed one, or held. -/
  buttons : ∀ code, notes.countP (SeatNote.delivers (.button code .pressed)) =
    notes.countP (SeatNote.delivers (.button code .released)) + notes.countP (SeatNote.pays (.button code)) +
      seat.pressed.countP fun e => e.1 = code
  keys : ∀ keysym, notes.countP (SeatNote.delivers (.key keysym .pressed)) =
    notes.countP (SeatNote.delivers (.key keysym .released)) +
    notes.countP (SeatNote.pays (.key (.keysym keysym) keysym)) +
      seat.pressedKeys.countP fun e => e.keysym = keysym
  /-- What ends had begun, and had not ended: a key's release has the pairing and the keysym of a press. -/
  outstanding : ∀ past note rest e, notes = past ++ note :: rest → .closed e ∈ note.marks →
    (past.flatMap SeatNote.marks).count (.closed e) < (past.flatMap SeatNote.marks).count (.opened e)
  /-- One gesture at a time: it begins, goes on as what it began as, and ends, or its end is consumed. -/
  gestures : notes.foldlM SeatNote.gesture none = some (seat.gesture.map (·.kind))

section

variable (n : SeatNote)

theorem marks_of_closed {e : SeatEntry} (h : .closed e ∈ n.marks) : n.marks = [.closed e] := by
  rcases n with ⟨⟨o, _ | ⟨_, _ | _⟩ | _ | ⟨_, _ | _⟩ | _ | _ | _ | _ | _ | _⟩, pa⟩ | _ | _ <;>
  simp_all [SeatNote.marks, marks]

end

/-- The entry is that of a button or a key, of which this is the press and the release. -/
def SeatEntry.Sent (e : SeatEntry) (kind : PressState → SeatDeliveryKind) : Prop :=
  (∃ c, e = .button c ∧ kind = .button c) ∨ ∃ k, e = .key (.keysym k) k ∧ kind = .key k

theorem count_note_marks {e : SeatEntry} {kind : PressState → SeatDeliveryKind} (he : e.Sent kind) (n : SeatNote) :
    (n.marks.map (map symbol)).count (.opened e) = (if n.delivers (kind .pressed) then 1 else 0) ∧
    (n.marks.map (map symbol)).count (.closed e) =
      (if n.delivers (kind .released) then 1 else 0) + if n.pays e then 1 else 0 := by
  rcases he with ⟨c, rfl, rfl⟩ | ⟨k, rfl, rfl⟩ <;>
  rcases n with ⟨⟨o, _ | ⟨_, _ | _⟩ | _ | ⟨_, _ | _⟩ | _ | _ | _ | _ | _ | _⟩, pa⟩ | (_ | _ | _) | _ <;>
  simp [SeatNote.marks, marks, map, symbol, SeatNote.delivers, SeatNote.pays, count_cons]

theorem count_marks {e : SeatEntry} {kind : PressState → SeatDeliveryKind} (he : e.Sent kind) (notes : List SeatNote) :
    ((notes.flatMap SeatNote.marks).map (map symbol)).count (.opened e) =
      notes.countP (SeatNote.delivers (kind .pressed)) ∧
    ((notes.flatMap SeatNote.marks).map (map symbol)).count (.closed e) =
      notes.countP (SeatNote.delivers (kind .released)) + notes.countP (SeatNote.pays e) := by
  induction notes with
  | nil => exact ⟨rfl, rfl⟩
  | cons n notes ih =>
    obtain ⟨ho, hc⟩ := count_note_marks he n
    rw [List.flatMap_cons, map_append, List.count_append, List.count_append, ih.1, ih.2, ho, hc]
    simp only [List.countP_cons]
    omega

theorem RealmSeat.count_button {c : Nat} :
    (se.entries.map symbol).count (.button c) = se.pressed.countP fun e => e.1 = c := by
  simp [entries, List.count_eq_countP, Function.comp_def, symbol, beq_eq_decide]

theorem RealmSeat.count_key {k : Nat} : (se.entries.map symbol).count (.key (.keysym k) k) =
      se.pressedKeys.countP fun e => e.keysym = k := by
  simp [entries, List.count_eq_countP, Function.comp_def, symbol, beq_eq_decide]

theorem Balanced.of_takes (h : new.Takes notes se) : Balanced notes se where
  buttons code := by
    have hc := (h.settles.map symbol).count_eq (.button code)
    obtain ⟨ho, hcl⟩ := count_marks (.inl ⟨code, rfl, rfl⟩) notes
    rw [ho, hcl, count_button, count_button] at hc
    simpa [new] using hc
  keys keysym := by
    have hc := (h.settles.map symbol).count_eq (.key (.keysym keysym) keysym)
    obtain ⟨ho, hcl⟩ := count_marks (.inr ⟨keysym, rfl, rfl⟩) notes
    rw [ho, hcl, count_key, count_key] at hc
    simpa [new] using hc
  outstanding past note rest e hn hcl := by
    have hs := h.settles
    rw [hn, List.flatMap_append, List.flatMap_cons] at hs
    obtain ⟨held, hp, hr⟩ := Settles.append_iff.mp hs
    have hh : e ∈ held := by
      rw [marks_of_closed note hcl] at hr
      exact hr.mem_of_closed
    have hc := hp.count_eq e
    have hpo := Multiset.count_pos.mpr hh
    have hne : new.entries.count e = 0 := rfl
    omega
  gestures := h.gesture

/-- **Delivered input is balanced.** In every run of the router, under every hook: for each realm, since it was last
forgotten, presses, releases, dropped entries and held entries are in balance, nothing ends that has not begun, and
gestures follow one another; a binding that moves on owes the losing realm exactly the releases of what the human
holds there, and takes exactly that out of its seat; the drains answer what they let go of; and a call changes no seat
but that of the realm it is about. -/
theorem seat_balanced (h : H) (ops : List RouterOp) : let r := (routerStep hook).exec (.new h) ops
    (∀ re, Balanced (sinceForgotten re ((routerStep hook).outs (.new h) ops)) (r.seat re)) ∧
    (∀ re, (r.bindTo re).2 = (if r.bound = some re then none
        else r.bound.map fun lo => (lo, (r.seat lo).physical.map SeatEntry.drained)) ∧
      ∀ lo, r.bound = some lo → lo ≠ re →
        (r.bindTo re).1.seat lo = (r.seat lo).withoutPhysical) ∧
    (∀ re, (r.releasePhysicalKeys re).2 = (r.seat re).physicalKeys.map SeatEntry.drained ∧
      (r.releasePhysicalButtons re).2 = (r.seat re).physicalButtons.map SeatEntry.drained ∧
      (r.endPhysicalGesture re).2 = (r.seat re).physicalGesture.map SeatEntry.drained) ∧
    ∀ op re, RouterOp.target r.bound op ≠ some re → (op.run hook r).seat re = r.seat re := by
  intro r
  refine ⟨fun re => .of_takes (seat_accounted hook h ops re), fun re => ?_, fun re => ?_,
    fun op re => op.run_frame hook r⟩
  · obtain ⟨how, hs⟩ := r.bindTo_spec re
    refine ⟨how, fun lo hb hn => ?_⟩
    have hm : r.bound ≠ some re := by
      rw [hb]
      exact fun e => hn (Option.some.inj e)
    rw [hs lo, if_pos ⟨hm, hb⟩]
  · exact ⟨(r.drain_eq rfl re).1.trans (releasePhysicalKeys_returns _),
      (r.drain_eq rfl re).1.trans (releasePhysicalButtons_returns _),
      (r.drain_eq rfl re).1.trans (endPhysicalGesture_returns _)⟩

end

namespace Sample

/-- A realm whose surface fills what the core leaves of the output. -/
def target : SeatTarget := ⟨⟨(100, 100), 0⟩, some (100, 92)⟩

def human (kind : SeatInputKind) : RouterOp := .routePhysical kind target false 0

/-- A hook that consumes the ends of gestures. -/
def swallowing : PreemptionHook Unit where
  observe h _ := h
  gate h input := (h, match input.kind with
    | .gestureEnd _ _ => .consume
    | _ => .deliver)

/-- The human swipes twice over the sample realm. -/
def swipes : List RouterOp :=
  [.bindTo realm, human (.motion (.finite 50) (.finite 50)), human (.gestureBegin .swipe 3),
    human (.gestureEnd .swipe .completed), human (.gestureBegin .swipe 3)]

/-- The human holds a key over the sample realm and turns to another. -/
def turnsAway : List RouterOp := [.bindTo realm, human (.key (.device 42) 65 .pressed)]

end Sample

open Sample in
/-- The end of a gesture is consumed, and the app is told of a second beginning. -/
theorem gesture_begins_twice : sinceForgotten realm ((routerStep swallowing).outs (.new ()) swipes) =
      [.delivered ⟨.physical, .motion 12800 10752⟩ none, .delivered ⟨.physical, .gestureBegin .swipe 3⟩ none,
        .paid (.gesture .swipe), .delivered ⟨.physical, .gestureBegin .swipe 3⟩ none] := by
  decide +kernel

open Sample in
/-- The realm that loses the human's input is owed the release of the key held there. -/
theorem seat_balanced_turned : let r := (routerStep swallowing).exec (.new ()) turnsAway
    r.bound = some realm ∧ (r.bindTo ⟨"realm-1"⟩).2 = some (realm, [⟨.physical, .key 65 .released⟩]) ∧
    (r.bindTo ⟨"realm-1"⟩).1.seat realm = (r.seat realm).withoutPhysical := by
  intro r
  have hb : r.bound = some realm := rfl
  obtain ⟨-, hbi, -⟩ := seat_balanced swallowing () turnsAway
  obtain ⟨how, hs⟩ := hbi ⟨"realm-1"⟩
  exact ⟨hb, how.trans (by decide), hs realm hb (by decide)⟩

end Vitrin
