import Mathlib.Data.List.Basic
import Vitrin.Lib.Machine

/-!
# The shim's keyboard

The shim gives its app a keyboard that has no hardware behind it. Keys arrive as keysyms,
and text as UTF-8; what the app gets are keycodes, and a keymap that says what they mean. A
keycode is a slot of a table: the first slots have fixed keysyms, and the others are a ring
in which a keysym is bound when it is first needed and forgotten when its slot is recycled.

`Seat` is the table, with which slots are held down, and what `wlr_keyboard` has as
pressed. Uploading a keymap always works, and `xkb` is the library's function from code
points to keysyms. Counters and trace lines are left out.

Two fields are not in the source and nothing reads them: `inForce` is the keymap that was
uploaded last, and `log` is what happened, in order. A press or release is logged with the
keysym that its slot has in the keymap in force and with whether the slot was held, and a
binding with whether the slot was held.

The loops of `replay_text` are bounded by the length of the payload.
-/

namespace Vitrin.Shim

open Lib

universe u

/-! ### The table -/

def noSymbol : Nat := 0

def keySlots : Nat := 247

structure KeySlot where
  keysym : Nat
  held : Bool
  boundSeq : Nat

inductive SeatMark (σ : Type u) where
  | bound (slot keysym : Nat) (held : Bool)
  | keymap
  /-- A press or release is sent; what is the slot in the keymap in force, and was it held? -/
  | key (slot : Nat) (pressed : Bool) (keysym : Nat) (held : Bool)
  | entered (surface : σ) (keys : List Nat)

structure Seat (σ : Type u) where
  slots : List KeySlot
  size : slots.length = keySlots
  warmSlots : Nat
  roomy : warmSlots < keySlots
  ringNext : Nat
  bindSeq : Nat
  keymapDirty : Bool
  focused : Option σ
  /-- The keycodes that `wlr_keyboard` has as pressed. -/
  pressed : List Nat
  inForce : List Nat
  log : List (SeatMark σ)

namespace Seat

variable {σ : Type u}

def slotAt (r : Seat σ) (i : Nat) : KeySlot := r.slots.getD i ⟨noSymbol, false, 0⟩

def setSlot (r : Seat σ) (i : Nat) (slot : KeySlot) : Seat σ :=
  { r with slots := r.slots.set i slot, size := by rw [List.length_set, r.size] }

def note (r : Seat σ) (marks : List (SeatMark σ)) : Seat σ := { r with log := r.log ++ marks }

/-- Find the slot carrying `keysym` in one of the two held states. -/
def slotFind (r : Seat σ) (keysym : Nat) (held : Bool) : Option Nat :=
  if keysym = noSymbol then none
  else r.slots.findIdx? fun slot => slot.keysym == keysym && slot.held == held

def dynCount (r : Seat σ) : Nat := keySlots - r.warmSlots

def ringSlot (r : Seat σ) (tried : Nat) : Nat := r.warmSlots + (r.ringNext + tried) % r.dynCount

/-- The slot is not held, and was not bound since the floor. -/
def recyclable (r : Seat σ) (chunkFloor i : Nat) : Bool :=
  !(r.slotAt i).held && ((r.slotAt i).keysym == noSymbol || (r.slotAt i).boundSeq < chunkFloor)

def rebind (r : Seat σ) (keysym tried : Nat) : Seat σ :=
  let i := r.ringSlot tried
  { (r.setSlot i { r.slotAt i with keysym, boundSeq := r.bindSeq + 1 }).note
      [.bound i keysym (r.slotAt i).held] with
    ringNext := (r.ringNext + tried + 1) % r.dynCount
    bindSeq := r.bindSeq + 1
    keymapDirty := true }

/-- Bind `keysym` to a keycode, if the ring can take it right now. -/
def slotBind (r : Seat σ) (keysym chunkFloor : Nat) : Option (Nat × Seat σ) :=
  match r.slotFind keysym false with
  | some i => some (i, r)
  | none =>
    match (List.range r.dynCount).find? fun tried => r.recyclable chunkFloor (r.ringSlot tried) with
    | some tried => some (r.ringSlot tried, r.rebind keysym tried)
    | none => none

def keymapSync (r : Seat σ) : Seat σ :=
  if r.keymapDirty then { r.note [.keymap] with keymapDirty := false, inForce := r.slots.map KeySlot.keysym } else r

/-- Press or release one keycode on the app's keyboard. -/
def keySend (r : Seat σ) (i : Nat) (pressed : Bool) : Seat σ :=
  { (r.setSlot i { r.slotAt i with held := pressed }).note
      [.key i pressed (r.inForce.getD i noSymbol) (r.slotAt i).held] with
    pressed := if pressed then r.pressed.insert i else r.pressed.filter (· != i) }

/-! ### Keys -/

def replayKey (r : Seat σ) (keysym : Nat) (pressed : Bool) : Seat σ :=
  if keysym = noSymbol then r
  else match pressed with
    | false =>
      match r.slotFind keysym true with
      | none => r
      | some i =>
        -- The app is gone, but the key is up.
        if r.focused.isNone then r.setSlot i { r.slotAt i with held := false }
        else r.keySend i false
    | true =>
      if r.focused.isNone then r
      else if (r.slotFind keysym true).isSome then r
      else match r.slotBind keysym (r.bindSeq + 1) with
        | none => r
        | some (i, r) => r.keymapSync.keySend i true

/-! ### Text -/

/-- What the first byte of a longer sequence says: how many bytes follow, and its own bits. -/
def utf8Lead (c : UInt8) : Option (Nat × Nat) :=
  if c &&& 0xe0 = 0xc0 then some (1, (c &&& 0x1f).toNat)
  else if c &&& 0xf0 = 0xe0 then some (2, (c &&& 0x0f).toNat)
  else if c &&& 0xf8 = 0xf0 then some (3, (c &&& 0x07).toNat)
  else none

/-- The bytes that follow add six bits each. -/
def utf8Tail (cp : Nat) : List UInt8 → Option Nat
  | [] => some cp
  | b :: rest => if b &&& 0xc0 = 0x80 then utf8Tail (cp <<< 6 ||| (b &&& 0x3f).toNat) rest else none

/-- The least code point that needs so many further bytes. -/
def minForLen : Nat → Nat
  | 0 => 0
  | 1 => 0x80
  | 2 => 0x800
  | _ => 0x10000

/-- The scalar value at the front, and how many bytes it has. -/
def utf8Next : List UInt8 → Option (Nat × Nat)
  | [] => none
  | c :: rest =>
    if c < 0x80 then some (c.toNat, 1)
    else do
      let (extra, cp) ← utf8Lead c
      if rest.length < extra then none
      else do
        let cp ← utf8Tail cp (rest.take extra)
        if cp < minForLen extra ∨ cp > 0x10ffff ∨ (cp ≥ 0xd800 ∧ cp ≤ 0xdfff) then none
        else some (cp, extra + 1)

/-- The code points of a payload; a byte that does not begin one is skipped. -/
def codePointsIn : Nat → List UInt8 → List Nat
  | 0, _ => []
  | _, [] => []
  | fuel + 1, c :: bytes => match utf8Next (c :: bytes) with
    | none => codePointsIn fuel bytes
    | some (cp, used) => cp :: codePointsIn fuel ((c :: bytes).drop used)

def codePoints (bytes : List UInt8) : List Nat := codePointsIn bytes.length bytes

def keysymForCodepoint (xkb : Nat → Nat) (cp : Nat) : Nat :=
  if cp = 0x0a then 0xff0d
  else if cp = 0x09 then 0xff09
  else if cp < 0x20 ∨ cp = 0x7f ∨ (cp ≥ 0x80 ∧ cp ≤ 0x9f) then noSymbol
  else xkb cp

def textMaxBytes : Nat := 4096

/-- The keysyms of the code points that can be delivered. -/
def textKeysyms (xkb : Nat → Nat) (utf8 : List UInt8) : List Nat :=
  ((codePoints (utf8.take textMaxBytes)).map (keysymForCodepoint xkb)).filter (· != noSymbol)

/-- Bind as many of the keysyms as can be: the slots they got. -/
def bindChunk (r : Seat σ) (chunkFloor : Nat) : List Nat → List Nat × Seat σ
  | [] => ([], r)
  | keysym :: keysyms => match r.slotBind keysym chunkFloor with
    | none => ([], r)
    | some (i, r) =>
      let (slots, r) := r.bindChunk chunkFloor keysyms
      (i :: slots, r)

def typeSlots (r : Seat σ) (slots : List Nat) : Seat σ :=
  slots.foldl (fun r i => (r.keySend i true).keySend i false) r

def typeText : Nat → Seat σ → List Nat → Seat σ
  | 0, r, _ => r
  | _, r, [] => r
  | fuel + 1, r, k :: keysyms =>
    match r.bindChunk (r.bindSeq + 1) (k :: keysyms) with
    | ([], r) => r
    | (slots, r) => typeText fuel (r.keymapSync.typeSlots slots) ((k :: keysyms).drop slots.length)

def replayText (xkb : Nat → Nat) (r : Seat σ) (utf8 : List UInt8) : Seat σ :=
  if r.focused.isNone then r
  else typeText (textKeysyms xkb utf8).length r (textKeysyms xkb utf8)

/-! ### Focus and bring-up -/

def focusKeyboard (r : Seat σ) (surface : σ) : Seat σ :=
  { r.note [.entered surface r.pressed] with focused := some surface }

def clearKeyboard (r : Seat σ) : Seat σ := { r with focused := none }

def modifierKeys : List Nat :=
  [0xffe1, 0xffe2, 0xffe3, 0xffe4, 0xffe9, 0xffea, 0xffe7, 0xffe8, 0xffeb, 0xffec, 0xfe03, 0xffe5, 0xff7f]

def warmKeysyms : List Nat :=
  [0xff1b, 0xff08, 0xff09, 0xff0d, 0xff8d, 0xffff, 0xff63, 0xff50, 0xff57, 0xff55, 0xff56, 0xff51, 0xff52, 0xff53,
    0xff54, 0xffbe, 0xffbf, 0xffc0, 0xffc1, 0xffc2, 0xffc3, 0xffc4, 0xffc5, 0xffc6, 0xffc7, 0xffc8, 0xffc9]

def pinned (xkb : Nat → Nat) : List Nat :=
  warmKeysyms.foldl (fun keysyms k => if k ∈ keysyms then keysyms else keysyms ++ [k])
    (modifierKeys ++ (List.range 95).map fun i => xkb (0x20 + i))

theorem length_pinned_lt (x : Nat → Nat) : (pinned x).length < keySlots := by
  -- Each of the warm keysyms takes at most one slot.
  have fold (w ke : List Nat) :
      (w.foldl (fun ke k => if k ∈ ke then ke else ke ++ [k]) ke).length ≤
        ke.length + w.length := by
    induction w generalizing ke with
    | nil => simp
    | cons k w ih =>
      rw [List.foldl_cons]
      refine Nat.le_trans (ih _) ?_
      split_ifs with hk
      · rw [List.length_cons]
        omega
      · rw [List.length_append, List.length_singleton, List.length_cons]
        omega
  have h := fold warmKeysyms (modifierKeys ++ (List.range 95).map fun i => x (0x20 + i))
  simp only [List.length_append, List.length_map] at h
  exact Nat.lt_of_le_of_lt h (by decide)

/-- The seat after `vitrin_seat_init`, whose keymap has been uploaded. -/
def init (xkb : Nat → Nat) : Seat σ :=
  let keysyms := pinned xkb ++ List.replicate (keySlots - (pinned xkb).length) noSymbol
  { slots := keysyms.map fun k => ⟨k, false, 0⟩
    size := by
      have h := length_pinned_lt xkb
      simp only [keysyms, List.length_map, List.length_append, List.length_replicate]
      omega
    warmSlots := (pinned xkb).length
    roomy := length_pinned_lt xkb
    ringNext := 0
    bindSeq := 0
    keymapDirty := false
    focused := none
    pressed := []
    inForce := keysyms
    log := [] }

end Seat

/-! ### Runs -/

inductive SeatOp (σ : Type u) where
  | key (keysym : Nat) (pressed : Bool)
  | text (utf8 : List UInt8)
  | focusKeyboard (surface : σ)
  | clearKeyboard

def seatStep {σ : Type u} (xkb : Nat → Nat) : Machine (Seat σ) (SeatOp σ) Unit := fun r op => match op with
  | .key keysym pressed => (r.replayKey keysym pressed, ())
  | .text utf8 => (Seat.replayText xkb r utf8, ())
  | .focusKeyboard surface => (r.focusKeyboard surface, ())
  | .clearKeyboard => (r.clearKeyboard, ())

end Vitrin.Shim
