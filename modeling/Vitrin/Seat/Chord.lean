import Vitrin.Core.Attention

/-!
# Chords

A chord is a set of modifiers held down and one more key pressed. The matcher tracks
the human's modifiers and takes from the stream both halves of the press that
completes a chord, and nothing else.

A `Trigger` is an entry of the vocabulary and a `ModChord` needs a modifier, so a chord
that could swallow a bare key cannot be written down.
-/

namespace Vitrin

inductive Modifier where
  | ctrl
  | shift
  | alt
  | super
  deriving DecidableEq

namespace Modifier

/-- Each modifier with its left and right keysym. -/
def table : List (Modifier × Nat × Nat) :=
  [(ctrl, 0xffe3, 0xffe4), (shift, 0xffe1, 0xffe2), (alt, 0xffe9, 0xffea), (super, 0xffeb, 0xffec)]

def bit : Modifier → UInt8
  | ctrl => 1
  | shift => 2
  | alt => 4
  | super => 8

/-- The modifier a keysym is, on either side of the keyboard. -/
def ofKeysym (keysym : Nat) : Option Modifier :=
  (table.find? fun row => row.2.1 = keysym ∨ row.2.2 = keysym).map (·.1)

end Modifier

abbrev Modifiers := UInt8

/-- `with`. -/
def Modifiers.adding (mods : Modifiers) (m : Modifier) : Modifiers := mods ||| m.bit

def Modifiers.without (mods : Modifiers) (m : Modifier) : Modifiers := mods &&& ~~~m.bit

/-- The keys that may complete a chord: name, scancode, keysym. -/
def triggerVocabulary : List (String × Nat × Nat) :=
  [("esc", 1, 0xff1b), ("tab", 15, 0xff09), ("backspace", 14, 0xff08), ("enter", 28, 0xff0d),
    ("space", 57, 0x0020), ("f1", 59, 0xffbe), ("f2", 60, 0xffbf), ("f3", 61, 0xffc0), ("f4", 62, 0xffc1),
    ("f5", 63, 0xffc2), ("f6", 64, 0xffc3), ("f7", 65, 0xffc4), ("f8", 66, 0xffc5), ("f9", 67, 0xffc6),
    ("f10", 68, 0xffc7), ("f11", 87, 0xffc8), ("f12", 88, 0xffc9), ("insert", 110, 0xff63),
    ("delete", 111, 0xffff), ("print", 99, 0xff61), ("home", 102, 0xff50), ("end", 107, 0xff57),
    ("pageup", 104, 0xff55), ("pagedown", 109, 0xff56), ("up", 103, 0xff52), ("down", 108, 0xff54),
    ("left", 105, 0xff51), ("right", 106, 0xff53)]

/-- The key that completes a chord. -/
structure Trigger where
  name : String
  evdev : Nat
  keysym : Nat
  listed : (name, evdev, keysym) ∈ triggerVocabulary
  deriving DecidableEq

structure ModChord where
  mods : Modifiers
  trigger : Trigger
  modified : mods ≠ 0
  deriving DecidableEq

/-- The matcher of a set of chords, each bound to a `K`. -/
structure ChordMatcher (K : Type) where
  bindings : List (ModChord × K)
  down : Modifiers
  /-- The keysyms whose press was taken and whose release is owed the same. -/
  consumed : List Nat

namespace ChordMatcher

variable {K : Type}

/-- Nothing held. Two bindings of one chord are refused. -/
def new (bindings : List (ModChord × K)) : Option (ChordMatcher K) :=
  if (bindings.map (·.1)).Nodup then some ⟨bindings, 0, []⟩ else none

/-- Follow the human's modifiers. -/
def observe (m : ChordMatcher K) (input : SeatInput) : ChordMatcher K := match input with
  | ⟨.physical, .key _ keysym state⟩ => match Modifier.ofKeysym keysym, state with
    | some modifier, .pressed => { m with down := m.down.adding modifier }
    | some modifier, .released => { m with down := m.down.without modifier }
    | none, _ => m
  | _ => m

/-- The devices went away without their releases. -/
def forgetPhysicalState (m : ChordMatcher K) : ChordMatcher K := { m with down := 0, consumed := [] }

/-- The chord a press of `keysym` completes. -/
def hit (m : ChordMatcher K) (keysym : Nat) : Option K :=
  (m.bindings.find? fun b => b.1.trigger.keysym = keysym ∧ b.1.mods = m.down).map (·.2)

/-- Take a press that completes a chord, and its release. -/
def gate (m : ChordMatcher K) (input : SeatInput) : ChordMatcher K × Gate × Option K := match input with
  | ⟨.physical, .key _ keysym state⟩ =>
    if (Modifier.ofKeysym keysym).isSome then (m, .deliver, none)
    else match state with
      | .pressed => match m.hit keysym with
        | some value => ({ m with consumed := m.consumed.insert keysym }, .consume, some value)
        | none => (m, .deliver, none)
      | .released =>
        if keysym ∈ m.consumed then ({ m with consumed := m.consumed.erase keysym }, .consume, none)
        else (m, .deliver, none)
  | _ => (m, .deliver, none)

theorem gate_press {m : ChordMatcher K} {s : KeySource} {k : Nat} :
    (m.gate ⟨.physical, .key s k .pressed⟩).2.1 = .consume ↔
      (m.gate ⟨.physical, .key s k .pressed⟩).2.2.isSome := by
  simp only [gate]
  split_ifs
  · simp
  · cases m.hit k <;> simp

end ChordMatcher

end Vitrin
