import Vitrin.Core.Attention

/-!
# The consent surface

What the core itself draws over the realm's view: one card, which is a petition's
prompt or the file picker's listing. The surface holds the content of the card that
is up and a cached raster of it; the grab above it hit-tests the rectangles that
raster reports.

The painting is outside: a `Painter` is what it returns, a card's size and where its
buttons and slots were drawn, together with the one fact about it that a decision
rests on (a prompt's buttons are exactly the choices its petition can be resolved
with). Coordinates are machine integers written as integers with their saturation.

`showPrompt_card`: the raster read right after a prompt is shown on an empty surface
is that prompt's own, whatever the cache held before.
-/

namespace Vitrin

open Lib

/-! ### Geometry -/

structure Rect where
  x : Int
  y : Int
  w : Nat
  h : Nat

def Rect.contains (r : Rect) (px py : Int) : Bool :=
  0 ≤ px - r.x && 0 ≤ py - r.y && px - r.x < r.w && py - r.y < r.h

/-- Where a box of one size sits in a view of another: the middle, the odd pixel right and down. -/
def centered (w h viewW viewH : Nat) : Int × Int :=
  ((saturate 31 (viewW - w)).tdiv 2, (saturate 31 (viewH - h)).tdiv 2)

/-- A view coordinate relative to a card's corner; nothing for one that is not a number. -/
def cardLocal (viewCoord : Coord) (origin : Int) : Option Int :=
  match viewCoord with
  | .finite q => some (saturate 31 (saturate 31 q.floor - origin))
  | .inf _ | .nan => none

/-! ### What a card says -/

inductive RunClass where
  | ascii
  | native
  | escaped
  deriving DecidableEq

inductive Group where
  | latin
  | greek
  | cyrillic
  | japanese
  deriving DecidableEq

/-- A name prepared for drawing. -/
structure Transcript where
  text : String
  runs : List (Nat × Nat × RunClass)
  groups : List Group
  deriving DecidableEq

/-- A row of a panel: the name, and the mark that tells it from one that looks the same. -/
structure PanelRow where
  name : Transcript
  tag : Option Transcript
  deriving DecidableEq

structure PanelContent where
  rows : List PanelRow
  highlight : Option Nat
  offset : Nat
  total : Nat
  query : Transcript
  deriving DecidableEq

/-- What a petition's card says. -/
structure PromptContent where
  principal : PrincipalIdentity
  realm : RealmId
  verbs : Verb
  persistence : PersistenceRung
  expiryMs : UInt32
  command : Option AuditedCommand
  panel : Option PanelContent

/-- The choices a card offers: the rungs that narrow the petitioned one, then refusal. -/
def PromptContent.choices (c : PromptContent) : List Choice :=
  ((PersistenceRung.all.filter fun rung => rung.narrows c.persistence).map .allow) ++ [.deny]

/-- What a pending petition's card says. A petition has nothing to browse, so it has no panel. -/
def PendingPetition.promptContent (p : PendingPetition) : PromptContent where
  principal := p.identity
  realm := p.realm
  verbs := p.requested.verbs
  persistence := p.requested.persistence
  expiryMs := p.requested.expiryMs
  command := p.launchCommand
  panel := none

def PetitionRegistry.promptContent (r : PetitionRegistry) (petition : PetitionId) : Option PromptContent :=
  (r.pending.get? petition).map (·.promptContent)

/-- Which control of the picker the keyboard is on. -/
inductive Focus where
  | listing
  | cancel
  | confirm
  deriving DecidableEq

/-- What the picker's card says. -/
structure PickerContent where
  principal : PrincipalIdentity
  realm : RealmId
  ask : AskedFor
  /-- Where below the offered folder the human stands. -/
  location : Transcript
  panel : PanelContent
  focus : Focus
  deriving DecidableEq

/-! ### What was drawn -/

/-- A button that decides a petition, and where it was drawn on the card. -/
structure ChoiceBox where
  choice : Choice
  rect : Rect

/-- A slot of the panel, and where it was drawn on the card. -/
structure SlotBox where
  index : Nat
  rect : Rect

/-- A rasterized card, without its pixels. -/
structure Card where
  width : Nat
  height : Nat
  /-- The buttons that decide a petition; a picker's card has none. -/
  buttons : List ChoiceBox
  panel : Option (List SlotBox)

/-- The painting of cards, as far as input depends on it. -/
structure Painter where
  rasterize : PromptContent → Card
  rasterizePicker : PickerContent → Card
  drawsAsItself : Char → Bool
  /-- A prompt's buttons are its petition's choices, in order. -/
  offers : ∀ c, (rasterize c).buttons.map (·.choice) = c.choices

/-! ### The surface -/

inductive PanelApplied where
  | unchanged
  | redrawn
  /-- The new card would have another size; its geometry was not taken over. -/
  | reshaped
  deriving DecidableEq

/-- The surface: the card that is up, and its cached raster. -/
structure ConsentSurface where
  prompt : Option PromptContent
  picker : Option PickerContent
  generation : BitVec 64
  cached : Option Card
  cardGeneration : BitVec 64
  dropped : prompt = none → picker = none → cached = none

namespace ConsentSurface

def new : ConsentSurface := ⟨none, none, 0, none, 0, fun _ _ => rfl⟩

/-- Put a prompt up (`show`); refused over a picker. -/
def showPrompt (f : ConsentSurface) (prompt : PromptContent) : ConsentSurface :=
  if f.picker.isSome then f
  else { f with prompt := some prompt, generation := f.generation + 1, dropped := nofun }

/-- Put the picker's card up or replace it; refused over a prompt, idle on the same content. -/
def showPicker (f : ConsentSurface) (content : PickerContent) : ConsentSurface × Bool :=
  if f.prompt.isSome then (f, false)
  else if f.picker = some content then (f, false)
  else ({ f with picker := some content, generation := f.generation + 1, dropped := nofun }, true)

/-- Replace the raised prompt's panel and nothing else. -/
def setPanel (f : ConsentSurface) (panel : PanelContent) : ConsentSurface × Bool :=
  match f.prompt with
  | none => (f, false)
  | some prompt =>
    if prompt.panel.isNone ∨ prompt.panel = some panel then (f, false)
    else
      ({ f with
          prompt := some { prompt with panel := some panel }
          generation := f.generation + 1
          dropped := nofun }, true)

/-- Take the card down and drop its raster. -/
def dismiss (f : ConsentSurface) : ConsentSurface :=
  if f.prompt.isSome || f.picker.isSome then
    { f with
      prompt := none
      picker := none
      cached := none
      generation := f.generation + 1
      dropped := fun _ _ => rfl }
  else f

def render (paint : Painter) (f : ConsentSurface) : Option Card :=
  match f.prompt, f.picker with
  | some prompt, _ => some (paint.rasterize prompt)
  | none, some picker => some (paint.rasterizePicker picker)
  | none, none => none

/-- The raster of what is up, from the cache unless it is cold or of another generation. -/
def card (paint : Painter) (f : ConsentSurface) : ConsentSurface × Option Card :=
  if h : f.prompt = none ∧ f.picker = none then (f, none)
  else if f.cached.isNone ∨ f.cardGeneration ≠ f.generation then
    ({ f with
        cached := f.render paint
        cardGeneration := f.generation
        dropped := fun hp hk => absurd ⟨hp, hk⟩ h }, f.render paint)
  else (f, f.cached)

/-- Draw another panel on a card of this size: its slots, or why they were not taken over. -/
def redraw (paint : Painter) (f : ConsentSurface) (content : PanelContent) (size : Option (Nat × Nat)) :
    ConsentSurface × Except PanelApplied (List SlotBox) :=
  match f.setPanel content with
  | (f, false) => (f, .error .unchanged)
  | (f, true) => match f.card paint with
    | (f, none) => (f, .error .unchanged)
    | (f, some card) =>
      if size ≠ some (card.width, card.height) then (f, .error .reshaped)
      else match card.panel with
        | none => (f, .error .unchanged)
        | some slots => (f, .ok slots)

@[simp] theorem dismiss_prompt (f : ConsentSurface) : f.dismiss.prompt = none := by
  unfold dismiss
  split_ifs with h
  · rfl
  · simp_all

@[simp] theorem dismiss_picker (f : ConsentSurface) : f.dismiss.picker = none := by
  unfold dismiss
  split_ifs with h
  · rfl
  · simp_all

variable {f : ConsentSurface}

theorem card_isSome (paint : Painter) (h : f.prompt.isSome ∨ f.picker.isSome) :
    ∃ card, (f.card paint).2 = some card := by
  have hu : ¬ (f.prompt = none ∧ f.picker = none) := by
    rintro ⟨hp, hk⟩
    simp [hp, hk] at h
  have hr : (f.render paint).isSome := by
    unfold render
    cases hp : f.prompt with
    | some prompt => rfl
    | none =>
      cases hk : f.picker with
      | some picker => rfl
      | none => exact absurd ⟨hp, hk⟩ hu
  unfold card
  split_ifs with hc
  · exact Option.isSome_iff_exists.mp hr
  · exact Option.ne_none_iff_exists'.mp fun hn => hc (.inl (Option.isNone_iff_eq_none.mpr hn))

theorem showPrompt_up (f : ConsentSurface) (p : PromptContent) :
    (f.showPrompt p).prompt.isSome ∨ (f.showPrompt p).picker.isSome := by
  unfold showPrompt
  split_ifs with hk
  · exact .inr hk
  · exact .inl rfl

/-- **A shown prompt is drawn as itself.** On an empty surface the raster read after `showPrompt` is of
the prompt just shown: nothing is cached there, so it is drawn afresh. -/
theorem showPrompt_card (pa : Painter) (hp : f.prompt = none) (hk : f.picker = none) (p : PromptContent) :
    ((f.showPrompt p).card pa).2 = some (pa.rasterize p) ∧ ((f.showPrompt p).card pa).1.prompt = some p ∧
      ((f.showPrompt p).card pa).1.picker = none := by
  simp [showPrompt, card, render, hk, f.dropped hp hk]

end ConsentSurface

end Vitrin
