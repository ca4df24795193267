import Mathlib.Data.List.Chain
import Vitrin.Lib.Machine
import Vitrin.Lib.Utf8
import Vitrin.Screen.Activity
import Vitrin.Seat.Chord
import Vitrin.Seat.Router

/-!
# The lock

While the lock is up every physical event is judged by it: a press is swallowed, and if
it is a key it is typed into the attempt; a release is let through, for the router drops
the ones whose press was swallowed. `Return` submits the attempt to the verifier, and
only an accepted one takes the lock down. Input a principal made passes untouched.

`LockScreen` is the lock with the activity record it shares with the blank, and `LockOp`
is everything that is done to it. The verifier is a parameter: a function of the
attempt's bytes. `gateOnly` is the hook that puts a judge before an inner hook's gate and
forwards the observe tap. The attempt is a list of bytes, as in the source; `typeChar` is
the editing of a line of characters that it is compared with.

`lockStep_moves` says once what a step can do to the lock and its journal. From it come
`attempt_spec`, the attempt as a fold of the keys typed since the lock last came up or
was submitted to; `journal_spec`, the journal written over a run; `lock_erase`, a run
without the events of principals; and the main theorem `lock_opens_to_passphrase`.
-/

namespace Vitrin

open Lib Machine

/-! ### The lock screen -/

inductive LockCause where
  | chord
  | idle
  | seatChange
  deriving DecidableEq

inductive SeatChangePolicy where
  | immediate
  /-- The idle time goes on across the absence. -/
  | idle
  | never
  deriving DecidableEq

inductive LockJournal where
  | locked (cause : LockCause)
  | attempted (accepted : Bool)
  | unlocked
  deriving DecidableEq

/-- The lock chord's one meaning. -/
inductive LockGesture where
  | lock
  deriving DecidableEq

structure LockedState where
  cause : LockCause
  attempt : List UInt8
  deriving DecidableEq

/-- A passphrase file, as far as the lock knows it. -/
structure PassphraseFile where
  verify : List UInt8 → Bool

structure LockScreen where
  locked : Option LockedState
  matcher : ChordMatcher LockGesture
  idleAfter : Option Duration
  activity : SessionActivity
  verifier : Option PassphraseFile
  onSeatChange : SeatChangePolicy
  seatAbsenceCarry : Duration
  journal : List LockJournal

/-- Keysyms from here on carry a scalar value. -/
def unicodeKeysymBase : Nat := 0x01000000

def maxAttemptBytes : Nat := 512

def keysymReturn : Nat := 0xff0d

def keysymBackspace : Nat := 0xff08

def keysymEscape : Nat := 0xff1b

/-- The press or the touch the event ends began earlier. -/
def isPairingRelease (input : SeatInput) : Bool := match input.kind with
  | .key _ _ .released | .button _ .released | .gestureEnd _ _ => true
  | _ => false

def isControl (c : Char) : Bool := c.toNat < 0x20 ∨ (0x7f ≤ c.toNat ∧ c.toNat ≤ 0x9f)

namespace LockScreen

/-- The character a keysym types into the attempt. -/
def printable (keysym : Nat) : Option Char :=
  let code : Option Nat :=
    if keysym < 0x100 then some keysym
    else if keysym &&& 0xff000000 = unicodeKeysymBase then some (keysym &&& 0x00ffffff)
    else none
  match code with
  | some n => if n.isValidChar ∧ isControl (Char.ofNat n) = false then some (Char.ofNat n) else none
  | none => none

def new (chord : ModChord) (idleAfter : Option Duration) (verifier : Option PassphraseFile)
    (activity : SessionActivity) : LockScreen where
  locked := none
  matcher := ⟨[(chord, .lock)], 0, []⟩
  idleAfter := idleAfter
  activity := activity
  verifier := verifier
  onSeatChange := .never
  seatAbsenceCarry := 0
  journal := []

def withSeatChangePolicy (s : LockScreen) (policy : SeatChangePolicy) : LockScreen := { s with onSeatChange := policy }

def isLocked (s : LockScreen) : Bool := s.locked.isSome

def raise (s : LockScreen) (cause : LockCause) : LockScreen :=
  if s.locked.isSome then s
  else { s with locked := some ⟨cause, []⟩, journal := s.journal ++ [.locked cause] }

def tick (s : LockScreen) (now : Instant) (heldByPicker : Bool) : LockScreen :=
  if s.locked.isSome ∨ heldByPicker ∨ s.activity.seatAbsent then s
  else match s.idleAfter with
    | none => s
    | some after => if now - s.activity.last + s.seatAbsenceCarry < after then s else s.raise .idle

/-- The seat took the devices away, or gave them back. -/
def setSeatAbsent (s : LockScreen) (absent : Bool) (now : Instant) : LockScreen :=
  let s := match s.onSeatChange, absent with
    | .immediate, true => s.raise .seatChange
    | .idle, false => { s with seatAbsenceCarry := s.seatAbsenceCarry + (now - s.activity.last) }
    | _, _ => s
  { s with activity := s.activity.setSeatAbsent absent now }

def forgetPhysicalState (s : LockScreen) : LockScreen := { s with matcher := s.matcher.forgetPhysicalState }

def takeJournal (s : LockScreen) : LockScreen × List LockJournal := ({ s with journal := [] }, s.journal)

def accepts (s : LockScreen) (attempt : List UInt8) : Bool := s.verifier.all (·.verify attempt)

/-- Check the attempt and, if it is right, take the lock down. -/
def submit (s : LockScreen) : LockScreen := match s.locked with
  | none => s
  | some locked =>
    if s.accepts locked.attempt then
      { s with locked := none, journal := s.journal ++ [.attempted true, .unlocked] }
    else
      { s with locked := some { locked with attempt := [] }, journal := s.journal ++ [.attempted false] }

/-- The attempt after a key other than `Return`. -/
def edit (attempt : List UInt8) (keysym : Nat) : List UInt8 :=
  if keysym = keysymBackspace then Utf8.popChar attempt
  else if keysym = keysymEscape then []
  else match printable keysym with
    | none => attempt
    | some c =>
      let encoded := String.utf8EncodeChar c
      if attempt.length + encoded.length ≤ maxAttemptBytes then attempt ++ encoded else attempt

def typeKey (s : LockScreen) (keysym : Nat) : LockScreen := match s.locked with
  | none => s
  | some locked =>
    if keysym = keysymReturn then s.submit
    else { s with locked := some { locked with attempt := edit locked.attempt keysym } }

/-- The lock after the human's activity has been noted, and what the event means to the blank. -/
def noted (s : LockScreen) (input : SeatInput) (now : Instant) : LockScreen × Wake :=
  let noted := s.activity.notePhysical now
  ({ s with matcher := s.matcher.observe input, activity := noted.1, seatAbsenceCarry := 0 }, noted.2)

/-- A physical event that got past the wake and the chord. -/
def judgeLocked (s : LockScreen) (kind : SeatInputKind) : LockScreen × Gate := match kind with
  | .key _ _ .released | .button _ .released | .gestureEnd _ _ => (s, .deliver)
  | .key _ keysym .pressed => (s.typeKey keysym, .consume)
  | .motion _ _ | .scroll _ _ | .button _ .pressed | .text _ | .relativeMotion _ _ _ _ | .gestureBegin _ _
  | .gestureSwipeUpdate _ _ | .gesturePinchUpdate _ _ _ _ => (s, .consume)

/-- A physical event that did not wake the panel: the chord first, then the lock. -/
def judgeAwake (s : LockScreen) (input : SeatInput) : LockScreen × Gate :=
  let gated := s.matcher.gate input
  let s := { s with matcher := gated.1 }
  match gated.2.2 with
  | some .lock => (s.raise .chord, .consume)
  | none =>
    if gated.2.1 = .consume then (s, .consume)
    else if s.locked.isNone then (s, .deliver)
    else s.judgeLocked input.kind

def judge (s : LockScreen) (input : SeatInput) (now : Instant) : LockScreen × Gate :=
  if input.origin ≠ .physical then (s, .deliver)
  else
    let noted := s.noted input now
    if noted.2.consumes && !isPairingRelease input then (noted.1, .consume)
    else noted.1.judgeAwake input

end LockScreen

/-! ### The lock at the router's hook point -/

/-- A judge before an inner hook's gate (`GateOnlyHook`). It has no observe tap of its own. -/
def gateOnly {S H : Type} (judge : S → SeatInput → S × Gate) (inner : PreemptionHook H) : PreemptionHook (S × H) where
  observe := fun (s, h) input => (s, inner.observe h input)
  gate := fun (s, h) input => match judge s input with
    | (s, .consume) => ((s, h), .consume)
    | (s, .deliver) => ((s, (inner.gate h input).1), (inner.gate h input).2)

def lockGate {H : Type} (now : Instant) (inner : PreemptionHook H) : PreemptionHook (LockScreen × H) :=
  gateOnly (fun s input => s.judge input now) inner

/-! ### Runs -/

inductive LockOp where
  | event (input : SeatInput) (now : Instant)
  | tick (now : Instant) (heldByPicker : Bool)
  | raise (cause : LockCause)
  | setSeatAbsent (absent : Bool) (now : Instant)
  | forgetPhysicalState
  | takeJournal
  /-- What the blank round and the panel do to the shared record. -/
  | activity (op : ActivityOp)

/-- The verdict on an event, the keysym it typed, and the journal handed over. -/
structure LockOut where
  verdict : Option Gate
  typed : Option Nat
  journal : List LockJournal

/-- The keysym of a press that is typed into the attempt: the human's, made while the lock is up, that
neither wakes the panel nor completes the lock chord. -/
def LockScreen.typed (s : LockScreen) (input : SeatInput) (now : Instant) : Option Nat := match input with
  | ⟨.physical, .key _ keysym .pressed⟩ =>
    let noted := s.noted input now
    if s.isLocked ∧ noted.2.consumes = false ∧ (noted.1.matcher.gate input).2.2 = none then some keysym else none
  | _ => none

def lockStep : Machine LockScreen LockOp LockOut := fun s op => match op with
  | .event input now => ((s.judge input now).1, ⟨some (s.judge input now).2, s.typed input now, []⟩)
  | .tick now held => (s.tick now held, ⟨none, none, []⟩)
  | .raise cause => (s.raise cause, ⟨none, none, []⟩)
  | .setSeatAbsent absent now => (s.setSeatAbsent absent now, ⟨none, none, []⟩)
  | .forgetPhysicalState => (s.forgetPhysicalState, ⟨none, none, []⟩)
  | .takeJournal => (s.takeJournal.1, ⟨none, none, s.takeJournal.2⟩)
  | .activity op => ({ s with activity := op.run s.activity }, ⟨none, none, []⟩)

/-! ### What a step can do to the lock -/

/-- What a step does to the lock and writes into the journal. -/
inductive LockMove (s : LockScreen) (typed : Option Nat) : Option LockedState → List LockJournal → Prop
  | still (h : typed = none) : LockMove s typed s.locked []
  | raised (cause : LockCause) (h : typed = none) (down : s.locked = none) :
    LockMove s typed (some ⟨cause, []⟩) [.locked cause]
  | edited (l : LockedState) (keysym : Nat) (h : typed = some keysym) (ne : keysym ≠ keysymReturn)
    (up : s.locked = some l) : LockMove s typed (some { l with attempt := LockScreen.edit l.attempt keysym }) []
  | refused (l : LockedState) (h : typed = some keysymReturn) (up : s.locked = some l)
    (wrong : s.accepts l.attempt = false) : LockMove s typed (some { l with attempt := [] }) [.attempted false]
  | accepted (l : LockedState) (h : typed = some keysymReturn) (up : s.locked = some l)
    (right : s.accepts l.attempt = true) : LockMove s typed none [.attempted true, .unlocked]

variable {s : LockScreen} {input : SeatInput} {typed : Option Nat}

variable {keysym : Nat}

namespace LockScreen

/-- A step from `s` to `s'` that types `typed` and hands `drained` of the journal over. -/
structure Moves (s : LockScreen) (typed : Option Nat) (drained : List LockJournal) (s' : LockScreen)
    (wrote : List LockJournal) : Prop where
  move : LockMove s typed s'.locked wrote
  journal : drained ++ s'.journal = s.journal ++ wrote
  verifier : s'.verifier = s.verifier

theorem moves_still {s' : LockScreen} (hl : s'.locked = s.locked) (hj : s'.journal = s.journal)
    (hv : s'.verifier = s.verifier) : Moves s none [] s' [] :=
  ⟨hl ▸ .still rfl, by simp [hj], hv⟩

theorem raise_moves (s : LockScreen) (c : LockCause) : ∃ w, Moves s none [] (s.raise c) w := by
  unfold raise
  split_ifs with h
  · exact ⟨[], moves_still rfl rfl rfl⟩
  · exact ⟨_, .raised c rfl (by simpa using h), rfl, rfl⟩

theorem submit_moves (h : s.isLocked) : ∃ w, Moves s (some keysymReturn) [] s.submit w := by
  obtain ⟨l, hl⟩ := Option.isSome_iff_exists.mp h
  simp only [submit, hl]
  split_ifs with ha
  · exact ⟨_, .accepted l rfl hl ha, rfl, rfl⟩
  · exact ⟨_, .refused l rfl hl (by simpa using ha), rfl, rfl⟩

theorem typeKey_moves (keysym : Nat) (h : s.isLocked) : ∃ w, Moves s (some keysym) [] (s.typeKey keysym) w := by
  by_cases hk : keysym = keysymReturn
  · subst hk
    obtain ⟨l, hl⟩ := Option.isSome_iff_exists.mp h
    simpa [typeKey, hl] using submit_moves h
  · obtain ⟨l, hl⟩ := Option.isSome_iff_exists.mp h
    simp only [typeKey, hl, if_neg hk]
    exact ⟨[], .edited l keysym rfl hk hl, by simp, rfl⟩

theorem tick_moves (s : LockScreen) (now : Instant) (held : Bool) : ∃ w, Moves s none [] (s.tick now held) w := by
  unfold tick
  split_ifs
  · exact ⟨[], moves_still rfl rfl rfl⟩
  · split
    · exact ⟨[], moves_still rfl rfl rfl⟩
    · split_ifs
      · exact ⟨[], moves_still rfl rfl rfl⟩
      · exact s.raise_moves .idle

theorem setSeatAbsent_moves (s : LockScreen) (a : Bool) (now : Instant) :
    ∃ w, Moves s none [] (s.setSeatAbsent a now) w := by
  unfold setSeatAbsent
  split
  · obtain ⟨w, h⟩ := s.raise_moves .seatChange
    exact ⟨w, h.move, h.journal, h.verifier⟩
  · exact ⟨[], moves_still rfl rfl rfl⟩
  · exact ⟨[], moves_still rfl rfl rfl⟩

/-- What is typed is the human's press at a raised lock, past the wake and the chord. -/
theorem typed_eq_some {now : Instant} :
    s.typed input now = some keysym ↔ ∃ so, input = ⟨.physical, .key so keysym .pressed⟩ ∧ s.isLocked ∧
      (s.noted input now).2.consumes = false ∧ ((s.noted input now).1.matcher.gate input).2.2 = none := by
  unfold typed
  split
  · rename_i so k
    by_cases hk : k = keysym
    · subst hk
      simp
    · simp [hk]
  · rename_i hn
    constructor
    · intro h
      cases h
    · rintro ⟨so, rfl, -⟩
      exact absurd rfl (hn so keysym)

theorem typed_eq_none {now : Instant}
    (h : ∀ so keysym, input = ⟨.physical, .key so keysym .pressed⟩ → s.isLocked →
      (s.noted input now).2.consumes = false → ((s.noted input now).1.matcher.gate input).2.2 ≠ none) :
    s.typed input now = none := by
  rw [Option.eq_none_iff_forall_ne_some]
  intro keysym ht
  obtain ⟨so, rfl, hl, hw, hg⟩ := typed_eq_some.mp ht
  exact h so keysym rfl hl hw hg

theorem judgeLocked_moves (k : SeatInputKind) (h : s.isLocked) :
    (∃ so keysym w, k = .key so keysym .pressed ∧ Moves s (some keysym) [] (s.judgeLocked k).1 w) ∨
      (∀ so keysym, k ≠ .key so keysym .pressed) ∧ (s.judgeLocked k).1 = s := by
  unfold judgeLocked
  split
  all_goals try exact .inr ⟨by simp, rfl⟩
  rename_i so keysym
  obtain ⟨w, hm⟩ := typeKey_moves keysym h
  exact .inl ⟨so, keysym, w, rfl, hm⟩

theorem Moves.of_same {s₁ s' : LockScreen} {d w : List LockJournal} (h : Moves s₁ typed d s' w)
    (hl : s₁.locked = s.locked) (hj : s₁.journal = s.journal) (hv : s₁.verifier = s.verifier) :
    Moves s typed d s' w := by
  have ha (attempt) : s₁.accepts attempt = s.accepts attempt := by rw [accepts, accepts, hv]
  refine ⟨?_, hj ▸ h.journal, hv ▸ h.verifier⟩
  have hm := h.move
  generalize s'.locked = l' at hm ⊢
  cases hm with
  | still h' => exact hl ▸ .still h'
  | raised c h' dow => exact .raised c h' (hl ▸ dow)
  | edited l keysym h' ne up => exact .edited l keysym h' ne (hl ▸ up)
  | refused l h' up wr => exact .refused l h' (hl ▸ up) (ha _ ▸ wr)
  | accepted l h' up right => exact .accepted l h' (hl ▸ up) (ha _ ▸ right)

variable (s : LockScreen)

/-- Past the wake, a press is typed or leaves the lock's attempt alone. -/
theorem judgeAwake_moves (input : SeatInput) (ho : input.origin = .physical) : ∃ typed w,
    Moves s typed [] (s.judgeAwake input).1 w ∧ ∀ keysym, typed = some keysym ↔
      ∃ so, input = ⟨.physical, .key so keysym .pressed⟩ ∧ s.isLocked ∧ (s.matcher.gate input).2.2 = none := by
  obtain ⟨o, ki⟩ := input
  cases ho
  unfold judgeAwake
  dsimp only
  split
  · rename_i hg
    obtain ⟨w, h⟩ := raise_moves { s with matcher := (s.matcher.gate ⟨.physical, ki⟩).1 } .chord
    exact ⟨none, w, h.of_same rfl rfl rfl, by simp [hg]⟩
  rename_i hg
  split_ifs with hc hl
  · -- a release of the chord's key
    refine ⟨none, [], moves_still rfl rfl rfl, fun keysym => ⟨by simp, ?_⟩⟩
    rintro ⟨so, hi, -, -⟩
    rw [hi, ChordMatcher.gate_press, ← hi, hg] at hc
    cases hc
  · refine ⟨none, [], moves_still rfl rfl rfl, fun keysym => ⟨by simp, ?_⟩⟩
    simp_all [isLocked]
  · have hu : s.isLocked := by simpa [isLocked, Option.isSome_iff_ne_none] using hl
    obtain ⟨so, keysym, w, rfl, h⟩ | ⟨hn, hs⟩ := judgeLocked_moves
      (s := { s with matcher := (s.matcher.gate ⟨.physical, ki⟩).1 }) ki hu
    · refine ⟨some keysym, w, h.of_same rfl rfl rfl, fun k => ?_⟩
      simp [hu, hg]
    · rw [hs]
      refine ⟨none, [], moves_still rfl rfl rfl, fun keysym => ⟨by simp, ?_⟩⟩
      rintro ⟨so, hi, -, -⟩
      cases hi
      exact absurd rfl (hn so keysym)

theorem judge_moves (input : SeatInput) (now : Instant) :
    ∃ w, Moves s (s.typed input now) [] (s.judge input now).1 w := by
  unfold judge
  dsimp only
  split_ifs with ho hw
  · -- an emulated event
    rw [typed_eq_none (by rintro so keysym rfl; exact absurd rfl ho)]
    exact ⟨[], moves_still rfl rfl rfl⟩
  · -- the panel wakes
    rw [typed_eq_none (by rintro so keysym rfl - hwa; simp [hwa] at hw)]
    exact ⟨[], moves_still rfl rfl rfl⟩
  · obtain ⟨typed, w, h, hty⟩ := (s.noted input now).1.judgeAwake_moves input (not_not.mp ho)
    have ht : s.typed input now = typed := by
      refine Option.ext fun keysym => ?_
      rw [typed_eq_some, hty]
      refine exists_congr fun so => and_congr_right fun hi => and_congr_right fun hu => ?_
      have hwa : (s.noted input now).2.consumes = false := by
        subst hi
        simpa [isPairingRelease] using hw
      simp [hwa]
    exact ⟨w, ht ▸ h.of_same rfl rfl rfl⟩

end LockScreen

theorem lockStep_moves (s : LockScreen) (op : LockOp) :
    ∃ w, s.Moves (lockStep s op).2.typed (lockStep s op).2.journal (lockStep s op).1 w := by
  cases op with
  | event input now => exact s.judge_moves input now
  | tick now held => exact s.tick_moves now held
  | raise c => exact s.raise_moves c
  | setSeatAbsent a now => exact s.setSeatAbsent_moves a now
  | forgetPhysicalState | activity => exact ⟨[], LockScreen.moves_still rfl rfl rfl⟩
  | takeJournal => exact ⟨[], .still rfl, rfl, rfl⟩

variable {op : LockOp}

theorem lockStep_typed (h : (lockStep s op).2.typed = some keysym) :
    ∃ so now, op = .event ⟨.physical, .key so keysym .pressed⟩ now := by
  cases op with
  | event input now =>
    obtain ⟨so, rfl, -⟩ := LockScreen.typed_eq_some.mp h
    exact ⟨so, now, rfl⟩
  | _ => cases h

theorem exec_verifier (s : LockScreen) (ops : List LockOp) : (lockStep.exec s ops).verifier = s.verifier := by
  refine exec_inv (M := lockStep) (P := fun t => t.verifier = s.verifier) (fun t op h => ?_) rfl ops
  obtain ⟨w, hm⟩ := lockStep_moves t op
  exact hm.verifier.trans h

/-! ### The attempt as a line of characters -/

/-- A line of at most `maxAttemptBytes` bytes after a key other than `Return`. -/
def typeChar (line : List Char) (keysym : Nat) : List Char :=
  if keysym = keysymBackspace then line.dropLast
  else if keysym = keysymEscape then []
  else match LockScreen.printable keysym with
    | none => line
    | some c => if (Utf8.encode (line ++ [c])).length ≤ maxAttemptBytes then line ++ [c] else line

open LockScreen (edit isLocked judge)

theorem edit_encode {l : List Char} : edit (Utf8.encode l) keysym = Utf8.encode (typeChar l keysym) := by
  unfold edit typeChar
  split_ifs
  · exact Utf8.popChar_encode l
  · rfl
  · cases LockScreen.printable keysym with
    | none => rfl
    | some c =>
      simp only [Utf8.encode_append, Utf8.encode_singleton, List.length_append]
      split_ifs <;> simp

theorem typeChar_length {l : List Char} (keysym : Nat) (h : (Utf8.encode l).length ≤ maxAttemptBytes) :
    (Utf8.encode (typeChar l keysym)).length ≤ maxAttemptBytes := by
  unfold typeChar
  split_ifs
  · obtain rfl | ⟨cs, c, rfl⟩ := l.eq_nil_or_concat
    · exact h
    · simp only [List.concat_eq_append, List.dropLast_concat, Utf8.encode_append, List.length_append] at h ⊢
      omega
  · simp
  · split
    · exact h
    · split_ifs with hf
      · exact hf
      · exact h

theorem foldl_typeChar_length (ke : List Nat) : (Utf8.encode (ke.foldl typeChar [])).length ≤ maxAttemptBytes := by
  induction ke using List.reverseRecOn with
  | nil => simp
  | append_singleton ke k ih =>
    rw [List.foldl_concat]
    exact typeChar_length k ih

def typedKeys (s : LockScreen) (ops : List LockOp) : List Nat := (lockStep.outs s ops).filterMap (·.typed)

/-- The step raises the lock or submits the attempt. -/
def Begins (s : LockScreen) (op : LockOp) : Prop :=
  (s.isLocked = false ∧ (lockStep s op).1.isLocked = true) ∨ (lockStep s op).2.typed = some keysymReturn

/-- The keys typed since the latest step of the run that raised the lock or submitted the attempt. -/
def TypedSince (s : LockScreen) (ops : List LockOp) (keys : List Nat) : Prop :=
  ∃ before op since, ops = before ++ op :: since ∧ Begins (lockStep.exec s before) op ∧
    lockStep.Along (fun t op => ¬ Begins t op) (lockStep.exec s (before ++ [op])) since ∧
    keys = typedKeys (lockStep.exec s (before ++ [op])) since

variable {ops : List LockOp}

theorem typedKeys_concat :
    typedKeys s (ops ++ [op]) = typedKeys s ops ++ (lockStep (lockStep.exec s ops) op).2.typed.toList := by
  unfold typedKeys
  rw [outs_append, List.filterMap_append]
  cases h : (lockStep (lockStep.exec s ops) op).2.typed <;> simp [h]

theorem TypedSince.concat {k : List Nat} (h : TypedSince s ops k) (hop : ¬ Begins (lockStep.exec s ops) op) :
    TypedSince s (ops ++ [op]) (k ++ (lockStep (lockStep.exec s ops) op).2.typed.toList) := by
  obtain ⟨be, b, si, rfl, hb, hs, rfl⟩ := h
  have he : lockStep.exec s (be ++ b :: si) = lockStep.exec (lockStep.exec s (be ++ [b])) si := by
    rw [← exec_append, List.append_assoc]
    rfl
  rw [he] at hop ⊢
  refine ⟨be, b, si ++ [op], by simp, hb, ?_, ?_⟩
  · exact (lockStep.along_append _ _ si [op]).mpr ⟨hs, hop, trivial⟩
  · rw [typedKeys_concat]

theorem TypedSince.begin (h : Begins (lockStep.exec s ops) op) : TypedSince s (ops ++ [op]) [] :=
  ⟨ops, op, [], rfl, h, trivial, rfl⟩

/-- **The attempt is what was typed.** At a raised lock the attempt is the bytes of the line that the
keys typed since it came up, or since the last submission, make. -/
theorem attempt_spec (h₀ : s.locked = none) (ops : List LockOp) (l : LockedState)
    (hl : (lockStep.exec s ops).locked = some l) :
    ∃ k, TypedSince s ops k ∧ l.attempt = Utf8.encode (k.foldl typeChar []) := by
  refine exec_past (M := lockStep) (P := fun p t => ∀ l, t.locked = some l → ∃ k, TypedSince s p k ∧
    l.attempt = Utf8.encode (k.foldl typeChar [])) (by simp [h₀]) (fun p op ih => ?_) ops l hl
  intro l hl
  obtain ⟨wr, hm, -, -⟩ := lockStep_moves (lockStep.exec s p) op
  -- a step at a raised lock that types anything but `Return` begins nothing
  have quiet {l₀ : LockedState} (hu : (lockStep.exec s p).locked = some l₀)
      (hn : (lockStep (lockStep.exec s p) op).2.typed ≠ some keysymReturn) :
      ¬ Begins (lockStep.exec s p) op := by
    rintro (⟨hd, -⟩ | ht)
    · simp [isLocked, hu] at hd
    · exact hn ht
  generalize hl' : (lockStep (lockStep.exec s p) op).1.locked = l' at hm
  cases hm with
  | still hty =>
    have hu : (lockStep.exec s p).locked = some l := hl'.symm.trans hl
    obtain ⟨k, hk, ha⟩ := ih l hu
    refine ⟨k, ?_, ha⟩
    simpa [hty] using hk.concat (quiet hu (by simp [hty]))
  | raised c hty d =>
    cases hl'.symm.trans hl
    exact ⟨[], .begin (.inl ⟨by simp [isLocked, d], by simp [isLocked, hl]⟩), rfl⟩
  | edited l₀ keysym hty ne up =>
    cases hl'.symm.trans hl
    obtain ⟨k, hk, ha⟩ := ih l₀ up
    refine ⟨k ++ [keysym], ?_, ?_⟩
    · simpa [hty] using hk.concat (quiet up (by simpa [hty] using ne))
    · rw [List.foldl_concat, ← edit_encode, ← ha]
  | refused l₀ hty up w =>
    cases hl'.symm.trans hl
    exact ⟨[], .begin (.inr hty), rfl⟩
  | accepted l₀ hty up right => cases hl'.symm.trans hl

/-! ### The journal -/

/-- Everything written into the journal along a run, handed over or not. -/
def journalled (s : LockScreen) (ops : List LockOp) : List LockJournal :=
  (lockStep.outs s ops).flatMap (·.journal) ++ (lockStep.exec s ops).journal

namespace LockJournal

def side : LockJournal → Option Bool
  | locked _ => some true
  | attempted _ => none
  | unlocked => some false

def isAttempted : LockJournal → Bool
  | attempted _ => true
  | _ => false

end LockJournal

/-- The lock comes up and goes down in turn, first up, and is left as `up` says. -/
def Alternates (entries : List LockJournal) (up : Bool) : Prop :=
  (false :: entries.filterMap (·.side)).IsChain (· ≠ ·) ∧ (false :: entries.filterMap (·.side)).getLast? = some up

theorem Alternates.concat {e w : List LockJournal} {up : Bool} (h : Alternates e up)
    (hs : w.filterMap (·.side) = [!up]) : Alternates (e ++ w) (!up) := by
  obtain ⟨hc, hl⟩ := h
  unfold Alternates
  rw [List.filterMap_append, hs, ← List.cons_append]
  refine ⟨List.isChain_append.mpr ⟨hc, List.isChain_singleton _, ?_⟩, List.getLast?_concat⟩
  simp [hl]

theorem Alternates.same {e w : List LockJournal} {up : Bool} (h : Alternates e up)
    (hs : w.filterMap (·.side) = []) : Alternates (e ++ w) up := by
  unfold Alternates
  rw [List.filterMap_append, hs, List.append_nil]
  exact h

theorem journalled_concat (s : LockScreen) (p : List LockOp) (op : LockOp) {w : List LockJournal}
    (h : (lockStep.exec s p).Moves typed (lockStep (lockStep.exec s p) op).2.journal
      (lockStep (lockStep.exec s p) op).1 w) :
    journalled s (p ++ [op]) = journalled s p ++ w := by
  unfold journalled
  rw [outs_append, exec_concat, List.flatMap_append]
  simp [h.journal]

/-- **The journal.** Over every run it says in turn that the lock came up and went down, and it has one
attempt for each submission. -/
theorem journal_spec (h₀ : s.locked = none) (hj : s.journal = []) (ops : List LockOp) :
    Alternates (journalled s ops) (lockStep.exec s ops).isLocked ∧
      (journalled s ops).countP (·.isAttempted) = (typedKeys s ops).count keysymReturn := by
  induction ops using List.reverseRecOn with
  | nil => simp [journalled, hj, isLocked, h₀, Alternates, typedKeys]
  | append_singleton p op ih =>
    obtain ⟨ha, hc⟩ := ih
    obtain ⟨wr, hm⟩ := lockStep_moves (lockStep.exec s p) op
    rw [journalled_concat s p op hm, typedKeys_concat, exec_concat, List.countP_append, List.count_append, hc]
    have hmo := hm.move
    unfold isLocked at ha ⊢
    generalize (lockStep (lockStep.exec s p) op).1.locked = locked' at hmo ⊢
    cases hmo with
    | still ht => exact ⟨ha.same rfl, by simp [ht]⟩
    | raised _ ht down | accepted _ ht down =>
      rw [down] at ha
      exact ⟨ha.concat rfl, by simp [ht, LockJournal.isAttempted]⟩
    | edited l keysym ht ne up =>
      rw [up] at ha
      exact ⟨ha.same rfl, by simp [ht, ne]⟩
    | refused l ht up w =>
      rw [up] at ha
      exact ⟨ha.same rfl, by simp [ht, LockJournal.isAttempted]⟩

/-! ### What the lock keeps from the hooks behind it -/

theorem judgeLocked_consumes {s : LockScreen} (hr : isPairingRelease input = false) :
    (s.judgeLocked input.kind).2 = .consume := by
  unfold LockScreen.judgeLocked
  unfold isPairingRelease at hr
  split <;> simp_all

theorem judgeAwake_consumes (h : s.isLocked) (hr : isPairingRelease input = false) :
    (s.judgeAwake input).2 = .consume := by
  unfold LockScreen.judgeAwake
  dsimp only
  split
  · rfl
  · split_ifs with hc hd
    · rfl
    · simp_all [isLocked]
    · exact judgeLocked_consumes hr

/-- While the lock is up the human's events are swallowed, the ones that end something apart. -/
theorem judge_consumes (h : s.isLocked) (now : Instant) (ho : input.origin = .physical)
    (hr : isPairingRelease input = false) : (s.judge input now).2 = .consume := by
  unfold judge
  rw [if_neg (not_not.mpr ho)]
  dsimp only
  split_ifs
  · rfl
  · exact judgeAwake_consumes (s := (s.noted input now).1) h hr

def LockOp.emulated : LockOp → Bool
  | .event input _ => input.origin = .emulated
  | _ => false

/-- **Principals do not reach the lock.** Without their events the lock ends the same and every other step
answers the same. -/
theorem lock_erase (s : LockScreen) (ops : List LockOp) :
    lockStep.exec s ops = lockStep.exec s (ops.filter fun op => !op.emulated) ∧
      lockStep.outsAt (fun op => !op.emulated) s ops = lockStep.outs s (ops.filter fun op => !op.emulated) := by
  refine exec_erase (R := fun _ s t => s = t) (fun s t op ops h hop => ?_) (fun s t op ops h hop => ?_) ops rfl
  · subst h
    obtain ⟨k, now, rfl⟩ : ∃ k now, op = .event ⟨.emulated, k⟩ now := by
      cases op with
      | event input now =>
        obtain ⟨o, k⟩ := input
        obtain rfl : o = .emulated := by simpa [LockOp.emulated] using hop
        exact ⟨k, now, rfl⟩
      | _ => cases hop
    -- the judge lets it through before it looks at anything
    rfl
  · subst h
    exact ⟨rfl, rfl⟩

/-- The lock is taken down by the human's `Return` on an accepted attempt. -/
theorem lock_opens (h : s.isLocked) (h' : (lockStep s op).1.isLocked = false) :
    ∃ so now l, op = .event ⟨.physical, .key so keysymReturn .pressed⟩ now ∧ s.locked = some l ∧
      s.accepts l.attempt := by
  obtain ⟨w, hm, -, -⟩ := lockStep_moves s op
  unfold isLocked at h h'
  generalize (lockStep s op).1.locked = locked' at hm h'
  cases hm with
  | still ht => simp [h'] at h
  | raised c ht d => simp [d] at h
  | edited | refused => cases h'
  | accepted l ht up right =>
    obtain ⟨so, now, hop⟩ := lockStep_typed ht
    exact ⟨so, now, l, hop, up, right⟩

/-- **The lock opens only to the passphrase.** Over every run of a lock with a verifier:

* it goes down only in the step of the human's `Return`, on an attempt the verifier accepts;
* the attempt is the bytes of the line that the keys typed since the lock came up or since the last
  submission make, valid UTF-8 of at most `maxAttemptBytes`;
* while it is up none of the human's events gets to the gate of a hook behind it, but the ones that end a
  press or a gesture; a principal's get there, and so does everything to its observe tap;
* without the events of principals it ends in the same state and answers everything else the same;
* its journal says in turn that it came up and went down, with one attempt for each submission. -/
theorem lock_opens_to_passphrase (chord : ModChord) (idleAfter : Option Duration) (file : PassphraseFile)
    (activity : SessionActivity) (policy : SeatChangePolicy) (ops : List LockOp) :
    let s₀ := (LockScreen.new chord idleAfter (some file) activity).withSeatChangePolicy policy
    let s := lockStep.exec s₀ ops
    (∀ op, s.isLocked → (lockStep s op).1.isLocked = false → ∃ so now l,
        op = .event ⟨.physical, .key so keysymReturn .pressed⟩ now ∧ s.locked = some l ∧ file.verify l.attempt) ∧
      (∀ l, s.locked = some l →
        (∃ k, TypedSince s₀ ops k ∧ l.attempt = Utf8.encode (k.foldl typeChar [])) ∧
        l.attempt.toByteArray.IsValidUTF8 ∧ l.attempt.length ≤ maxAttemptBytes) ∧
      (s.isLocked → ∀ input now, input.origin = .physical → isPairingRelease input = false →
        ∀ (H : Type) (i : PreemptionHook H) (h : H),
          (lockGate now i).gate (s, h) input = (((s.judge input now).1, h), .consume)) ∧
      (∀ (H : Type) (i : PreemptionHook H) (h : H) input now,
        (lockGate now i).observe (s, h) input = (s, i.observe h input) ∧ (input.origin ≠ .physical →
          (lockGate now i).gate (s, h) input = ((s, (i.gate h input).1), (i.gate h input).2))) ∧
      (s = lockStep.exec s₀ (ops.filter fun op => !op.emulated) ∧
        lockStep.outsAt (fun op => !op.emulated) s₀ ops = lockStep.outs s₀ (ops.filter fun op => !op.emulated)) ∧
      Alternates (journalled s₀ ops) s.isLocked ∧
      (journalled s₀ ops).countP (·.isAttempted) = (typedKeys s₀ ops).count keysymReturn := by
  intro s₀ s
  have hv : s.verifier = some file := exec_verifier s₀ ops
  refine ⟨?_, ?_, ?_, ?_, lock_erase s₀ ops, journal_spec rfl rfl ops⟩
  · intro op hu hd
    obtain ⟨so, now, l, hop, hl, ha⟩ := lock_opens hu hd
    exact ⟨so, now, l, hop, hl, by simpa [LockScreen.accepts, hv] using ha⟩
  · intro l hl
    obtain ⟨k, hk, ha⟩ := attempt_spec rfl ops l hl
    rw [ha]
    exact ⟨⟨k, hk, rfl⟩, Utf8.encode_valid, foldl_typeChar_length k⟩
  · intro hu input now ho hr H i h
    have hj := judge_consumes hu now ho hr
    simp only [lockGate, gateOnly]
    generalize s.judge input now = judged at hj ⊢
    obtain ⟨s', g⟩ := judged
    cases hj
    rfl
  · intro H i h input now
    refine ⟨rfl, fun ho => ?_⟩
    have hj : s.judge input now = (s, .deliver) := if_pos ho
    simp only [lockGate, gateOnly, hj]

/-! ### A lock on the keyboard -/

namespace LockSample

/-- `ctrl+alt+delete`. -/
def chord : ModChord := ⟨5, ⟨"delete", 111, 0xffff, by decide⟩, by decide⟩

def file : PassphraseFile := ⟨fun attempt => attempt == [0x68, 0xc3, 0xa9]⟩

/-- A lock of a session whose panel blanks after five minutes. -/
def screen : LockScreen :=
  (LockScreen.new chord none (some file) (.new (some (secs 300)) 0)).withSeatChangePolicy .never

def press (keysym : Nat) : LockOp := .event ⟨.physical, .key .keysym keysym .pressed⟩ (secs 1)

/-- The chord, then "h", "x", a backspace and "é". -/
def typing : List LockOp :=
  [press 0xffe3, press 0xffe9, press 0xffff, press 0x68, press 0x78, press 0xff08, press 0xe9]

/-- A hook that remembers what its gate was asked about. -/
def recorder : PreemptionHook (List SeatInput) where
  observe := fun seen _ => seen
  gate := fun seen input => (seen ++ [input], .deliver)

def click : SeatInput := ⟨.emulated, .button 272 .pressed⟩

/-- The panel goes dark, the lock comes up and the human presses "a". -/
def darkPress : List LockOp :=
  [.activity (.tick (secs 400) false), .raise .chord, .event ⟨.physical, .key .keysym 0x61 .pressed⟩ (secs 401)]

end LockSample

open LockSample in
/-- The human's `Return` on "hé" opens the lock. -/
theorem lock_opens_to_passphrase_typed : (lockStep.exec screen typing).isLocked ∧
      (lockStep (lockStep.exec screen typing) (press keysymReturn)).1.isLocked = false ∧ ∃ source now l,
        press keysymReturn = .event ⟨.physical, .key source keysymReturn .pressed⟩ now ∧
        (lockStep.exec screen typing).locked = some l ∧ file.verify l.attempt :=
  ⟨by decide, by decide,
    (lock_opens_to_passphrase chord none file (.new (some (secs 300)) 0) .never typing).1 (press keysymReturn)
      (by decide) (by decide)⟩

open LockSample in
/-- At a raised lock an agent's click does get to the hook behind it; and the human's press that wakes the
panel is not typed, though the lock is up and the key is printable. -/
theorem locked_passes_principals_and_drops_wakes :
    ((lockStep.exec screen typing).isLocked ∧ isPairingRelease click = false ∧
        ((lockGate (secs 2) recorder).gate (lockStep.exec screen typing, []) click).1.2 = [click]) ∧
      ((lockStep.exec screen (darkPress.take 2)).isLocked ∧ typeChar [] 0x61 = ['a'] ∧
        (lockStep.exec screen darkPress).locked = some ⟨.chord, []⟩) := by
  decide

end Vitrin
