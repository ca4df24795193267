import Vitrin.Core.Attention
import Vitrin.Lib.Machine

/-!
# Where the clipboard's text came from

Text leaves a realm only by the human's hand. A promote gesture makes the core ask the
realm the human is looking at for its selection; the answer comes later, over the shim's
connection, and fills the session's one slot; a paste gesture offers the slot to the realm
the human is looking at by then. A shim may answer anything, at any time, twice or
unasked.

`ClipboardSlot` has the source's operations. `drainClipboardGestures` is what a turn of
input does with the gestures it completed, and `applySelectionAnswer` what a shim's answer
comes to. `clipboardStep` has these, the sweep that lets the slot expire, the death of a
realm and the dead-man switch.

The gestures are labels, with what the session finds for them: the realm the human's input
goes to, whether that realm has a shim, and whether a message could be sent to it. The
journal's records are the notes of a step; a note of a fill carries the serial.

`Sourced` says where what is held and what is asked for come from, in terms of the acts so
far. `clipboard_provenance` follows.
-/

namespace Vitrin

open Lib

/-! ### The slot -/

def clipboardMime : String := "text/plain;charset=utf-8"

def maxClipboardBytes : Nat := 61440

def clipboardLifetime : Duration := secs 120

inductive ClipboardGesture where
  | promote
  | offer
  deriving DecidableEq

def ClipboardGesture.label : ClipboardGesture → String
  | .promote => "promote"
  | .offer => "offer"

/-- Leave to fill the slot once. -/
structure PendingPromotion where
  realm : RealmId

structure Offered where
  mime : String
  data : String
  source : RealmId

/-- Why an answer did not reach the slot. -/
inductive FillRefused where
  | empty
  | wrongType
  | tooLarge
  deriving DecidableEq

def FillRefused.label : FillRefused → String
  | .empty => "empty"
  | .wrongType => "wrong_type"
  | .tooLarge => "too_large"

/-- What a shim says of its own answer. -/
inductive SelectionStatus where
  | ok
  | empty
  | wrongType
  | tooLarge
  deriving DecidableEq

structure SelectionAnswer where
  serial : UInt32
  status : SelectionStatus
  mime : String
  data : String

namespace ClipboardSlot

variable (c : ClipboardSlot)

/-- Ask a realm; an earlier question is superseded. -/
def openPromotion (realm : RealmId) : ClipboardSlot × UInt32 :=
  ({ c with nextSerial := c.nextSerial + 1, outstanding := some ⟨c.nextSerial, realm⟩ }, c.nextSerial)

def claimAnswer (realm : RealmId) (serial : UInt32) : ClipboardSlot × Option PendingPromotion :=
  match c.outstanding with
  | none => (c, none)
  | some outstanding =>
    if outstanding.serial ≠ serial ∨ outstanding.realm ≠ realm then (c, none)
    else ({ c with outstanding := none }, some ⟨outstanding.realm⟩)

/-- Fill the slot from a claimed answer; the number of bytes promoted. -/
def fill (ticket : PendingPromotion) (mime data : String) (now : Instant) : ClipboardSlot × Except FillRefused Nat :=
  if mime ≠ clipboardMime then (c, .error .wrongType)
  else if maxClipboardBytes < data.utf8ByteSize then (c, .error .tooLarge)
  else if data.isEmpty then (c, .error .empty)
  else ({ c with held := some ⟨ticket.realm, data, now⟩ }, .ok data.utf8ByteSize)

def abandonPromotion : ClipboardSlot := { c with outstanding := none }

def peek (now : Instant) : Option Offered :=
  match c.held with
  | none => none
  | some held =>
    if clipboardLifetime ≤ now - held.filledAt then none else some ⟨clipboardMime, held.content, held.source⟩

/-- Drop what is too old; whether it was. -/
def expire (now : Instant) : ClipboardSlot × Bool :=
  let stale := c.held.any fun held => clipboardLifetime ≤ now - held.filledAt
  (if stale then { c with held := none } else c, stale)

end ClipboardSlot

/-! ### Turns -/

/-- What is written to the journal, and the question a shim is asked. -/
inductive ClipboardNote where
  | requested (realm : RealmId) (serial : UInt32)
  | refused (realm : Option RealmId) (gesture : String) (reason : String)
  | offered (realm source : RealmId) (mime data : String)
  | promoted (realm : RealmId) (serial : UInt32) (mime : String) (bytes : Nat)
  deriving DecidableEq

/-- What the session has for the realm a gesture is about. -/
inductive ShimReach where
  | noRealm
  | noShim
  | shim
  deriving DecidableEq

/-- A gesture, and whether the message it leads to can be sent. -/
structure ClipboardAct where
  gesture : ClipboardGesture
  sent : Bool

/-- One gesture about a realm that has a shim. -/
def servePromoteOrOffer (realm : RealmId) (now : Instant) (c : ClipboardSlot) (act : ClipboardAct) :
    ClipboardSlot × List ClipboardNote :=
  let refuse (reason : String) : List ClipboardNote := [.refused (some realm) act.gesture.label reason]
  match act.gesture with
  | .promote =>
    let asked := c.openPromotion realm
    if act.sent then (asked.1, [.requested realm asked.2]) else (asked.1.abandonPromotion, refuse "send_failed")
  | .offer => match c.peek now with
    | none => (c, refuse "empty_slot")
    | some offered =>
      if act.sent then (c, [.offered realm offered.source offered.mime offered.data]) else (c, refuse "send_failed")

def gestureStep (target : Option RealmId) (reach : ShimReach) (now : Instant) :
    Machine ClipboardSlot ClipboardAct (List ClipboardNote) := fun c act =>
  match target, reach with
  | none, _ => (c, [.refused none act.gesture.label "no_bound_realm"])
  | some realm, .noRealm => (c, [.refused (some realm) act.gesture.label "no_realm"])
  | some realm, .noShim => (c, [.refused (some realm) act.gesture.label "no_shim"])
  | some realm, .shim => servePromoteOrOffer realm now c act

def drainClipboardGestures (c : ClipboardSlot) (gestures : List ClipboardAct) (target : Option RealmId)
    (reach : ShimReach) (now : Instant) : ClipboardSlot × List ClipboardNote :=
  if gestures = [] then (c, [])
  else
    let step := gestureStep target reach now
    (step.exec (c.expire now).1 gestures, (step.outs (c.expire now).1 gestures).flatten)

def SelectionStatus.refused : SelectionStatus → Option String
  | .ok => none
  | .empty => some "empty"
  | .wrongType => some "wrong_type"
  | .tooLarge => some "too_large"

/-- A shim's answer. Without a ticket it is discarded; its own word can refuse it, and so can the core. -/
def applySelectionAnswer (c : ClipboardSlot) (realm : RealmId) (answer : SelectionAnswer) (now : Instant) :
    ClipboardSlot × List ClipboardNote :=
  match c.claimAnswer realm answer.serial with
  | (c, none) => (c, [])
  | (c, some ticket) =>
    let refuse (reason : String) : List ClipboardNote :=
      [.refused (some realm) ClipboardGesture.promote.label reason]
    match answer.status.refused with
    | some reason => (c, refuse reason)
    | none => match c.fill ticket answer.mime answer.data now with
      | (c, .ok bytes) => (c, [.promoted realm answer.serial clipboardMime bytes])
      | (c, .error refusal) => (c, refuse refusal.label)

/-- What happens to the slot. -/
inductive ClipboardOp where
  | gestures (acts : List ClipboardAct) (target : Option RealmId) (reach : ShimReach) (now : Instant)
  | answer (realm : RealmId) (answer : SelectionAnswer) (now : Instant)
  | sweep (now : Instant)
  | death (realm : RealmId)
  | deadMan

def clipboardStep : Machine ClipboardSlot ClipboardOp (List ClipboardNote)
  | c, .gestures acts target reach now => drainClipboardGestures c acts target reach now
  | c, .answer realm answer now => applySelectionAnswer c realm answer now
  | c, .sweep now => ((c.expire now).1, [])
  | c, .death realm => ((c.forgetRealm realm).1, [])
  | c, .deadMan => (c.clear.1, [])

/-! ### Promotions -/

/-- The realms the promote gestures of an act ask. -/
def ClipboardOp.promotions : ClipboardOp → List RealmId
  | .gestures acts (some realm) .shim _ => (acts.filter (·.gesture = .promote)).map fun _ => realm
  | _ => []

/-- The realms asked so far, in order: the first under serial 0, and so on. -/
def promotions (ops : List ClipboardOp) : List RealmId := ops.flatMap ClipboardOp.promotions

variable {ops : List ClipboardOp}

theorem promotions_append {o' : List ClipboardOp} : promotions (ops ++ o') = promotions ops ++ promotions o' :=
  List.flatMap_append

theorem promotions_concat {op : ClipboardOp} : promotions (ops ++ [op]) = promotions ops ++ op.promotions := by
  rw [promotions_append, promotions, promotions, List.flatMap_singleton]

/-- Nothing after the fill took the text away. -/
def ClipboardOp.Keeps (source : RealmId) (op : ClipboardOp) : Prop := op ≠ .death source ∧ op ≠ .deadMan

/-- The realm was asked last, and since then neither died nor met the dead-man switch. -/
def Asked (past : List ClipboardOp) (realm : RealmId) : Prop :=
  ∃ early promote since, past = early ++ promote :: since ∧ promote.promotions.getLast? = some realm ∧
    ∀ op ∈ since, op.promotions = [] ∧ op.Keeps realm

theorem Asked.getLast {past : List ClipboardOp} {r : RealmId} (h : Asked past r) :
    (promotions past).getLast? = some r := by
  obtain ⟨early, promote, since, rfl, hl, hs⟩ := h
  have hn : since.flatMap ClipboardOp.promotions = [] := List.flatMap_eq_nil_iff.mpr fun op hm => (hs op hm).1
  rw [promotions, List.flatMap_append, List.flatMap_cons, hn, List.append_nil, List.getLast?_append, hl]
  rfl

theorem Asked.concat {past : List ClipboardOp} {r : RealmId} {op : ClipboardOp} (h : Asked past r)
    (hp : op.promotions = []) (hk : op.Keeps r) : Asked (past ++ [op]) r := by
  obtain ⟨early, promote, since, rfl, hl, hs⟩ := h
  refine ⟨early, promote, since ++ [op], by simp, hl, fun o ho => ?_⟩
  rcases List.mem_append.mp ho with ho | ho
  · exact hs o ho
  · exact List.mem_singleton.mp ho ▸ ⟨hp, hk⟩

/-- The text held since `now` was the answer of the realm asked last, under its serial (mod 2³²). -/
structure AnsweredFor (before : List ClipboardOp) (held : Held) (answer : SelectionAnswer) : Prop where
  asked : Asked before held.source
  serial : (answer.serial + 1).toNat = (promotions before).length % 2 ^ 32
  status : answer.status = .ok
  mime : answer.mime = clipboardMime
  data : answer.data = held.content
  size : held.content.utf8ByteSize ≤ maxClipboardBytes

structure Sourced (past : List ClipboardOp) (c : ClipboardSlot) : Prop where
  serial : c.nextSerial.toNat = (promotions past).length % 2 ^ 32
  outstanding : ∀ o, c.outstanding = some o → Asked past o.realm ∧ c.nextSerial = o.serial + 1
  held : ∀ held, c.held = some held → ∃ before answer between,
    past = before ++ .answer held.source answer held.filledAt :: between ∧ AnsweredFor before held answer ∧
      ∀ op ∈ between, op.Keeps held.source

/-! ### What each act does -/

variable {now : Instant} {held : Held}

namespace ClipboardSlot

variable (c : ClipboardSlot)

theorem expire_eq (now : Instant) :
    (c.expire now).1.nextSerial = c.nextSerial ∧ (c.expire now).1.outstanding = c.outstanding ∧
      ((c.expire now).1.held = c.held ∨ (c.expire now).1.held = none) := by
  unfold expire
  dsimp only
  split_ifs
  · exact ⟨rfl, rfl, .inr rfl⟩
  · exact ⟨rfl, rfl, .inl rfl⟩

theorem peek_eq_some {o : Offered} (h : c.peek now = some o) :
    ∃ held, c.held = some held ∧ now - held.filledAt < clipboardLifetime ∧
      o = ⟨clipboardMime, held.content, held.source⟩ := by
  unfold peek at h
  cases hh : c.held with
  | none => simp [hh] at h
  | some held =>
    rw [hh] at h
    dsimp only at h
    split_ifs at h with hs
    exact ⟨held, rfl, not_le.mp hs, (Option.some.inj h).symm⟩

theorem forgetRealm_held {r : RealmId} (h : (c.forgetRealm r).1.held = some held) :
    c.held = some held ∧ held.source ≠ r := by
  simp only [forgetRealm] at h
  split_ifs at h with hc
  refine ⟨h, fun hs => hc ?_⟩
  rw [h, Option.any_some, decide_eq_true_iff]
  exact hs

theorem forgetRealm_outstanding {r : RealmId} {o : Outstanding}
    (h : (c.forgetRealm r).1.outstanding = some o) : c.outstanding = some o ∧ o.realm ≠ r := by
  simp only [forgetRealm] at h
  split_ifs at h with hc
  refine ⟨h, fun hr => hc ?_⟩
  rw [h, Option.any_some, decide_eq_true_iff]
  exact hr

/-- A claim succeeds for the realm that was asked, under the serial it was asked under. -/
theorem claimAnswer_cases (r : RealmId) (serial : UInt32) : c.claimAnswer r serial = (c, none) ∨
    c.outstanding = some ⟨serial, r⟩ ∧
      c.claimAnswer r serial = ({ c with outstanding := none }, some ⟨r⟩) := by
  unfold claimAnswer
  cases hou : c.outstanding with
  | none => exact .inl rfl
  | some o =>
    dsimp only
    split_ifs with hot
    · exact .inl rfl
    · obtain ⟨hs, hr⟩ := not_or.mp hot
      obtain ⟨s', r'⟩ := o
      obtain rfl : s' = serial := not_not.mp hs
      obtain rfl : r' = r := not_not.mp hr
      exact .inr ⟨rfl, rfl⟩

theorem fill_cases (t : PendingPromotion) (m d : String) (now : Instant) : (∃ r, c.fill t m d now = (c, .error r)) ∨
    m = clipboardMime ∧ d.utf8ByteSize ≤ maxClipboardBytes ∧
      c.fill t m d now = ({ c with held := some ⟨t.realm, d, now⟩ }, .ok d.utf8ByteSize) := by
  unfold fill
  split_ifs with hm hs he
  iterate 3 exact .inl ⟨_, rfl⟩
  · exact .inr ⟨not_not.mp hm, not_lt.mp hs, rfl⟩

end ClipboardSlot

def AwaitsAnswer (c : ClipboardSlot) (realm : RealmId) (answer : SelectionAnswer) : Prop :=
  c.outstanding = some ⟨answer.serial, realm⟩

/-- The answer is good: the realm's word and the core's checks agree. -/
structure SelectionAnswer.Good (answer : SelectionAnswer) : Prop where
  status : answer.status = .ok
  mime : answer.mime = clipboardMime
  size : answer.data.utf8ByteSize ≤ maxClipboardBytes

/-- What an answer comes to: it is stale and nothing happens, it is refused and the question is settled, or it fills
the slot. -/
theorem applySelectionAnswer_cases (c : ClipboardSlot) (r : RealmId) (a : SelectionAnswer) (now : Instant) :
    applySelectionAnswer c r a now = (c, []) ∨
    AwaitsAnswer c r a ∧ ((∃ re, applySelectionAnswer c r a now =
          ({ c with outstanding := none }, [.refused (some r) "promote" re])) ∨
        a.Good ∧ applySelectionAnswer c r a now =
          ({ c with outstanding := none, held := some ⟨r, a.data, now⟩ },
            [.promoted r a.serial clipboardMime a.data.utf8ByteSize])) := by
  unfold applySelectionAnswer
  obtain hst | ⟨ha, hc⟩ := c.claimAnswer_cases r a.serial
  · rw [hst]
    exact .inl rfl
  · rw [hc]
    refine .inr ⟨ha, ?_⟩
    cases hsta : a.status with
    | empty | wrongType | tooLarge => exact .inl ⟨_, rfl⟩
    | ok =>
      simp only
      obtain ⟨ref, hf⟩ | ⟨hm, hs, hf⟩ :=
        ({ c with outstanding := none } : ClipboardSlot).fill_cases ⟨r⟩ a.mime a.data now
      · rw [hf]
        exact .inl ⟨_, rfl⟩
      · rw [hf]
        exact .inr ⟨⟨hsta, hm, hs⟩, rfl⟩

theorem servePromoteOrOffer_spec (r : RealmId) (now : Instant) (c : ClipboardSlot) (a : ClipboardAct) :
    let x := servePromoteOrOffer r now c a
    x.1.held = c.held ∧
    (a.gesture = .promote ∧ x.1.nextSerial = c.nextSerial + 1 ∧
        (x.1.outstanding = none ∨ x.1.outstanding = some ⟨c.nextSerial, r⟩) ∨
      a.gesture = .offer ∧ x.1 = c) := by
  obtain ⟨g, s⟩ := a
  cases g with
  | promote =>
    cases s with
    | true => exact ⟨rfl, .inl ⟨rfl, rfl, .inr rfl⟩⟩
    | false => exact ⟨rfl, .inl ⟨rfl, rfl, .inl rfl⟩⟩
  | offer =>
    have hs : (servePromoteOrOffer r now c ⟨.offer, s⟩).1 = c := by
      unfold servePromoteOrOffer
      dsimp only
      split
      · rfl
      · split_ifs <;> rfl
    exact ⟨congrArg ClipboardSlot.held hs, .inr ⟨rfl, hs⟩⟩

/-- What a turn's gestures do to the slot: `n` promotions of `realm` were opened. -/
structure Promotes (realm : RealmId) (n : Nat) (c c' : ClipboardSlot) : Prop where
  held : c'.held = c.held
  serial : c'.nextSerial = c.nextSerial + UInt32.ofNat n
  outstanding : ∀ o, c'.outstanding = some o →
    n = 0 ∧ c.outstanding = some o ∨ 0 < n ∧ o.realm = realm ∧ c'.nextSerial = o.serial + 1

theorem promotes_exec (r : RealmId) (now : Instant) (c : ClipboardSlot) (acts : List ClipboardAct) :
    Promotes r (acts.filter (·.gesture = .promote)).length c
      ((gestureStep (some r) .shim now).exec c acts) := by
  induction acts using List.reverseRecOn with
  | nil => exact ⟨rfl, by simp, fun o ho => .inl ⟨rfl, ho⟩⟩
  | append_singleton acts a ih =>
    rw [Machine.exec_concat]
    generalize (gestureStep (some r) .shim now).exec c acts = mid at ih ⊢
    obtain ⟨hh, ⟨hg, hs, hou⟩ | ⟨hg, hsa⟩⟩ := servePromoteOrOffer_spec r now mid a
    · refine ⟨hh.trans ih.held, ?_, fun o ho => .inr ⟨by simp [hg], ?_⟩⟩
      · refine hs.trans ?_
        simp [ih.serial, hg, UInt32.add_assoc]
      · -- The last promote gesture asks under the serial before the next.
        rcases hou with hn | hso
        · cases ho.symm.trans hn
        · cases Option.some.inj (ho.symm.trans hso)
          exact ⟨rfl, hs⟩
    · have hl : ((acts ++ [a]).filter (·.gesture = .promote)).length =
          (acts.filter (·.gesture = .promote)).length := by simp [hg]
      have hst : (gestureStep (some r) .shim now mid a).1 = mid := hsa
      rw [hl, hst]
      exact ih

variable {reach : ShimReach} {t : Option RealmId}

theorem exec_unreached (h : t = none ∨ reach ≠ .shim) (now : Instant) (c : ClipboardSlot)
    (acts : List ClipboardAct) : (gestureStep t reach now).exec c acts = c := by
  refine (gestureStep t reach now).exec_inv (P := fun c' => c' = c) (fun c' a hc => ?_) rfl acts
  cases t with
  | none => exact hc
  | some r =>
    cases reach with
    | noRealm | noShim => exact hc
    | shim => exact absurd rfl (h.resolve_left (by simp))

/-- What a whole turn of gestures does: the slot may expire, then the promotions are opened. -/
theorem drainClipboardGestures_promotes (c : ClipboardSlot) (acts : List ClipboardAct) (t : Option RealmId)
    (reach : ShimReach) (now : Instant) :
    ∃ r n c', (ClipboardOp.gestures acts t reach now).promotions = List.replicate n r ∧
      Promotes r n c' (drainClipboardGestures c acts t reach now).1 ∧
      c'.nextSerial = c.nextSerial ∧ c'.outstanding = c.outstanding ∧ (c'.held = c.held ∨ c'.held = none) := by
  have hi (c : ClipboardSlot) (r : RealmId) : Promotes r 0 c c := ⟨rfl, by simp, fun o ho => .inl ⟨rfl, ho⟩⟩
  have he := c.expire_eq now
  unfold drainClipboardGestures
  split_ifs with hn
  · subst hn
    refine ⟨⟨""⟩, 0, c, ?_, hi c _, rfl, rfl, .inl rfl⟩
    cases t with
    | none => rfl
    | some r => cases reach <;> rfl
  · by_cases hr : t = none ∨ reach ≠ .shim
    · refine ⟨⟨""⟩, 0, (c.expire now).1, ?_, ?_, he⟩
      · rcases hr with rfl | hr
        · rfl
        · cases t with
          | none => rfl
          | some r => cases reach <;> first | rfl | exact absurd rfl hr
      · dsimp only
        rw [exec_unreached hr]
        exact hi _ _
    · obtain ⟨hso, hs⟩ := not_or.mp hr
      obtain ⟨r, rfl⟩ := Option.ne_none_iff_exists'.mp hso
      obtain rfl := not_not.mp hs
      exact ⟨r, _, (c.expire now).1, List.map_const' .., promotes_exec r now _ acts, he⟩

/-! ### Runs -/

theorem sourced_new : Sourced [] .new where
  serial := rfl
  outstanding _ h := by cases h
  held _ h := by cases h

variable {past : List ClipboardOp} {c : ClipboardSlot} {op : ClipboardOp}

section

variable (h : Sourced past c)

include h

theorem Sourced.held_concat (hh : c.held = some held) (hop : op.Keeps held.source) :
    ∃ be a b, past ++ [op] = be ++ .answer held.source a held.filledAt :: b ∧
      AnsweredFor be held a ∧ ∀ op ∈ b, op.Keeps held.source := by
  obtain ⟨be, a, b, rfl, ha, hb⟩ := h.held held hh
  refine ⟨be, a, b ++ [op], by simp, ha, fun o' hm => ?_⟩
  rcases List.mem_append.mp hm with hm | hm
  · exact hb o' hm
  · exact List.mem_singleton.mp hm ▸ hop

/-- An act that asks nothing, and at most drops what is held or asked for. -/
theorem Sourced.lessen {c' : ClipboardSlot} (hp : op.promotions = [])
    (hs : c'.nextSerial = c.nextSerial)
    (hou : ∀ o, c'.outstanding = some o → c.outstanding = some o ∧ op.Keeps o.realm)
    (hhe : ∀ held, c'.held = some held → c.held = some held ∧ op.Keeps held.source) : Sourced (past ++ [op]) c' := by
  have he : promotions (past ++ [op]) = promotions past := by rw [promotions_concat, hp, List.append_nil]
  refine ⟨?_, fun o ho => ?_, fun held hh => h.held_concat (hhe held hh).1 (hhe held hh).2⟩
  · rw [he, hs]
    exact h.serial
  · rw [hs]
    obtain ⟨ho, hk⟩ := hou o ho
    exact (h.outstanding o ho).imp_left fun ha => ha.concat hp hk

theorem Sourced.expire (now : Instant) : Sourced (past ++ [.sweep now]) (c.expire now).1 := by
  obtain ⟨hse, hou, hhe⟩ := c.expire_eq now
  refine h.lessen rfl hse (fun o ho => ⟨hou ▸ ho, by simp, by simp⟩) fun held hh => ⟨?_, by simp, by simp⟩
  rcases hhe with hs | hn
  · exact hs ▸ hh
  · cases hh.symm.trans hn

/-- An answer that fills the slot is that of the realm asked last. -/
theorem Sourced.answer (r : RealmId) (a : SelectionAnswer) (now : Instant) :
    Sourced (past ++ [.answer r a now]) (applySelectionAnswer c r a now).1 := by
  have hk (s : RealmId) : (ClipboardOp.answer r a now).Keeps s := ⟨by simp, by simp⟩
  obtain hst | ⟨ha, ⟨re, hr⟩ | ⟨hg, hf⟩⟩ := applySelectionAnswer_cases c r a now
  · rw [hst]
    exact h.lessen rfl rfl (fun _ ho => ⟨ho, hk _⟩) fun held hh => ⟨hh, hk _⟩
  · rw [hr]
    exact h.lessen rfl rfl (fun _ ho => by cases ho) fun held hh => ⟨hh, hk _⟩
  · rw [hf]
    have he : promotions (past ++ [.answer r a now]) = promotions past := by
      rw [promotions_concat]
      exact List.append_nil _
    obtain ⟨hl, hs⟩ := h.outstanding _ ha
    refine ⟨?_, fun o ho => (nomatch ho), fun held hh => ?_⟩
    · rw [he]
      exact h.serial
    cases hh
    refine ⟨past, a, [], rfl, ⟨hl, ?_, hg.status, hg.mime, rfl, hg.size⟩, by simp⟩
    have hn : c.nextSerial = a.serial + 1 := hs
    rw [← hn]
    exact h.serial

theorem Sourced.gestures (acts : List ClipboardAct) (t : Option RealmId) (reach : ShimReach)
    (now : Instant) : Sourced (past ++ [.gestures acts t reach now]) (drainClipboardGestures c acts t reach now).1 := by
  obtain ⟨r, n, c', hpr, hp, hse, hou, hhe⟩ := drainClipboardGestures_promotes c acts t reach now
  have he : promotions (past ++ [.gestures acts t reach now]) = promotions past ++ List.replicate n r := by
    rw [promotions_concat, hpr]
  refine ⟨?_, fun o ho => ?_, fun held hh => ?_⟩
  · rw [he, hp.serial, hse, UInt32.toNat_add, h.serial, List.length_append, List.length_replicate,
      UInt32.toNat_ofNat']
    omega
  · rcases hp.outstanding o ho with ⟨rfl, hs⟩ | ⟨hpo, hr, hn⟩
    · rw [hou] at hs
      have hs' := hp.serial
      rw [hse] at hs'
      obtain ⟨hl, hn⟩ := h.outstanding o hs
      exact ⟨hl.concat hpr ⟨by simp, by simp⟩, hs'.trans (by simpa using hn)⟩
    · obtain ⟨m, rfl⟩ := Nat.exists_eq_succ_of_ne_zero hpo.ne'
      refine ⟨⟨past, _, [], rfl, ?_, by simp⟩, hn⟩
      rw [hpr, List.replicate_succ', List.getLast?_concat, hr]
  · have hk : c.held = some held := by
      rw [hp.held] at hh
      rcases hhe with hs | hno
      · exact hs ▸ hh
      · cases hh.symm.trans hno
    exact h.held_concat hk ⟨by simp, by simp⟩

end

theorem sourced (ops : List ClipboardOp) : Sourced ops (clipboardStep.exec .new ops) := by
  refine clipboardStep.exec_past sourced_new (fun past op h => ?_) ops
  cases op with
  | gestures acts t reach now => exact h.gestures acts t reach now
  | answer r a now => exact h.answer r a now
  | sweep now => exact h.expire now
  | death r =>
    refine h.lessen rfl rfl (fun o ho => ?_) fun held hh => ?_
    · obtain ⟨ho, hr⟩ := ClipboardSlot.forgetRealm_outstanding _ ho
      exact ⟨ho, fun e => hr (ClipboardOp.death.inj e).symm, by simp⟩
    obtain ⟨hhe, hs⟩ := ClipboardSlot.forgetRealm_held _ hh
    exact ⟨hhe, fun e => hs (ClipboardOp.death.inj e).symm, by simp⟩
  | deadMan => exact h.lessen rfl rfl (fun o ho => by cases ho) fun held hh => by cases hh

/-! ### Serials -/

variable {serial : UInt32}

theorem succ_serial {n : Nat} (h : (serial + 1).toNat = n % 2 ^ 32) (hp : 0 < n) (hf : n < 2 ^ 32) :
    serial.toNat + 1 = n := by
  rw [UInt32.toNat_add, UInt32.toNat_one] at h
  have hl := serial.toNat_lt
  omega

theorem length_pos_of_getLast? {l : List RealmId} {r : RealmId} (h : l.getLast? = some r) : 0 < l.length :=
  List.length_pos_of_mem (List.mem_of_getLast? h)

theorem Sourced.latest (h : Sourced past c) (hf : (promotions past).length < 2 ^ 32) {o : Outstanding}
    (ho : c.outstanding = some o) : o.serial.toNat + 1 = (promotions past).length := by
  obtain ⟨hl, hn⟩ := h.outstanding o ho
  exact succ_serial (hn ▸ h.serial) (length_pos_of_getLast? hl.getLast) hf

def ClipboardNote.fills (serial : UInt32) : ClipboardNote → Bool
  | .promoted _ serial' _ _ => serial' = serial
  | _ => false

/-- How often a run fills the slot under a serial. -/
def fills (serial : UInt32) (ops : List ClipboardOp) : Nat :=
  (clipboardStep.outs .new ops).flatten.countP (ClipboardNote.fills serial)

theorem fills_concat : fills serial (ops ++ [op]) =
      fills serial ops + (clipboardStep (clipboardStep.exec .new ops) op).2.countP (ClipboardNote.fills serial) := by
  rw [fills, Machine.outs_append, List.flatten_append, List.countP_append]
  simp [fills]

variable {acts : List ClipboardAct} {note : ClipboardNote}

theorem mem_drainClipboardGestures (h : note ∈ (drainClipboardGestures c acts t reach now).2) :
    ∃ past a r, acts = past ++ a :: r ∧
      note ∈ (gestureStep t reach now ((gestureStep t reach now).exec (c.expire now).1 past) a).2 := by
  unfold drainClipboardGestures at h
  split_ifs at h
  · cases h
  · obtain ⟨n, hn, hm⟩ := List.mem_flatten.mp h
    obtain ⟨past, a, r, ha, rfl⟩ := Machine.mem_outs.mp hn
    exact ⟨past, a, r, ha, hm⟩

theorem gestureStep_notes {a : ClipboardAct} (h : note ∈ (gestureStep t reach now c a).2) :
    (∃ r g re, note = .refused r g re) ∨
    ∃ r, t = some r ∧ reach = .shim ∧ (a = ⟨.promote, true⟩ ∧ note = .requested r c.nextSerial ∨
        a = ⟨.offer, true⟩ ∧ ∃ held, c.held = some held ∧ now - held.filledAt < clipboardLifetime ∧
          note = .offered r held.source clipboardMime held.content) := by
  obtain ⟨g, s⟩ := a
  cases t with
  | none => exact .inl ⟨_, _, _, List.mem_singleton.mp h⟩
  | some r =>
    cases reach with
    | noRealm | noShim => exact .inl ⟨_, _, _, List.mem_singleton.mp h⟩
    | shim =>
      cases g with
      | promote =>
        cases s with
        | false => exact .inl ⟨_, _, _, List.mem_singleton.mp h⟩
        | true => exact .inr ⟨r, rfl, rfl, .inl ⟨rfl, List.mem_singleton.mp h⟩⟩
      | offer =>
        simp only [gestureStep, servePromoteOrOffer] at h
        cases hp : c.peek now with
        | none =>
          rw [hp] at h
          exact .inl ⟨_, _, _, List.mem_singleton.mp h⟩
        | some o =>
          rw [hp] at h
          cases s with
          | false => exact .inl ⟨_, _, _, List.mem_singleton.mp h⟩
          | true =>
            obtain ⟨held, hh, hy, rfl⟩ := c.peek_eq_some hp
            exact .inr ⟨r, rfl, rfl, .inr ⟨rfl, held, hh, hy, List.mem_singleton.mp h⟩⟩

/-- A serial has filled the slot at most once, and not at all while its answer is waited for or before it is asked
under. -/
def FilledOnce (past : List ClipboardOp) (c : ClipboardSlot) : Prop :=
  ∀ serial, fills serial past ≤ 1 ∧ (0 < fills serial past →
    serial.toNat < (promotions past).length ∧ ∀ o, c.outstanding = some o → o.serial ≠ serial)

/-- An act that fills nothing and opens no promotion under an earlier serial. -/
theorem FilledOnce.concat (h : FilledOnce past (clipboardStep.exec .new past))
    (hn : ∀ serial, (clipboardStep (clipboardStep.exec .new past) op).2.countP (ClipboardNote.fills serial) = 0)
    (hou : ∀ o, (clipboardStep (clipboardStep.exec .new past) op).1.outstanding = some o →
      (clipboardStep.exec .new past).outstanding = some o ∨ (promotions past).length ≤ o.serial.toNat) :
    FilledOnce (past ++ [op]) (clipboardStep (clipboardStep.exec .new past) op).1 := by
  intro serial
  obtain ⟨hon, hsp⟩ := h serial
  rw [fills_concat, hn, Nat.add_zero]
  refine ⟨hon, fun hp => ?_⟩
  obtain ⟨hlt, hot⟩ := hsp hp
  refine ⟨?_, fun o ho => ?_⟩
  · rw [promotions_concat, List.length_append]
    omega
  · rcases hou o ho with hs | hl
    · exact hot o hs
    · rintro rfl
      exact absurd hlt (not_lt.mpr hl)

theorem filledOnce (ops : List ClipboardOp) (hf : (promotions ops).length < 2 ^ 32) :
    FilledOnce ops (clipboardStep.exec .new ops) := by
  induction ops using List.reverseRecOn with
  | nil => exact fun serial => ⟨Nat.zero_le _, fun h => absurd h (lt_irrefl 0)⟩
  | append_singleton past op ih =>
    have hp : (promotions past).length < 2 ^ 32 := by
      rw [promotions_concat, List.length_append] at hf
      omega
    have ih := ih hp
    have hso := sourced past
    have hs' := sourced (past ++ [op])
    rw [Machine.exec_concat] at hs' ⊢
    cases op with
    | gestures acts t reach now =>
      refine ih.concat (fun serial => ?_) fun o ho => ?_
      · refine List.countP_eq_zero.mpr fun note hno => ?_
        obtain ⟨b, ac, res, -, hm⟩ := mem_drainClipboardGestures hno
        obtain ⟨_, _, _, rfl⟩ | ⟨r, -, -, ⟨-, rfl⟩ | ⟨-, held, -, -, rfl⟩⟩ := gestureStep_notes hm <;>
          simp [ClipboardNote.fills]
      · obtain ⟨r, n, c', hpro, hpr, -, hou, -⟩ :=
          drainClipboardGestures_promotes (clipboardStep.exec .new past) acts t reach now
        rcases hpr.outstanding o ho with ⟨-, hsa⟩ | ⟨hpo, -, -⟩
        · exact .inl (hou ▸ hsa)
        · -- A promotion opened in this turn has a serial that no earlier one had.
          have hl := hs'.latest hf ho
          rw [promotions_concat, hpro, List.length_append, List.length_replicate] at hl
          omega
    | answer r a now =>
      obtain hst | ⟨ha, ⟨re, hr⟩ | ⟨hg, hfi⟩⟩ := applySelectionAnswer_cases (clipboardStep.exec .new past) r a now
      · refine ih.concat (fun serial => ?_) fun o ho => .inl ?_
        · simp [clipboardStep, hst]
        · simpa only [clipboardStep, hst] using ho
      · refine ih.concat (fun serial => ?_) fun o ho => ?_
        · simp [clipboardStep, hr, ClipboardNote.fills]
        · simp [clipboardStep, hr] at ho
      · -- The serial that fills the slot was waited for, so it had not filled it; nothing is waited for afterwards.
        intro serial
        obtain ⟨hon, hs⟩ := ih serial
        have hl : a.serial.toNat + 1 = (promotions past).length := hso.latest hp ha
        rw [fills_concat, promotions_concat]
        simp only [clipboardStep, hfi, List.countP_singleton, ClipboardNote.fills, decide_eq_true_eq,
          ClipboardOp.promotions, List.append_nil]
        split_ifs with hse
        · subst hse
          have hz : fills a.serial past = 0 := by
            by_contra hn
            exact (hs (Nat.pos_of_ne_zero hn)).2 _ ha rfl
          exact ⟨by omega, fun _ => ⟨by omega, fun o ho => by cases ho⟩⟩
        · exact ⟨hon, fun hpo => ⟨(hs hpo).1, fun o ho => by cases ho⟩⟩
    | sweep now =>
      refine ih.concat (fun serial => rfl) fun o ho => .inl ?_
      exact (ClipboardSlot.expire_eq _ now).2.1 ▸ ho
    | death r => exact ih.concat (fun serial => rfl) fun o ho => .inl (ClipboardSlot.forgetRealm_outstanding _ ho).1
    | deadMan => exact ih.concat (fun serial => rfl) fun o ho => by cases ho

/-! ### Provenance -/

/-- Where the text that is offered came from: the human asked `source` last, `source` answered well under the serial
it was asked under, and neither its death nor the dead-man switch came between the question and the answer, or between
the answer and the offer. -/
def Provenance (past : List ClipboardOp) (source : RealmId) (data : String) (now : Instant) : Prop :=
  ∃ before answer filledAt between, past = before ++ .answer source answer filledAt :: between ∧
    (promotions before).getLast? = some source ∧ answer.serial.toNat + 1 = (promotions before).length ∧
    Asked before source ∧ answer.Good ∧ answer.data = data ∧ now - filledAt < clipboardLifetime ∧
    ∀ op ∈ between, op ≠ .death source ∧ op ≠ .deadMan

theorem Sourced.provenance (h : Sourced past c) (hf : (promotions past).length < 2 ^ 32) (hh : c.held = some held)
    (hy : now - held.filledAt < clipboardLifetime) : Provenance past held.source held.content now := by
  obtain ⟨b, a, be, rfl, ha, hbe⟩ := h.held held hh
  have hb : (promotions b).length < 2 ^ 32 := by
    rw [promotions_append, List.length_append] at hf
    omega
  have hs : a.data.utf8ByteSize ≤ maxClipboardBytes := ha.data ▸ ha.size
  have hl := ha.asked.getLast
  exact ⟨b, a, held.filledAt, be, rfl, hl, succ_serial ha.serial (length_pos_of_getLast? hl) hb, ha.asked,
    ⟨ha.status, ha.mime, hs⟩, ha.data, hy, hbe⟩

/-- The gestures of a turn leave what is held; the turn may have let it expire. -/
theorem held_exec_gestures (h : ((gestureStep t reach now).exec (c.expire now).1 acts).held = some held) :
    c.held = some held := by
  have he : ((gestureStep t reach now).exec (c.expire now).1 acts).held = (c.expire now).1.held := by
    by_cases hr : t = none ∨ reach ≠ .shim
    · rw [exec_unreached hr]
    · obtain ⟨hso, hsh⟩ := not_or.mp hr
      obtain ⟨r, rfl⟩ := Option.ne_none_iff_exists'.mp hso
      obtain rfl := not_not.mp hsh
      exact (promotes_exec r now _ acts).held
  rcases (c.expire_eq now).2.2 with hs | hn
  · rw [← hs, ← he]
    exact h
  · exact absurd (h.symm.trans (he.trans hn)) (by simp)

theorem clipboardStep_notes (h : note ∈ (clipboardStep c op).2) : (∃ r g re, note = .refused r g re) ∨
    (∃ r serial m byt, note = .promoted r serial m byt) ∨
    ∃ b ac res r now, op = .gestures (b ++ ac :: res) (some r) .shim now ∧
      let c' := (gestureStep (some r) .shim now).exec (c.expire now).1 b
      (ac = ⟨.promote, true⟩ ∧ note = .requested r c'.nextSerial ∨
        ac = ⟨.offer, true⟩ ∧ ∃ held, c'.held = some held ∧ now - held.filledAt < clipboardLifetime ∧
          note = .offered r held.source clipboardMime held.content) := by
  cases op with
  | gestures acts t reach now =>
    obtain ⟨b, ac, res, rfl, hn⟩ := mem_drainClipboardGestures h
    obtain hr | ⟨r, rfl, rfl, ha⟩ := gestureStep_notes hn
    · exact .inl hr
    · exact .inr (.inr ⟨b, ac, res, r, now, rfl, ha⟩)
  | answer r a now =>
    obtain hs | ⟨-, ⟨re, hr⟩ | ⟨-, hf⟩⟩ := applySelectionAnswer_cases c r a now
    · rw [clipboardStep, hs] at h
      cases h
    · rw [clipboardStep, hr] at h
      exact .inl ⟨_, _, _, List.mem_singleton.mp h⟩
    · rw [clipboardStep, hf] at h
      exact .inr (.inl ⟨_, _, _, _, List.mem_singleton.mp h⟩)
  | sweep | death | deadMan => cases h

/-- The question that goes to a shim bears the number of its promotion. -/
theorem Sourced.requested (h : Sourced past c) (hf : (promotions (past ++ [op])).length < 2 ^ 32) {r : RealmId}
    (hm : .requested r serial ∈ (clipboardStep c op).2) : (promotions (past ++ [op]))[serial.toNat]? = some r := by
  obtain ⟨_, _, _, hn⟩ | ⟨_, _, _, _, hn⟩ |
    ⟨b, a, re, r', now, rfl, ⟨rfl, he⟩ | ⟨-, held, -, -, hn⟩⟩ := clipboardStep_notes hm
  · cases hn
  · cases hn
  · cases he
    have hs := (promotes_exec r now (c.expire now).1 b).serial
    rw [(c.expire_eq now).1] at hs
    rw [promotions_concat] at hf ⊢
    simp only [ClipboardOp.promotions, List.filter_append, List.map_append, List.length_append, List.length_map] at hf ⊢
    have hi : ((gestureStep (some r) .shim now).exec (c.expire now).1 b).nextSerial.toNat =
        (promotions past).length + (b.filter (·.gesture = .promote)).length := by
      rw [hs, UInt32.toNat_add, h.serial, UInt32.toNat_ofNat']
      omega
    rw [hi, ← List.append_assoc, List.getElem?_append_right (by simp)]
    simp
  · cases hn

/-- Only a paste gesture offers anything: what is held, to the realm the human is looking at. -/
theorem Sourced.offered (h : Sourced past c) (hf : (promotions past).length < 2 ^ 32) {r s : RealmId}
    {m d : String} (hm : .offered r s m d ∈ (clipboardStep c op).2) :
    ∃ acts now, op = .gestures acts (some r) .shim now ∧ ⟨.offer, true⟩ ∈ acts ∧ m = clipboardMime ∧
      Provenance past s d now := by
  obtain ⟨_, _, _, hn⟩ | ⟨_, _, _, _, hn⟩ |
    ⟨b, a, re, r', now, rfl, ⟨-, hn⟩ | ⟨rfl, held, hh, hy, he⟩⟩ := clipboardStep_notes hm
  · cases hn
  · cases hn
  · cases hn
  · cases he
    exact ⟨_, now, rfl, by simp, rfl, h.provenance hf (held_exec_gestures hh) hy⟩

/-- An answer that is not waited for changes nothing, and one that does not fill the slot changes nothing of what it
holds or would offer. -/
theorem applySelectionAnswer_leaves {c : ClipboardSlot} (r : RealmId) (a : SelectionAnswer) (now : Instant) :
    let x := applySelectionAnswer c r a now
    (¬ AwaitsAnswer c r a → x = (c, [])) ∧
    ((∀ note ∈ x.2, note.fills a.serial = false) → x.1.held = c.held ∧ ∀ now, x.1.peek now = c.peek now) := by
  intro x
  obtain hs | ⟨ha, ⟨re, hr⟩ | ⟨-, hf⟩⟩ := applySelectionAnswer_cases c r a now
  · exact ⟨fun _ => hs, fun _ => by simp [x, hs]⟩
  · exact ⟨fun hn => absurd ha hn, fun _ => by simp [x, hr, ClipboardSlot.peek]⟩
  · refine ⟨fun hn => absurd ha hn, fun hno => ?_⟩
    simp [x, hf, ClipboardNote.fills] at hno

/-- **The clipboard's provenance.** In every run with fewer than 2³² promotions: what is offered to a realm by a paste
gesture is what the realm the latest promotion named answered, under that promotion's serial, of the accepted type and
size, less than the lifetime ago, with neither its death nor the dead-man switch in between. Each promotion is asked
under its own serial and fills the slot at most once. An answer that does not fill the slot leaves what it holds as it
was, and one that is not waited for leaves everything. -/
theorem clipboard_provenance (ops : List ClipboardOp) (hfew : (promotions ops).length < 2 ^ 32) :
    (∀ past op rest realm source mime data, ops = past ++ op :: rest →
      .offered realm source mime data ∈ (clipboardStep (clipboardStep.exec .new past) op).2 →
      ∃ acts now, op = .gestures acts (some realm) .shim now ∧ ⟨.offer, true⟩ ∈ acts ∧ mime = clipboardMime ∧
        Provenance past source data now) ∧
    (∀ past op rest realm serial, ops = past ++ op :: rest →
      .requested realm serial ∈ (clipboardStep (clipboardStep.exec .new past) op).2 →
      (promotions (past ++ [op]))[serial.toNat]? = some realm) ∧
    (∀ serial, fills serial ops ≤ 1) ∧
    ∀ past realm answer now, let c := clipboardStep.exec .new past
      let x := applySelectionAnswer c realm answer now
      (¬ AwaitsAnswer c realm answer → x = (c, [])) ∧
      ((∀ note ∈ x.2, note.fills answer.serial = false) → x.1.held = c.held ∧ ∀ now, x.1.peek now = c.peek now) := by
  have hb {past rest : List ClipboardOp} (he : ops = past ++ rest) : (promotions past).length < 2 ^ 32 := by
    rw [he, promotions_append, List.length_append] at hfew
    omega
  refine ⟨?_, ?_, fun serial => (filledOnce ops hfew serial).1, fun past => applySelectionAnswer_leaves⟩
  · intro past op rest realm source mime data he hm
    exact (sourced past).offered (hb he) hm
  · intro past op rest realm serial he hm
    have hs : ops = past ++ [op] ++ rest := by rw [he, List.append_assoc, List.singleton_append]
    exact (sourced past).requested (hb hs) hm

namespace Sample

/-- The human copies in the sample realm and pastes in another; its shim answers late, twice and under a wrong
serial. -/
def copiesAndPastes : List ClipboardOp :=
  [.gestures [⟨.promote, true⟩] (some realm) .shim 0, .answer realm ⟨7, .ok, clipboardMime, "forged"⟩ 1,
    .answer realm ⟨0, .ok, clipboardMime, "text"⟩ 2, .answer realm ⟨0, .ok, clipboardMime, "again"⟩ 3,
    .gestures [⟨.offer, true⟩] (some ⟨"realm-1"⟩) .shim 4]

end Sample

open Sample in
/-- What is pasted is the one answer that was waited for. -/
theorem clipboard_provenance_pasted :
    .offered ⟨"realm-1"⟩ realm clipboardMime "text" ∈ (clipboardStep.outs .new copiesAndPastes).flatten ∧
    Provenance (copiesAndPastes.take 4) realm "text" 4 := by
  obtain ⟨h, -⟩ := clipboard_provenance copiesAndPastes (by decide)
  obtain ⟨acts, now, hop, -, -, hp⟩ := h (copiesAndPastes.take 4)
    (.gestures [⟨.offer, true⟩] (some ⟨"realm-1"⟩) .shim 4) [] ⟨"realm-1"⟩ realm clipboardMime "text" rfl
    (by decide +kernel)
  cases hop
  exact ⟨by decide +kernel, hp⟩

end Vitrin
