import Vitrin.Core.EnforcementRuns

/-!
# Which refusals are voiced

A refused use that waits for an answer is always answered. One that does not wait (a
pointer event, a text, a change of layout) may be refused in silence when its principal has
been told already, so that a client that keeps trying is not flooded. After a sync the
client must still know everything: whatever was refused has been said.

`voicing` is the chokepoint of one connection over a run of uses, each in its own
environment and with its own stores, which anything may have changed in between. A failed
send is the end of the connection. A `UseReport` is what a use came to.

A use is *admitted* when the decision chain lets it through. `earlier` lists the uses of the
same handle since the last one that was admitted, with that one in front, since its
operation may still have failed and been refused.

`Explains` is the invariant of `refusals_voiced`: the mutes of a handle are what the reports
since its last admission say.
-/

namespace Vitrin

open Lib Chokepoint

/-! ### Uses and what they come to -/

/-- A use, with what it is judged against and how its sends turn out. -/
structure Use where
  req : UseRequest
  grants : GrantTable
  petitions : PetitionRegistry
  attention : AttentionSignal
  env : UseEnv
  now : Instant
  script : List (Option TransportError)

structure UseReport where
  handle : WireId
  kind : UseKind
  now : Instant
  /-- The decision chain let it through. -/
  admitted : Bool
  result : Except TransportError UseOutcome
  sent : List Event

variable {handle : WireId}

namespace UseReport

def RefusedAs (r : UseReport) (code : Refusal) : Prop := ∃ voiced, r.result = .ok (.refused code voiced)

/-- The uses of a handle since the last admitted one, with that one in front. -/
def since (handle : WireId) (reports : List UseReport) : List UseReport :=
  reports.foldl (fun acc r => if r.handle = handle then if r.admitted then [r] else acc ++ [r] else acc) []

/-- The uses of the same handle that a use finds since the last admission, its own being one. -/
def earlier (r : UseReport) (reports : List UseReport) : List UseReport :=
  if r.admitted then [] else since r.handle reports

theorem since_concat {re : List UseReport} {r : UseReport} :
    since handle (re ++ [r]) =
      if r.handle = handle then r.earlier re ++ [r] else since handle re := by
  rw [since, List.foldl_append, List.foldl_cons, List.foldl_nil]
  split_ifs with hh ha
  · rw [earlier, if_pos ha, List.nil_append]
  · rw [earlier, if_neg ha, hh]
    rfl
  · rfl

end UseReport

/-- The chokepoint of a connection, until a send fails. -/
def voicing : Machine (Option Chokepoint) Use (Option UseReport) := fun c u => match c with
  | none => (none, none)
  | some c =>
    let r := c.enforceUse u.req u.grants u.petitions u.attention u.env u.now ⟨u.script, []⟩
    (match r.result with
      | .ok _ => some r.chokepoint
      | .error _ => none,
    some
      { handle := u.req.grantWireId
        kind := u.req.kind
        now := u.now
        admitted := (c.judge u.req u.grants u.petitions u.attention u.env u.now).2.isOk
        result := r.result
        sent := r.wire.sent })

def reports (uses : List Use) : List UseReport := (voicing.outs (some .new) uses).filterMap id

/-! ### Mutes -/

/-- The mutes are what the reports say: the pairs that were refused, and until when the voiced
refusal for the rate told to wait. -/
structure Explains (earlier : List UseReport) (s : GrantUseState) : Prop where
  pairs : ∀ verb code, (verb, code) ∈ s.mutedPairs ↔ code ≠ .rateLimited ∧
    ∃ r ∈ earlier, r.kind.coalescible = true ∧ r.kind.verb = verb ∧ r.RefusedAs code
  rate : ∀ deadline, s.rateMutedUntil = some deadline → ∃ r ∈ earlier, r.kind.coalescible = true ∧
    r.result = .ok (.refused .rateLimited true) ∧
    ∃ ms, r.sent = [.refused r.handle r.kind.verb .rateLimited ms] ∧ deadline = r.now + millis ms

theorem explains_nil (b : Option Bucket) : Explains [] ⟨b, [], none⟩ := ⟨fun _ _ => by simp, fun _ h => nomatch h⟩

variable {s s' : GrantUseState} {ea : List UseReport}

theorem Explains.congr (h : Explains ea s) (hp : s'.mutedPairs = s.mutedPairs)
    (hr : s'.rateMutedUntil = s.rateMutedUntil) : Explains ea s' :=
  ⟨by rw [hp]; exact h.pairs, by rw [hr]; exact h.rate⟩

variable {r : UseReport}

theorem Explains.other (h : Explains ea s) (hr : r.kind.coalescible = true → ∀ co, ¬r.RefusedAs co) :
    Explains (ea ++ [r]) s := by
  constructor
  · intro ve co
    rw [h.pairs]
    refine and_congr_right fun _ => ⟨?_, ?_⟩
    · rintro ⟨r', hr', hre⟩
      exact ⟨r', List.mem_append_left _ hr', hre⟩
    · rintro ⟨r', hr', hc, hv, hre⟩
      rcases List.mem_append.mp hr' with hold | hn
      · exact ⟨r', hold, hc, hv, hre⟩
      · obtain rfl := List.mem_singleton.mp hn
        exact absurd hre (hr hc co)
  · intro d hd
    obtain ⟨r', hr', hra⟩ := h.rate d hd
    exact ⟨r', List.mem_append_left _ hr', hra⟩

/-! ### One refusal -/

/-- What is said of a refused use, after the earlier ones. -/
structure Voices (earlier : List UseReport) (r : UseReport) (code : Refusal) (voiced : Bool) : Prop where
  answered : r.kind.coalescible = false → voiced = true
  first : r.kind.coalescible = true → code ≠ .rateLimited → (voiced = true ↔
    ∀ r' ∈ earlier, r'.kind.coalescible = true → r'.kind.verb = r.kind.verb → ¬r'.RefusedAs code)
  /-- Of the rate limit it is told unless it was, and the time it was told to wait is not over. -/
  waits : r.kind.coalescible = true → code = .rateLimited → voiced = false →
    ∃ r' ∈ earlier, r'.kind.coalescible = true ∧ r'.result = .ok (.refused .rateLimited true) ∧
      ∃ ms, r'.sent = [.refused r'.handle r'.kind.verb .rateLimited ms] ∧ r.now < r'.now + millis ms
  /-- What is voiced is sent, with a time to wait for the rate limit only, and nothing else is. -/
  event : ∃ ms, r.sent = (if voiced then [.refused r.handle r.kind.verb code ms] else []) ∧
    (ms ≠ 0 ↔ code = .rateLimited)

def announced (refuse : Refuse) : Nat := if refuse.code = .rateLimited then max refuse.retryAfterMs 1 else 0

theorem announced_ne_zero (re : Refuse) : announced re ≠ 0 ↔ re.code = .rateLimited := by
  rw [announced]
  split_ifs with h
  · exact iff_of_true (by omega) h
  · exact iff_of_false (fun hn => hn rfl) h

section Voice

variable {c : Chokepoint} {handle : WireId} {v : Verb} {re : Refuse} {now : Instant} {w : Wire}

theorem voiceRefusal_answers : c.voiceRefusal handle v re false now w =
    (c, (w.send (.refused handle v re.code (announced re))).1,
      (w.send (.refused handle v re.code (announced re))).2.map fun _ => true) := by
  rfl

theorem voiceRefusal_tells (h : coalesce (c.stateOf handle) v re (announced re) now = (s', false)) :
    c.voiceRefusal handle v re true now w =
      (c.setState handle s', (w.send (.refused handle v re.code (announced re))).1,
        (w.send (.refused handle v re.code (announced re))).2.map fun _ => true) := by
  simp only [announced] at h ⊢
  simp [voiceRefusal, h]

theorem voiceRefusal_told (h : coalesce (c.stateOf handle) v re (announced re) now = (s', true)) :
    c.voiceRefusal handle v re true now w = (c.setState handle s', w, .ok false) := by
  simp only [announced] at h
  simp [voiceRefusal, h]

end Voice

variable {script : List (Option TransportError)}

theorem sent_of_voiced {e : Event} {v : Bool} (h : ((Wire.send ⟨script, []⟩ e).2.map fun _ => true) = .ok v) :
    v = true ∧ (Wire.send ⟨script, []⟩ e).1.sent = [e] := by
  unfold Wire.send at h ⊢
  split at h
  · exact ⟨(Except.ok.inj h).symm, rfl⟩
  · exact ⟨(Except.ok.inj h).symm, rfl⟩
  · cases h

theorem Explains.note {co : Refusal} (h : Explains ea s) (hc : r.kind.coalescible = true) (hcod : co ≠ .rateLimited)
    (hr : r.RefusedAs co) {pa : List (Verb × Refusal)} (hpa : ∀ p, p ∈ pa ↔ p ∈ s.mutedPairs ∨ p = (r.kind.verb, co)) :
    Explains (ea ++ [r]) { s with mutedPairs := pa } := by
  constructor
  · intro ve c'
    rw [hpa, h.pairs]
    constructor
    · rintro (⟨hn, r', hr', hold⟩ | hp)
      · exact ⟨hn, r', List.mem_append_left _ hr', hold⟩
      · obtain ⟨rfl, rfl⟩ := Prod.mk.inj hp
        exact ⟨hcod, r, by simp, hc, rfl, hr⟩
    · rintro ⟨hn, r', hr', hc', hv, hre'⟩
      rcases List.mem_append.mp hr' with hold | hnew
      · exact .inl ⟨hn, r', hold, hc', hv, hre'⟩
      · obtain rfl := List.mem_singleton.mp hnew
        obtain ⟨v, hvo⟩ := hr
        obtain ⟨v', hv'⟩ := hre'
        cases hvo.symm.trans hv'
        exact .inr (by rw [hv])
  · intro d hd
    obtain ⟨r', hr', hra⟩ := h.rate d hd
    exact ⟨r', List.mem_append_left _ hr', hra⟩

theorem Explains.noteRate {ra : Option Instant} (h : Explains ea s) (hre : r.RefusedAs .rateLimited)
    (hr : ∀ d, ra = some d → s.rateMutedUntil = some d ∨
      r.kind.coalescible = true ∧ r.result = .ok (.refused .rateLimited true) ∧
        ∃ ms, r.sent = [.refused r.handle r.kind.verb .rateLimited ms] ∧ d = r.now + millis ms) :
    Explains (ea ++ [r]) { s with rateMutedUntil := ra } := by
  constructor
  · intro ve co
    rw [h.pairs]
    refine and_congr_right fun hne => ⟨?_, ?_⟩
    · rintro ⟨r', hr', hold⟩
      exact ⟨r', List.mem_append_left _ hr', hold⟩
    · rintro ⟨r', hr', hc', hv, hre'⟩
      rcases List.mem_append.mp hr' with hold | hn
      · exact ⟨r', hold, hc', hv, hre'⟩
      · obtain rfl := List.mem_singleton.mp hn
        obtain ⟨v, hvo⟩ := hre
        obtain ⟨v', hv'⟩ := hre'
        cases hvo.symm.trans hv'
        exact absurd rfl hne
  · intro d hd
    rcases hr d hd with hold | hn
    · obtain ⟨r', hr', hr⟩ := h.rate d hold
      exact ⟨r', List.mem_append_left _ hr', hr⟩
    · exact ⟨r, by simp, hn⟩

variable {c : Chokepoint}

theorem voiceRefusal_voices {re : Refuse} {v : Bool} (h : Explains ea (c.stateOf r.handle))
    (hv : (c.voiceRefusal r.handle r.kind.verb re r.kind.coalescible r.now ⟨script, []⟩).2.2 = .ok v)
    (hre : r.result = .ok (.refused re.code v))
    (hs : r.sent = (c.voiceRefusal r.handle r.kind.verb re r.kind.coalescible r.now ⟨script, []⟩).2.1.sent) :
    Voices ea r re.code v ∧ Explains (ea ++ [r])
      ((c.voiceRefusal r.handle r.kind.verb re r.kind.coalescible r.now ⟨script, []⟩).1.stateOf r.handle) := by
  have hr : r.RefusedAs re.code := ⟨v, hre⟩
  cases hco : r.kind.coalescible with
  | false =>
    rw [hco, voiceRefusal_answers] at hv hs
    obtain ⟨rfl, he⟩ := sent_of_voiced hv
    refine ⟨⟨fun _ => rfl, fun h => ?_, fun h => ?_, announced re, hs.trans he, announced_ne_zero re⟩,
      h.other fun h => ?_⟩
    all_goals cases hco.symm.trans h
  | true =>
    rw [hco] at hv hs
    by_cases hc : re.code = .rateLimited
    · by_cases hm : (c.stateOf r.handle).rateMutedUntil.any (r.now < ·) = true
      · -- the time to wait is not over
        have hto : coalesce (c.stateOf r.handle) r.kind.verb re (announced re) r.now =
            (c.stateOf r.handle, true) := by rw [coalesce, if_pos hc, if_pos hm]
        rw [voiceRefusal_told hto] at hv hs ⊢
        cases hv
        obtain ⟨d, hd, hl⟩ := (Option.any_eq_true _ _).mp hm
        obtain ⟨r', hr', hc', hv', ms, hs', rfl⟩ := h.rate d hd
        refine ⟨⟨fun h => (nomatch hco.symm.trans h), fun _ hn => absurd hc hn, fun _ _ _ => ?_,
          announced re, hs, announced_ne_zero re⟩, ?_⟩
        · exact ⟨r', hr', hc', hv', ms, hs', of_decide_eq_true hl⟩
        · rw [stateOf_setState]
          exact h.noteRate (hc ▸ hr) fun d hd => .inl hd
      · have ht : coalesce (c.stateOf r.handle) r.kind.verb re (announced re) r.now =
            ({ c.stateOf r.handle with rateMutedUntil := some (r.now + millis (announced re)) }, false) := by
          rw [coalesce, if_pos hc, if_neg hm]
        rw [voiceRefusal_tells ht] at hv hs ⊢
        obtain ⟨rfl, he⟩ := sent_of_voiced hv
        refine ⟨⟨fun _ => rfl, fun _ hn => absurd hc hn, fun _ _ h => (nomatch h), announced re,
          hs.trans he, announced_ne_zero re⟩, ?_⟩
        rw [stateOf_setState]
        refine h.noteRate (hc ▸ hr) fun d hd => .inr ⟨hco, hc ▸ hre, announced re, ?_⟩
        exact ⟨hc ▸ hs.trans he, (Option.some.inj hd).symm⟩
    · have hp := (h.pairs r.kind.verb re.code).trans (and_iff_right hc)
      by_cases hm : (r.kind.verb, re.code) ∈ (c.stateOf r.handle).mutedPairs
      · have hto : coalesce (c.stateOf r.handle) r.kind.verb re (announced re) r.now =
            (c.stateOf r.handle, true) := by rw [coalesce, if_neg hc, if_pos hm]
        rw [voiceRefusal_told hto] at hv hs ⊢
        cases hv
        obtain ⟨r', hr', hc', hve, hre'⟩ := hp.mp hm
        refine ⟨⟨fun h => (nomatch hco.symm.trans h), fun _ _ => ?_, fun _ heq => absurd heq hc, announced re,
          hs, announced_ne_zero re⟩, ?_⟩
        · exact iff_of_false (by decide) fun hno => hno r' hr' hc' hve hre'
        · rw [stateOf_setState]
          refine h.note hco hc hr fun p => (or_iff_left_of_imp ?_).symm
          rintro rfl
          exact hm
      · have ht : coalesce (c.stateOf r.handle) r.kind.verb re (announced re) r.now =
            ({ c.stateOf r.handle with
              mutedPairs := (c.stateOf r.handle).mutedPairs ++ [(r.kind.verb, re.code)] }, false) := by
          rw [coalesce, if_neg hc, if_neg hm]
        rw [voiceRefusal_tells ht] at hv hs ⊢
        obtain ⟨rfl, he⟩ := sent_of_voiced hv
        refine ⟨⟨fun _ => rfl, fun _ _ => ?_, fun _ heq => absurd heq hc, announced re, hs.trans he,
          announced_ne_zero re⟩, ?_⟩
        · refine iff_of_true rfl fun r' hr' hc' hve hre' => hm (hp.mpr ?_)
          exact ⟨r', hr', hc', hve, hre'⟩
        · rw [stateOf_setState]
          exact h.note hco hc hr fun p => by simp

/-! ### One use -/

theorem stateOf_setState_of_ne {o : WireId} (h : o ≠ handle) (s : GrantUseState) :
    (c.setState handle s).stateOf o = c.stateOf o := by
  rw [stateOf, setState, OrdMap.get?_insert_of_ne h, stateOf]

theorem voiceRefusal_stateOf_ne {o : WireId} (h : o ≠ handle) (ve : Verb) (re : Refuse) (co : Bool) (now : Instant)
    (w : Wire) : (c.voiceRefusal handle ve re co now w).1.stateOf o = c.stateOf o := by
  simp only [voiceRefusal]
  split_ifs
  all_goals first | rfl | exact stateOf_setState_of_ne h _

theorem judge_explains {req : UseRequest} {g : GrantTable} {p : PetitionRegistry}
    {a : AttentionSignal} {e : UseEnv} {now : Instant} (h : Explains ea (c.stateOf handle)) :
    Explains ea ((c.judge req g p a e now).1.stateOf handle) := by
  unfold judge
  split
  · exact h
  · split
    · exact h
    · split_ifs
      · exact h
      · split
        · exact h
        · by_cases hh : handle = req.grantWireId
          · subst hh
            simp only [takeFor, stateOf_setState]
            exact h.congr rfl rfl
          · simp only [takeFor]
            rwa [stateOf_setState_of_ne hh]

theorem perform_ok {req : UseRequest} {en : UseEnv} {g : GrantId} {so cl : Bool} {now : Instant} {e : Option Event}
    {o : UseOutcome} (h : (perform req en g so cl now).answer = .ok (e, o)) (co : Refusal) (v : Bool) :
    o ≠ .refused co v := by
  rintro rfl
  simp only [perform] at h
  repeat' split at h
  all_goals cases h

def Explained (past : List UseReport) (c : Chokepoint) : Prop :=
  ∀ handle, Explains (UseReport.since handle past) (c.stateOf handle)

variable {past : List UseReport}

theorem Explained.concat {c' : Chokepoint} (h : Explained past c)
    (hr : Explains (r.earlier past ++ [r]) (c'.stateOf r.handle))
    (hot : ∀ handle, handle ≠ r.handle → ∀ ea, Explains ea (c.stateOf handle) →
      Explains ea (c'.stateOf handle)) : Explained (past ++ [r]) c' := by
  intro handle
  rw [UseReport.since_concat]
  split_ifs with hh
  · exact hh ▸ hr
  · exact hot handle (Ne.symm hh) _ (h handle)

theorem refused_step {c' : Chokepoint} {re : Refuse} (h : Explained past c)
    (hst : Explains (r.earlier past) (c'.stateOf r.handle))
    (hot : ∀ handle, handle ≠ r.handle → ∀ ea, Explains ea (c.stateOf handle) → Explains ea (c'.stateOf handle))
    (hr : r.result =
      (c'.voiceRefusal r.handle r.kind.verb re r.kind.coalescible r.now ⟨script, []⟩).2.2.map (.refused re.code))
    (hs : r.sent = (c'.voiceRefusal r.handle r.kind.verb re r.kind.coalescible r.now ⟨script, []⟩).2.1.sent) :
    (∀ co v, r.result = .ok (.refused co v) → Voices (r.earlier past) r co v) ∧
      (r.result.isOk = true → Explained (past ++ [r])
        (c'.voiceRefusal r.handle r.kind.verb re r.kind.coalescible r.now ⟨script, []⟩).1) := by
  cases hv : (c'.voiceRefusal r.handle r.kind.verb re r.kind.coalescible r.now ⟨script, []⟩).2.2 with
  | error e =>
    rw [hv] at hr
    exact ⟨fun co v hok => (nomatch hr.symm.trans hok), fun hok => by rw [hr] at hok; cases hok⟩
  | ok v =>
    rw [hv] at hr
    obtain ⟨hvo, hex⟩ := voiceRefusal_voices hst hv hr hs
    constructor
    · intro co v' hok
      cases hr.symm.trans hok
      exact hvo
    · refine fun _ => h.concat hex fun handle hh ea he => ?_
      rw [voiceRefusal_stateOf_ne hh]
      exact hot handle hh ea he

/-- One use: if it is refused it is voiced as it should be, and the mutes stay explained. -/
theorem voicing_step {u : Use} (h : Explained past c) (hr : (voicing (some c) u).2 = some r) :
    (∀ co v, r.result = .ok (.refused co v) → Voices (r.earlier past) r co v) ∧
      ∀ c', (voicing (some c) u).1 = some c' → Explained (past ++ [r]) c' := by
  have hs : ∀ handle, ∀ ea, Explains ea (c.stateOf handle) →
      Explains ea ((c.judge u.req u.grants u.petitions u.attention u.env u.now).1.stateOf handle) :=
    fun handle ea => judge_explains
  -- A live connection goes on with the chokepoint that the use left.
  suffices hst : (∀ co v, r.result = .ok (.refused co v) → Voices (r.earlier past) r co v) ∧
      (r.result.isOk = true → Explained (past ++ [r])
        (c.enforceUse u.req u.grants u.petitions u.attention u.env u.now ⟨u.script, []⟩).chokepoint) by
    refine ⟨hst.1, fun c' hc' => ?_⟩
    cases hr
    simp only [voicing] at hc'
    split at hc'
    next o hok =>
      cases hc'
      exact hst.2 (by simp only [hok, Except.toBool])
    next => cases hc'
  cases hr
  cases hj : (c.judge u.req u.grants u.petitions u.attention u.env u.now).2 with
  | error re =>
    simp only [enforceUse, hj]
    refine @refused_step ⟨u.req.grantWireId, u.req.kind, u.now, false, _, _⟩ u.script c past _ re h ?_
      (fun handle _ => hs handle) rfl rfl
    exact hs _ _ (h u.req.grantWireId)
  | ok ad =>
    obtain ⟨a, ex⟩ := ad
    -- The mutes are cleared before the sink is called, so a refusal that follows finds none.
    have hc (ea : List UseReport) (handle : WireId) (hh : handle ≠ u.req.grantWireId)
        (hea : Explains ea (c.stateOf handle)) : Explains ea
          (((c.judge u.req u.grants u.petitions u.attention u.env u.now).1.setState u.req.grantWireId
            ((c.judge u.req u.grants u.petitions u.attention u.env u.now).1.stateOf
              u.req.grantWireId).clearMutes).stateOf handle) := by
      rw [stateOf_setState_of_ne hh]
      exact hs handle ea hea
    simp only [enforceUse, hj]
    generalize (c.judge u.req u.grants u.petitions u.attention u.env u.now).1 = c' at hc
    have he : Explains [] ((c'.setState u.req.grantWireId (c'.stateOf u.req.grantWireId).clearMutes).stateOf
        u.req.grantWireId) := by
      rw [stateOf_setState]
      exact explains_nil _
    cases hd : (perform u.req u.env a.grantId (u.grants.commitUse a.grantId).2 ex.isSome
        u.now).answer with
    | error co =>
      exact @refused_step ⟨u.req.grantWireId, u.req.kind, u.now, true, _, _⟩ u.script c past _ (.of co) h he
        (fun handle hh ea => hc ea handle hh) rfl rfl
    | ok d =>
      obtain ⟨ev, o⟩ := d
      -- A sink that does what it is asked refuses nothing, however its answer is sent.
      have hn (se : Except TransportError Unit) (co : Refusal) (v : Bool) :
          (se.map fun _ => o) ≠ .ok (.refused co v) := by
        cases se with
        | error e => simp [Except.map]
        | ok d => exact fun h => perform_ok hd co v (Except.ok.inj h)
      refine ⟨fun co v hok => absurd hok (hn _ co v), fun _ => h.concat ?_ ?_⟩
      · refine he.other fun _ co hre => ?_
        obtain ⟨v, hok⟩ := hre
        exact hn _ co v hok
      · exact fun handle hh ea => hc ea handle hh

/-! ### Runs -/

theorem explained_new : Explained [] .new := fun _ => explains_nil none

theorem voicing_explained (us : List Use) : ∀ c ∈ voicing.exec (some .new) us, Explained (reports us) c := by
  refine Machine.exec_past (P := fun us c? => ∀ c ∈ c?, Explained (reports us) c) ?_ ?_ us
  · rintro c ⟨⟩
    exact explained_new
  · intro past u ih c' hc'
    cases hc : voicing.exec (some .new) past with
    | none =>
      rw [hc] at hc'
      cases hc'
    | some c =>
      rw [hc] at ih hc'
      have hr : reports (past ++ [u]) = reports past ++ ((voicing (some c) u).2.toList) := by
        rw [reports, Machine.outs_append, List.filterMap_append, hc]
        rfl
      rw [hr]
      exact (voicing_step (ih c rfl) rfl).2 c' hc'

/-- **What is refused is said.** Over every run of uses on a connection, whatever happens to
the stores and the environment in between, a use that is refused is voiced as `Voices` says:
one that waits for an answer gets its own; of the others each pair of a verb and a code is
voiced once between two admissions of the handle, at its first refusal; a refusal for the
rate is silent only while the time announced by one that was voiced since the last admission
is not over; and a time to wait is announced with the rate limit alone. -/
theorem refusals_voiced (past : List Use) (u : Use) (r : UseReport) (code : Refusal) (voiced : Bool)
    (hr : (voicing (voicing.exec (some .new) past) u).2 = some r) (hrefused : r.result = .ok (.refused code voiced)) :
    Voices (r.earlier (reports past)) r code voiced := by
  have he := voicing_explained past
  cases hc : voicing.exec (some .new) past with
  | none =>
    rw [hc] at hr
    cases hr
  | some c =>
    rw [hc] at hr he
    exact (voicing_step (he c rfl) hr).1 code voiced hrefused

namespace Sample

/-- A pointer press through handle 4 in the realm of the sample, with a table. -/
def press (grants : GrantTable) (now : Instant) : Use where
  req := ⟨7, 4, some 1, agent, .pointer (.button 0x110 .pressed)⟩
  grants
  petitions := registry
  attention := .new .super
  env := { env with grantRealm := some realm }
  now
  script := []

end Sample

open Sample in
/-- The row confers no pointer: the first press is refused aloud and the second in silence. -/
theorem refusals_voiced_press :
    let past := [press onceTable 0]
    ∃ r, (voicing (voicing.exec (some .new) past) (press onceTable 1)).2 = some r ∧
      Voices (r.earlier (reports past)) r .notGranted false := by
  intro past
  exact ⟨_, rfl, refusals_voiced past (press onceTable 1) _ .notGranted false rfl rfl⟩

end Vitrin
