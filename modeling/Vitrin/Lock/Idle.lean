import Vitrin.Lock.Gate

/-!
# How long the human has been away

The lock raises itself when the human has not been heard of for long enough. What it compares
with its threshold is in two parts: the time since the stamp of the shared record, and a
carry into which a return from another session's seat moves what the stamp forgets.

`Heard` follows what there is to know: when the human was last heard of and whether the seat
is away. The two parts add up to the time since then (`idle_lock_exact`), so the lock comes
up at the first tick at which that time reaches the threshold. Under the policy that counts
absences, being told of a return twice counts the time twice (`return_counted_twice`); under
the others a return is being heard of.
-/

namespace Vitrin

open Lib Machine LockScreen

namespace LockScreen

/-- What the countdown reads. -/
def clock (s : LockScreen) : SessionActivity × Duration × Option Duration × SeatChangePolicy :=
  (s.activity, s.seatAbsenceCarry, s.idleAfter, s.onSeatChange)

variable (s : LockScreen)

@[simp] theorem raise_clock (c : LockCause) : (s.raise c).clock = s.clock := by
  unfold raise
  split_ifs <;> rfl

@[simp] theorem tick_clock (now : Instant) (held : Bool) : (s.tick now held).clock = s.clock := by
  unfold tick
  split_ifs
  · rfl
  · split
    · rfl
    · split_ifs <;> simp

theorem typeKey_clock {k : Nat} : (s.typeKey k).clock = s.clock := by
  unfold typeKey submit
  split
  · rfl
  · split_ifs
    · split
      · rfl
      · split_ifs <;> rfl
    · rfl

theorem judgeAwake_clock {i : SeatInput} : (s.judgeAwake i).1.clock = s.clock := by
  unfold judgeAwake
  dsimp only
  split
  · exact raise_clock _ _
  · split_ifs
    · rfl
    · rfl
    · unfold judgeLocked
      split <;> first | rfl | exact typeKey_clock _

/-- Judging an event notes the human's activity, and an emulated event none. -/
theorem judge_clock (i : SeatInput) (now : Instant) : (s.judge i now).1.clock =
    if i.origin = .physical then ((s.activity.notePhysical now).1, 0, s.idleAfter, s.onSeatChange)
    else s.clock := by
  unfold judge
  by_cases ho : i.origin = .physical
  · simp only [ne_eq]
    split_ifs
    · rfl
    · exact judgeAwake_clock _
  · simp [ho]

theorem setSeatAbsent_clock (a : Bool) (now : Instant) : (s.setSeatAbsent a now).clock =
    (s.activity.setSeatAbsent a now, (if s.onSeatChange = .idle ∧ a = false then
      s.seatAbsenceCarry + (now - s.activity.last) else s.seatAbsenceCarry), s.idleAfter, s.onSeatChange) := by
  unfold setSeatAbsent
  cases hp : s.onSeatChange <;> cases a
  case immediate.true =>
    have hr := s.raise_clock .seatChange
    simp_all [clock]
  all_goals simp [clock, hp]

end LockScreen

theorem ActivityOp.run_last (op : ActivityOp) (a : SessionActivity) :
    (op.run a).last = a.last ∧ (op.run a).seatAbsent = a.seatAbsent := by
  cases op with
  | tick now i => obtain h | h := a.tick_cases now i <;> simp [run, h]
  | frameQueued => simp only [run, SessionActivity.noteFrameQueued]; split_ifs <;> simp
  | wentDark => simp only [run, SessionActivity.wentDark]; split_ifs <;> simp
  | flipCompleted => simp only [run, SessionActivity.noteFlipCompleted]; split_ifs <;> simp [SessionActivity.forceLit]
  | forceLit => exact ⟨rfl, rfl⟩
  | takeTransition now => simp only [run, SessionActivity.takeTransition]; split <;> simp

/-! ### When the human was last heard of -/

/-- When the human was last heard of, and whether the seat is away. -/
structure Heard where
  since : Instant
  absent : Bool

/-- An event of theirs says so; a return does, unless the policy counts absences. -/
def Heard.step (policy : SeatChangePolicy) (h : Heard) : LockOp → Heard
  | .event input now => if input.origin = .physical then { h with since := now } else h
  | .setSeatAbsent absent now => ⟨if policy ≠ .idle ∧ h.absent ∧ absent = false then now else h.since, absent⟩
  | _ => h

def heard (policy : SeatChangePolicy) (start : Instant) (ops : List LockOp) : Heard :=
  ops.foldl (Heard.step policy) ⟨start, false⟩

/-- When a call is made, of those the countdown looks at. -/
def LockOp.at? : LockOp → Option Instant
  | .event _ now | .tick now _ | .setSeatAbsent _ now => some now
  | _ => none

/-- The seat is said to be back only when it was away. -/
def Returns (s : LockScreen) (op : LockOp) : Prop :=
  ∀ now, op = .setSeatAbsent false now → s.activity.seatAbsent = true

/-- The stamp and the carry add up, and the stamp is the time of an earlier call. -/
structure Counts (policy : SeatChangePolicy) (start : Instant) (after : Option Duration) (past : List LockOp)
    (s : LockScreen) : Prop where
  configured : s.onSeatChange = policy ∧ s.idleAfter = after
  absent : s.activity.seatAbsent = (heard policy start past).absent
  sum : s.seatAbsenceCarry + (heard policy start past).since = s.activity.last
  uncarried : policy ≠ .idle → s.seatAbsenceCarry = 0
  stamped : s.activity.last ∈ start :: past.filterMap LockOp.at?

section Runs

variable {po : SeatChangePolicy} {st : Instant} {af : Option Duration} {p : List LockOp} {s : LockScreen}

variable {op : LockOp}

theorem heard_concat : heard po st (p ++ [op]) = (heard po st p).step po op := by
  simp [heard]

theorem mem_times_concat (op : LockOp) {t : Instant} (h : t ∈ st :: p.filterMap LockOp.at?) :
    t ∈ st :: (p ++ [op]).filterMap LockOp.at? := by
  rw [List.filterMap_append]
  exact List.cons_subset_cons _ (List.subset_append_left _ _) h

variable (h : Counts po st af p s)

include h

theorem Counts.same {s' : LockScreen} (hl : s'.activity.last = s.activity.last)
    (ha : s'.activity.seatAbsent = s.activity.seatAbsent) (hcl : s'.clock.2 = s.clock.2)
    (hop : (heard po st p).step po op = heard po st p) : Counts po st af (p ++ [op]) s' := by
  obtain ⟨hc, haf, hp⟩ : s'.seatAbsenceCarry = s.seatAbsenceCarry ∧ s'.idleAfter = s.idleAfter ∧
    s'.onSeatChange = s.onSeatChange := by simpa [clock] using hcl
  refine ⟨⟨hp.trans h.configured.1, haf.trans h.configured.2⟩, ?_, ?_,
    fun hn => hc.trans (h.uncarried hn), ?_⟩
  · rw [heard_concat, hop, ha, h.absent]
  · rw [heard_concat, hop, hl, hc, h.sum]
  · rw [hl]
    exact mem_times_concat op h.stamped

theorem Counts.setSeatAbsent {a : Bool} {now : Instant}
    (hno : s.activity.last ≤ now) (hr : po = .idle → Returns s (.setSeatAbsent a now)) :
    Counts po st af (p ++ [.setSeatAbsent a now]) (s.setSeatAbsent a now) := by
  obtain ⟨⟨hp, haf⟩, hab, hs, hu, hst⟩ := h
  have hcl := s.setSeatAbsent_clock a now
  simp only [clock, Prod.mk.injEq] at hcl
  obtain ⟨ha, hc, ha', hp'⟩ := hcl
  refine ⟨⟨hp'.trans hp, ha'.trans haf⟩, ?_, ?_, fun hn => ?_, ?_⟩
  · rw [ha, s.activity.setSeatAbsent_seatAbsent, heard_concat]
    rfl
  · rw [ha, hc, hp, heard_concat]
    cases a with
    | true => simpa [Heard.step, SessionActivity.setSeatAbsent, SessionActivity.forceLit] using hs
    | false =>
      by_cases hi : po = .idle
      · -- The stamp moves to the return, and the carry takes what it passes over.
        subst hi
        have haw := hr rfl now rfl
        simp only [Heard.step, SessionActivity.setSeatAbsent, haw, ne_eq, not_true_eq_false, false_and, and_self,
          if_true, if_false, Bool.false_eq_true]
        rw [Nat.add_right_comm, hs, Nat.add_sub_cancel' hno]
      · have hz := hu hi
        cases hw : (heard po st p).absent <;>
          simp_all [Heard.step, SessionActivity.setSeatAbsent]
  · rw [hc, hp, if_neg (by simp [hn]), hu hn]
  · have hn' : now ∈ st :: (p ++ [LockOp.setSeatAbsent a now]).filterMap LockOp.at? := by
      simp [LockOp.at?]
    have hold := mem_times_concat (.setSeatAbsent a now) hst
    rw [ha]
    unfold SessionActivity.setSeatAbsent
    split_ifs
    · exact hold
    · exact hn'
    · exact hold

theorem Counts.step (hn : ∀ now ∈ op.at?, s.activity.last ≤ now)
    (hr : po = .idle → Returns s op) : Counts po st af (p ++ [op]) (lockStep s op).1 := by
  cases op with
  | event i now =>
    have hc := s.judge_clock i now
    by_cases ho : i.origin = .physical
    · rw [if_pos ho] at hc
      simp only [clock, Prod.mk.injEq] at hc
      obtain ⟨ha, hca, haf, hp⟩ := hc
      have hl : (s.activity.notePhysical now).1.last = now := by
        unfold SessionActivity.notePhysical
        dsimp only
        split
        · rfl
        · rfl
        · rfl
        · split_ifs <;> rfl
      have hh : heard po st (p ++ [.event i now]) =
          { heard po st p with since := now } := by
        rw [heard_concat, Heard.step, if_pos ho]
      have hs : (lockStep s (.event i now)).1.activity.last = now := (congrArg (·.last) ha).trans hl
      refine ⟨⟨hp.trans h.configured.1, haf.trans h.configured.2⟩, ?_, ?_, fun _ => hca, ?_⟩
      · rw [hh]
        exact (congrArg (·.seatAbsent) ha).trans ((s.activity.notePhysical_seatAbsent now).trans h.absent)
      · rw [hh, hs]
        exact (congrArg (· + now) hca).trans (Nat.zero_add now)
      · simp [hs, LockOp.at?]
    · rw [if_neg ho] at hc
      exact h.same (congrArg (·.1.last) hc) (congrArg (·.1.seatAbsent) hc) (congrArg (·.2) hc)
        (by rw [Heard.step, if_neg ho])
  | tick now held =>
    have hc := s.tick_clock now held
    exact h.same (congrArg (·.1.last) hc) (congrArg (·.1.seatAbsent) hc) (congrArg (·.2) hc) rfl
  | raise c =>
    have hc := s.raise_clock c
    exact h.same (congrArg (·.1.last) hc) (congrArg (·.1.seatAbsent) hc) (congrArg (·.2) hc) rfl
  | setSeatAbsent a now => exact h.setSeatAbsent (hn now rfl) hr
  | forgetPhysicalState | takeJournal => exact h.same rfl rfl rfl rfl
  | activity op => exact h.same (op.run_last _).1 (op.run_last _).2 rfl rfl

end Runs

/-- **The idle countdown is exact.** On a clock that does not run backwards, what the lock compares with its threshold
is the time since the human was last heard of: since the start or their last event, and without the policy that counts
absences, or the last return of the seat. With that policy, the seat is to be said back only when it was away. So a
tick raises the lock exactly if the seat is there, no picker holds it off, and that time has reached the threshold. -/
theorem idle_lock_exact (chord : ModChord) (after blankAfter : Option Duration) (verifier : Option PassphraseFile)
    (policy : SeatChangePolicy) (start now : Instant) (ops : List LockOp) (held : Bool)
    (hclock : ((start :: ops.filterMap LockOp.at?) ++ [now]).Pairwise (· ≤ ·)) :
    let s₀ := (LockScreen.new chord after verifier (.new blankAfter start)).withSeatChangePolicy policy
    (policy = .idle → lockStep.Along Returns s₀ ops) →
      let s := lockStep.exec s₀ ops
      now - s.activity.last + s.seatAbsenceCarry = now - (heard policy start ops).since ∧
        ((s.tick now held).isLocked ↔ s.isLocked ∨ held = false ∧ (heard policy start ops).absent = false ∧
          ∃ d, after = some d ∧ d ≤ now - (heard policy start ops).since) := by
  intro s₀ hre s
  have hs := List.pairwise_append.mp hclock
  have hc : Counts policy start after ops s := by
    refine (lockStep.exec_past (P := fun p s => p <+: ops → Counts policy start after p s) ?_ ?_ ops)
      (List.prefix_refl _)
    · exact fun _ => ⟨⟨rfl, rfl⟩, rfl, Nat.zero_add start, fun _ => rfl, .head _⟩
    · intro p op ih hp
      have hc := ih ((List.prefix_append p [op]).trans hp)
      obtain ⟨r, rfl⟩ := hp
      refine hc.step (fun t ht => ?_) fun hi => ?_
      · have hti := hs.1
        rw [List.append_assoc, List.filterMap_append, ← List.cons_append] at hti
        exact (List.pairwise_append.mp hti).2.2 _ hc.stamped t (List.mem_filterMap.mpr ⟨op, by simp, ht⟩)
      · have hal := (lockStep.along_append _ _ _ _).mp (hre hi)
        exact ((lockStep.along_append _ _ _ _).mp hal.1).2.1
  have hl : s.activity.last ≤ now := hs.2.2 _ hc.stamped _ (List.mem_singleton_self now)
  have hi : now - s.activity.last + s.seatAbsenceCarry = now - (heard policy start ops).since := by
    have hsu := hc.sum
    rw [← hsu] at hl ⊢
    rw [Nat.add_comm s.seatAbsenceCarry, ← Nat.sub_sub, Nat.sub_add_cancel (Nat.le_sub_of_add_le hl)]
  refine ⟨hi, ?_⟩
  unfold tick
  rw [hi, hc.configured.2, hc.absent]
  split_ifs with hof
  · refine ⟨.inl, ?_⟩
    rintro (hlo | ⟨rfl, ha, -⟩)
    · exact hlo
    · simpa [isLocked, ha] using hof
  · have hdo : s.isLocked = false := by simpa [isLocked] using fun h => hof (.inl h)
    have hr : (s.raise .idle).isLocked := by
      unfold LockScreen.raise
      split_ifs with hu <;> simp [isLocked, hu]
    simp only [not_or] at hof
    cases after with
    | none => simp
    | some d =>
      dsimp only
      split_ifs with hd
      · simp [hd]
      · simp [hr, hof, Nat.not_lt.mp hd]

namespace LockSample

/-- A lock that comes up after a minute. -/
def minute (policy : SeatChangePolicy) : LockScreen :=
  (LockScreen.new chord (some (secs 60)) none (.new none 0)).withSeatChangePolicy policy

end LockSample

open LockSample in
/-- The human leaves at 50 s and comes back at 100 s: 60 s after the start, counted on, the lock comes up. -/
theorem idle_lock_exact_away :
    ((lockStep.exec (minute .idle) [.setSeatAbsent true (secs 50), .setSeatAbsent false (secs 100)]).tick
      (secs 101) false).isLocked := by
  have hr : lockStep.Along Returns (minute .idle)
      [.setSeatAbsent true (secs 50), .setSeatAbsent false (secs 100)] := by
    refine ⟨fun t h => ?_, fun t _ => rfl, trivial⟩
    cases h
  have h := (idle_lock_exact chord (some (secs 60)) none none .idle 0 (secs 101)
    [.setSeatAbsent true (secs 50), .setSeatAbsent false (secs 100)] false (by decide) fun _ => hr).2
  exact h.mpr (.inr ⟨rfl, rfl, secs 60, rfl, by decide⟩)

open LockSample in
/-- Told twice that the seat is there, the lock counts 40 s twice and comes up 45 s after the start. And a return is
being heard of: 110 s after the start, with 50 s of them away, 10 s are counted. -/
theorem return_counted_twice :
    ((lockStep.exec (minute .idle) [.setSeatAbsent false (secs 40)]).tick (secs 45) false).isLocked = true ∧
      ((lockStep.exec (minute .never) [.setSeatAbsent true (secs 50), .setSeatAbsent false (secs 100)]).tick
        (secs 110) false).isLocked = false := by
  decide

end Vitrin
