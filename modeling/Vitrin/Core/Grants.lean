import Vitrin.Core.Basic
import Vitrin.Lib.OrdMap
import Mathlib.Data.List.Sort

/-!
# The grant table

Every authority a principal holds is a row of one table, keyed by a `GrantId` from
a counter that never repeats. A use is judged against the table at an instant: by
the row it names (`checkUseGrant`, pure, with `commitUse` to spend a one-shot row
once the use is admitted), or by searching the principal's rows (`checkUse`, which
judges and spends in one call).

A row is immutable once minted; what changes is its `Liveness`. `GrantTable`
carries the proof that each entry sits under its own row's id and below the next
id, and `GrantRow` the proof that its verb set is not empty. Rows leave only by
`remove`, and every other operation but `insert` is an `updateLiveness`, so a
property of rows is a property of `insert`.

The columns of a row that this version holds at null (focus condition, one-shot
flag, provenance, parent grant, pinned addresses) are left out: no function reads
them.

Liveness only goes down: `updateLiveness_relives` is stated once for every operation that
writes it.
-/

namespace Vitrin

open Lib

/-! ### Rows -/

/-- The host of a network selector: a plain name or address, or a bracketed IPv6 address. -/
inductive NetHost where
  | plain (host : String)
  /-- An IPv6 address, without its brackets. -/
  | v6 (host : String)
  deriving DecidableEq

/-- A network destination: a host and a port. -/
structure NetSelector where
  host : NetHost
  port : UInt16
  port_ne : port ≠ 0
  deriving DecidableEq

/-- What a row's authority ranges over. -/
inductive ResourceRef where
  | wholeRealm
  | net (selector : NetSelector)
  deriving DecidableEq

def ResourceRef.covers : ResourceRef → ResourceRef → Bool
  | wholeRealm, wholeRealm => true
  | net held, net want => held = want
  | _, _ => false

/-- Who decided that the row may exist. -/
inductive Issuer where
  | humanConsent
  | autoApprovePolicy
  | scriptedConsent
  deriving DecidableEq

/-- The limits a row carries. -/
structure Constraints where
  /-- How long the row lives, if bounded. -/
  expiry : Option Duration
  maxEventRate : NonZeroU32

structure GrantRow where
  grantId : GrantId
  principalId : PrincipalIdentity
  realmId : RealmId
  resourceRef : ResourceRef
  verbs : Verb
  constraints : Constraints
  persistence : PersistenceRung
  issuedAt : Instant
  issuer : Issuer
  nonEmpty : verbs.bits ≠ 0#32

structure GrantSpec where
  principalId : PrincipalIdentity
  realmId : RealmId
  resourceRef : ResourceRef
  /-- The verbs, possibly empty: `insert` refuses that. -/
  verbs : Verb
  expiry : Option Duration
  maxEventRate : NonZeroU32
  persistence : PersistenceRung
  issuer : Issuer
  deriving DecidableEq

/-- Why a row could not be minted. -/
inductive InsertError where
  | emptyVerbs
  /-- The deadline is past the end of the clock. -/
  | expiryUnrepresentable
  deriving DecidableEq

def InsertError.text : InsertError → String
  | emptyVerbs => "grant spec has an empty verb set"
  | expiryUnrepresentable => "grant expiry deadline is not representable"

/-- What an allowed use learns of its row. -/
structure Allowed where
  grantId : GrantId
  maxEventRate : NonZeroU32
  deriving DecidableEq

/-- Why the table refuses a use. -/
inductive RefusalReason where
  | notGranted
  | expired
  | revoked
  deriving DecidableEq

namespace RefusalReason

/-- The order of the reasons: the strongest is reported. -/
def rank : RefusalReason → Nat
  | notGranted => 0
  | expired => 1
  | revoked => 2

def toRefusal : RefusalReason → Refusal
  | notGranted => .notGranted
  | expired => .expired
  | revoked => .revoked

/-- `Option::max` on reasons, `none` below all. -/
def maxOpt : Option RefusalReason → RefusalReason → RefusalReason
  | none, b => b
  | some a, b => if a.rank ≤ b.rank then b else a

end RefusalReason

/-- A row's state at an instant, as it is reported. -/
inductive GrantState where
  | active
  | revoked
  | expired
  | spent
  deriving DecidableEq

/-- The stored part of a row's state; the deadline is judged at use. -/
inductive Liveness where
  | active
  | spent
  | expired
  | revoked
  deriving DecidableEq

/-- A row together with what changes about it. -/
structure Entry where
  row : GrantRow
  deadline : Option Instant
  liveness : Liveness

variable {now : Instant} {e : Entry} {v : Verb}

namespace Entry

def deadlinePassed (e : Entry) (now : Instant) : Bool := e.deadline.any (· ≤ now)

/-- Why this row would refuse `verb` at `now`, or nothing. -/
def refusalFor (e : Entry) (verb : Verb) (now : Instant) : Option RefusalReason :=
  if !e.row.verbs.contains verb then some .notGranted
  else if e.liveness = .revoked then some .revoked
  else if e.deadlinePassed now then some .expired
  else if e.liveness = .spent ∨ e.liveness = .expired then some .expired
  else none

/-- The row's state at `now`. -/
def stateAt (e : Entry) (now : Instant) : GrantState :=
  match e.liveness with
  | .revoked => .revoked
  | l => if e.deadlinePassed now then .expired else match l with
    | .expired => .expired
    | .spent => .spent
    | _ => .active

/-- The row is usable at `now`. -/
def Live (e : Entry) (now : Instant) : Prop := e.liveness = .active ∧ e.deadlinePassed now = false

instance (e : Entry) (now : Instant) : Decidable (e.Live now) := inferInstanceAs (Decidable (_ ∧ _))

theorem stateAt_eq_active_iff : e.stateAt now = .active ↔ e.Live now := by
  unfold stateAt Live
  cases hl : e.liveness <;> cases hd : e.deadlinePassed now <;> simp

theorem refusalFor_eq_none_iff : e.refusalFor v now = none ↔ e.row.verbs.contains v = true ∧ e.Live now := by
  unfold refusalFor Live
  cases hv : e.row.verbs.contains v <;> cases hl : e.liveness <;>
    cases hd : e.deadlinePassed now <;> simp

theorem Live.of_le {t t' : Instant} (h : e.Live t') (ht : t ≤ t') : e.Live t := by
  refine ⟨h.1, ?_⟩
  have hd := h.2
  unfold deadlinePassed at *
  cases hdl : e.deadline with
  | none => simp
  | some d =>
    simp only [hdl, Option.any_some] at hd ⊢
    lia

end Entry

/-! ### The table -/

/-- The table: the rows by id, the next id to mint, and the dead-man seal. -/
structure GrantTable where
  entries : OrdMap GrantId Entry
  nextId : Nat
  /-- Set once by the dead-man switch: every later row is born revoked. -/
  deadManSealed : Bool
  keyed : ∀ id e, entries.get? id = some e → e.row.grantId = id ∧ id < nextId

variable {t : GrantTable} {id : GrantId}

variable {f : GrantId → Entry → Liveness}

namespace GrantTable

def new : GrantTable where
  entries := .empty
  nextId := 1
  deadManSealed := false
  keyed := by simp

def entryOf (t : GrantTable) (grant : GrantId) : Option Entry := t.entries.get? grant

theorem lt_nextId (h : t.entryOf id = some e) : id < t.nextId := (t.keyed id e h).2

theorem entryOf_nextId (t : GrantTable) : t.entryOf t.nextId = none := by
  cases h : t.entryOf t.nextId with
  | none => rfl
  | some e => exact absurd (lt_nextId h) (lt_irrefl _)

/-- Rewrite the stored state of every row. -/
def updateLiveness (t : GrantTable) (f : GrantId → Entry → Liveness) : GrantTable where
  entries := t.entries.mapVals fun id e => { e with liveness := f id e }
  nextId := t.nextId
  deadManSealed := t.deadManSealed
  keyed := by
    intro id e h
    rw [OrdMap.get?_mapVals, Option.map_eq_some_iff] at h
    obtain ⟨e₀, h₀, rfl⟩ := h
    exact t.keyed id e₀ h₀

/-- Rewrite the stored state of one row. -/
def setLiveness (t : GrantTable) (grant : GrantId) (l : Liveness) : GrantTable :=
  t.updateLiveness fun id e => if id = grant then l else e.liveness

theorem entryOf_updateLiveness :
    (t.updateLiveness f).entryOf id = (t.entryOf id).map fun e => { e with liveness := f id e } :=
  OrdMap.get?_mapVals

def sealDeadMan (t : GrantTable) : GrantTable := { t with deadManSealed := true }

/-- The entry `insert` mints from a spec: a sealed table mints it revoked. -/
def mintEntry (t : GrantTable) (spec : GrantSpec) (issuedAt : Instant) (deadline : Option Instant)
    (nonEmpty : spec.verbs.bits ≠ 0#32) : Entry where
  row :=
    { grantId := t.nextId
      principalId := spec.principalId
      realmId := spec.realmId
      resourceRef := spec.resourceRef
      verbs := spec.verbs
      constraints := { expiry := spec.expiry, maxEventRate := spec.maxEventRate }
      persistence := spec.persistence
      issuedAt
      issuer := spec.issuer
      nonEmpty }
  deadline
  liveness := if t.deadManSealed then .revoked else .active

theorem mintEntry_grantId (t : GrantTable) (s : GrantSpec) (ia : Instant) (d : Option Instant)
    (hn : s.verbs.bits ≠ 0#32) : (t.mintEntry s ia d hn).row.grantId = t.nextId := rfl

/-- Add an entry under the next id. -/
def push (t : GrantTable) (e : Entry) (h : e.row.grantId = t.nextId) : GrantTable where
  entries := t.entries.insert t.nextId e
  nextId := t.nextId + 1
  deadManSealed := t.deadManSealed
  keyed := by
    intro id e' he'
    rw [OrdMap.get?_insert] at he'
    split at he'
    · rename_i hid
      cases he'
      exact ⟨h.trans hid.symm, by lia⟩
    · have := t.keyed id e' he'
      exact ⟨this.1, by lia⟩

def insert (t : GrantTable) (spec : GrantSpec) (issuedAt : Instant) : Except InsertError (GrantTable × GrantId) :=
  if h : spec.verbs.bits = 0#32 then .error .emptyVerbs
  else match spec.expiry with
    | some expiry => match checkedAdd issuedAt expiry with
      | some deadline => .ok (t.push (t.mintEntry spec issuedAt (some deadline) h) (t.mintEntry_grantId ..), t.nextId)
      | none => .error .expiryUnrepresentable
    | none => .ok (t.push (t.mintEntry spec issuedAt none h) (t.mintEntry_grantId ..), t.nextId)

/-- A later row replaces the chosen one unless that trades a standing row for a one-shot one. -/
def replaces (chosen : Option (GrantId × PersistenceRung)) (rung : PersistenceRung) : Bool :=
  match chosen with
  | none => true
  | some (_, .once) => true
  | some (_, .whileRunning) => rung = .whileRunning

/-- One entry's part in the search: the strongest refusal so far and the row chosen so far. -/
def scanEntry (principal : PrincipalIdentity) (realm : RealmId) (resource : ResourceRef) (verb : Verb)
    (now : Instant) (acc : Option RefusalReason × Option (GrantId × PersistenceRung)) (x : GrantId × Entry) :
    Option RefusalReason × Option (GrantId × PersistenceRung) :=
  let row := x.2.row
  if row.principalId ≠ principal ∨ row.realmId ≠ realm ∨ !row.resourceRef.covers resource then acc
  else match x.2.refusalFor verb now with
    | some reason => (some (RefusalReason.maxOpt acc.1 reason), acc.2)
    | none => if replaces acc.2 row.persistence then (acc.1, some (x.1, row.persistence)) else acc

/-- Judge a use by searching the principal's rows, and spend the row that allows it. -/
def checkUse (t : GrantTable) (principal : PrincipalIdentity) (realm : RealmId) (resource : ResourceRef)
    (verb : Verb) (now : Instant) : GrantTable × Except RefusalReason Allowed :=
  if verb.bits = 0#32 then (t, .error .notGranted)
  else
    let found := t.entries.entries.foldl (scanEntry principal realm resource verb now) (none, none)
    match found.2 with
    | some (id, rung) => match t.entryOf id with
      | some entry =>
        (if rung = .once then t.setLiveness id .spent else t,
          .ok { grantId := id, maxEventRate := entry.row.constraints.maxEventRate })
      -- the chosen id was just seen in the map
      | none => (t, .error .notGranted)
    | none => (t, .error (found.1.getD .notGranted))

def realmOf (t : GrantTable) (grant : GrantId) : Option RealmId := (t.entryOf grant).map (·.row.realmId)

/-- Some row confers `verb` and is live. -/
def anyLiveHolderOf (t : GrantTable) (verb : Verb) (now : Instant) : Bool :=
  t.entries.entries.any fun x => x.2.row.verbs.contains verb && x.2.stateAt now = .active

/-- Some row of `principal` confers `verb` and is live. -/
def holdsVerb (t : GrantTable) (principal : PrincipalIdentity) (verb : Verb) (now : Instant) : Bool :=
  t.entries.entries.any fun x =>
    x.2.row.principalId = principal && x.2.row.verbs.contains verb && x.2.stateAt now = .active

/-- Judge a use by the row it names. Nothing is spent. -/
def checkUseGrant (t : GrantTable) (grant : GrantId) (principal : PrincipalIdentity) (verb : Verb)
    (now : Instant) : Except RefusalReason Allowed :=
  if verb.bits = 0#32 then .error .notGranted
  else match t.entryOf grant with
    | none => .error .notGranted
    | some entry =>
      if entry.row.principalId ≠ principal then .error .notGranted
      else match entry.refusalFor verb now with
        | some reason => .error reason
        | none => .ok { grantId := grant, maxEventRate := entry.row.constraints.maxEventRate }

/-- Spend a one-shot row whose use was admitted. -/
def commitUse (t : GrantTable) (grant : GrantId) : GrantTable × Bool :=
  match t.entryOf grant with
  | some entry =>
    if entry.row.persistence = .once ∧ entry.liveness = .active then (t.setLiveness grant .spent, true)
    else (t, false)
  | none => (t, false)

/-- Mark every active row whose deadline is reached; the ids in ascending order. -/
def expireDue (t : GrantTable) (now : Instant) : GrantTable × List GrantId :=
  let due (e : Entry) : Bool := e.liveness = .active && e.deadlinePassed now
  (t.updateLiveness fun _ e => if due e then .expired else e.liveness,
    (t.entries.entries.filter fun x => due x.2).map (·.1))

def revoke (t : GrantTable) (grant : GrantId) : GrantTable × Bool :=
  match t.entryOf grant with
  | some entry => if entry.liveness ≠ .revoked then (t.setLiveness grant .revoked, true) else (t, false)
  | none => (t, false)

/-- Revoke every row of a principal; the ids in ascending order. -/
def revokePrincipal (t : GrantTable) (principal : PrincipalIdentity) : GrantTable × List GrantId :=
  let hit (e : Entry) : Bool := e.row.principalId = principal && e.liveness ≠ .revoked
  (t.updateLiveness fun _ e => if hit e then .revoked else e.liveness,
    (t.entries.entries.filter fun x => hit x.2).map (·.1))

def remove (t : GrantTable) (grant : GrantId) : GrantTable × Bool :=
  ({ entries := t.entries.erase grant
     nextId := t.nextId
     deadManSealed := t.deadManSealed
     keyed := fun id e h => t.keyed id e (OrdMap.get?_erase_eq_some.mp h).2 },
    (t.entryOf grant).isSome)

def get (t : GrantTable) (grant : GrantId) (now : Instant) : Option (GrantRow × GrantState) :=
  (t.entryOf grant).map fun e => (e.row, e.stateAt now)

def rows (t : GrantTable) (now : Instant) : List (GrantRow × GrantState) :=
  t.entries.entries.map fun x => (x.2.row, x.2.stateAt now)

end GrantTable

/-! ### What the operations do to a row

A stored state moves down and never up: from active anywhere, from anywhere to revoked. -/

/-- `l'` is a state a row in state `l` may move to. -/
def Liveness.Below (l' l : Liveness) : Prop := l' = l ∨ l = .active ∨ l' = .revoked

theorem Liveness.Below.trans {l l' l'' : Liveness} (h₁ : l'.Below l) (h₂ : l''.Below l') : l''.Below l := by
  rcases h₂ with rfl | rfl | rfl
  · exact h₁
  · rcases h₁ with rfl | rfl | h
    · exact .inr (.inl rfl)
    · exact .inr (.inl rfl)
    · exact absurd h (by decide)
  · exact .inr (.inr rfl)

/-- The same row, at a state it may move to. -/
structure Entry.Below (e' e : Entry) : Prop where
  row : e'.row = e.row
  deadline : e'.deadline = e.deadline
  liveness : e'.liveness.Below e.liveness

variable {e' : Entry}

namespace Entry.Below

theorem refl (e : Entry) : e.Below e := ⟨rfl, rfl, .inl rfl⟩

theorem trans {e'' : Entry} (h₁ : e'.Below e) (h₂ : e''.Below e') : e''.Below e :=
  ⟨h₂.row.trans h₁.row, h₂.deadline.trans h₁.deadline, h₁.liveness.trans h₂.liveness⟩

variable (h : e'.Below e)

include h

theorem active (ha : e'.liveness = .active) : e.liveness = .active := by
  rcases h.liveness with h | h | h
  · exact h ▸ ha
  · exact h
  · exact absurd (h.symm.trans ha) (by decide)

theorem revoked (hr : e.liveness = .revoked) : e'.liveness = .revoked := by
  rcases h.liveness with h | h | h
  · exact h.trans hr
  · exact absurd (hr.symm.trans h) (by decide)
  · exact h

theorem live (hl : e'.Live now) : e.Live now :=
  ⟨h.active hl.1, by simpa only [Entry.deadlinePassed, h.deadline] using hl.2⟩

end Entry.Below

namespace GrantTable

/-- `t'` has the rows of `t`, each at a state it may move to. -/
structure Relives (t t' : GrantTable) : Prop where
  nextId : t'.nextId = t.nextId
  deadManSealed : t'.deadManSealed = t.deadManSealed
  entries : ∀ id, Option.Rel (fun e e' => Entry.Below e' e) (t.entryOf id) (t'.entryOf id)

theorem Relives.refl (t : GrantTable) : t.Relives t where
  nextId := rfl
  deadManSealed := rfl
  entries id := by
    cases t.entryOf id with
    | none => exact .none
    | some e => exact .some (.refl e)

variable {t' : GrantTable}

theorem Relives.trans {t'' : GrantTable} (h₁ : t.Relives t') (h₂ : t'.Relives t'') : t.Relives t'' where
  nextId := h₂.nextId.trans h₁.nextId
  deadManSealed := h₂.deadManSealed.trans h₁.deadManSealed
  entries id := by
    have hr₁ := h₁.entries id
    have hr₂ := h₂.entries id
    revert hr₁ hr₂
    cases t.entryOf id <;> cases t'.entryOf id <;> cases t''.entryOf id <;> intro hr₁ hr₂ <;>
      first | exact .none | (cases hr₁; done) | (cases hr₂; done) | skip
    cases hr₁ with
    | some hb₁ => cases hr₂ with
      | some hb₂ => exact .some (hb₁.trans hb₂)

theorem updateLiveness_relives (h : ∀ id e, t.entryOf id = some e → (f id e).Below e.liveness) :
    t.Relives (t.updateLiveness f) where
  nextId := rfl
  deadManSealed := rfl
  entries id := by
    rw [entryOf_updateLiveness]
    cases he : t.entryOf id with
    | none => exact .none
    | some e => exact .some ⟨rfl, rfl, h id e he⟩

variable {g : GrantId}

theorem setLiveness_relives {l : Liveness} (h : ∀ e, t.entryOf g = some e → l.Below e.liveness) :
    t.Relives (t.setLiveness g l) := by
  refine updateLiveness_relives fun id e he => ?_
  split
  · rename_i hi
    exact h e (hi ▸ he)
  · exact .inl rfl

theorem entryOf_commitUse : (t.commitUse g).1.entryOf id = if id = g
      then (t.entryOf id).map fun e =>
        if e.row.persistence = .once ∧ e.liveness = .active then { e with liveness := .spent } else e
      else t.entryOf id := by
  unfold commitUse
  by_cases hi : id = g
  · subst hi
    cases he : t.entryOf id with
    | none => simp [he]
    | some e =>
      simp only
      split
      · rename_i hs
        simp [setLiveness, entryOf_updateLiveness, he, hs]
      · rename_i hs
        simp [he, hs]
  · rw [if_neg hi]
    split
    · split
      · simp [setLiveness, entryOf_updateLiveness, hi]
      · rfl
    · rfl

section

variable (t : GrantTable)

theorem commitUse_relives (g : GrantId) : t.Relives (t.commitUse g).1 := by
  unfold commitUse
  split
  · rename_i en he
    split
    · rename_i hc
      refine setLiveness_relives fun e he' => ?_
      rw [he] at he'
      exact .inr (.inl (Option.some.inj he' ▸ hc.2))
    · exact .refl t
  · exact .refl t

theorem expireDue_relives (now : Instant) : t.Relives (t.expireDue now).1 := by
  refine updateLiveness_relives fun id e _ => ?_
  split
  · rename_i hd
    simp only [Bool.and_eq_true, decide_eq_true_eq] at hd
    exact .inr (.inl hd.1)
  · exact .inl rfl

theorem revoke_relives (g : GrantId) : t.Relives (t.revoke g).1 := by
  unfold revoke
  split
  · split
    · exact setLiveness_relives fun e _ => .inr (.inr rfl)
    · exact .refl t
  · exact .refl t

theorem revokePrincipal_relives (p : PrincipalIdentity) : t.Relives (t.revokePrincipal p).1 := by
  refine updateLiveness_relives fun id e _ => ?_
  split
  · exact .inr (.inr rfl)
  · exact .inl rfl

end

/-! ### Minting and dropping -/

theorem entryOf_push (h : e.row.grantId = t.nextId) :
    (t.push e h).entryOf id = if id = t.nextId then some e else t.entryOf id :=
  OrdMap.get?_insert

variable {i : Instant}

/-- A minted row is the spec's, under the next id; its deadline is the spec's lifetime from now. -/
theorem insert_eq_ok {s : GrantSpec} (h : t.insert s i = .ok (t', id)) :
    id = t.nextId ∧ ∃ n, t' = t.push (t.mintEntry s i (s.expiry.map (i + ·)) n)
        (t.mintEntry_grantId ..) := by
  unfold insert at h
  split at h
  · cases h
  · rename_i hv
    split at h
    · rename_i ex hx
      split at h
      · rename_i d hd
        have hdl : i + ex = d := by
          unfold checkedAdd at hd
          split at hd
          · exact Option.some.inj hd
          · cases hd
        cases h
        exact ⟨rfl, hv, by simp [hx, hdl]⟩
      · cases h
    · rename_i hx
      cases h
      exact ⟨rfl, hv, by simp [hx]⟩

theorem entryOf_remove : (t.remove g).1.entryOf id = if id = g then none else t.entryOf id := OrdMap.get?_erase

/-! ### What an allowed use rests on -/

variable {p : PrincipalIdentity}

theorem checkUseGrant_eq_ok_iff {a : Allowed} :
    t.checkUseGrant g p v now = .ok a ↔ v.bits ≠ 0#32 ∧ ∃ e, t.entryOf g = some e ∧ e.row.principalId = p ∧
        e.row.verbs.contains v = true ∧ e.Live now ∧ a = ⟨g, e.row.constraints.maxEventRate⟩ := by
  unfold checkUseGrant
  by_cases hv : v.bits = 0#32
  · simp [hv]
  · rw [if_neg hv]
    cases he : t.entryOf g with
    | none => simp
    | some e =>
      by_cases hp : e.row.principalId = p
      · subst hp
        cases hr : e.refusalFor v now with
        | some r =>
          have hn : e.row.verbs.contains v = true → ¬ e.Live now := fun hc hl => by
            rw [Entry.refusalFor_eq_none_iff.mpr ⟨hc, hl⟩] at hr
            cases hr
          simpa [hr] using fun _ hc hl => absurd hl (hn hc)
        | none =>
          obtain ⟨hc, hl⟩ := Entry.refusalFor_eq_none_iff.mp hr
          simp [hr, hv, hc, hl, @eq_comm _ a]
      · simp [hp]

/-- What one entry can do to the search: nothing to the chosen row, or take its place as a live
row of the principal. -/
theorem scanEntry_chosen (p : PrincipalIdentity) (r : RealmId) (res : ResourceRef) (v : Verb)
    (now : Instant) (a : Option RefusalReason × Option (GrantId × PersistenceRung)) (x : GrantId × Entry) :
    (scanEntry p r res v now a x).2 = a.2 ∨ (scanEntry p r res v now a x).2 = some (x.1, x.2.row.persistence) ∧
        x.2.row.principalId = p ∧ x.2.refusalFor v now = none := by
  simp only [scanEntry]
  by_cases hm : x.2.row.principalId ≠ p ∨ x.2.row.realmId ≠ r ∨ (!x.2.row.resourceRef.covers res) = true
  · exact .inl (by rw [if_pos hm])
  · rw [if_neg hm]
    have hp : x.2.row.principalId = p := by
      by_contra hp
      exact hm (.inl hp)
    cases hr : x.2.refusalFor v now with
    | some re => exact .inl rfl
    | none =>
      simp only
      cases replaces a.2 x.2.row.persistence
      · exact .inl rfl
      · exact .inr ⟨rfl, hp, trivial⟩

variable {res : ResourceRef}

/-- The row the search ends with is a live row of the principal. -/
theorem foldl_scanEntry_chosen {re : RealmId} {l : List (GrantId × Entry)}
    (a : Option RefusalReason × Option (GrantId × PersistenceRung)) (hl : ∀ x ∈ l, t.entryOf x.1 = some x.2)
    (ha : ∀ id r, a.2 = some (id, r) → ∃ e, t.entryOf id = some e ∧ e.row.principalId = p ∧
      e.row.persistence = r ∧ e.refusalFor v now = none) :
    ∀ id r, (l.foldl (scanEntry p re res v now) a).2 = some (id, r) →
      ∃ e, t.entryOf id = some e ∧ e.row.principalId = p ∧ e.row.persistence = r ∧
        e.refusalFor v now = none := by
  induction l generalizing a with
  | nil => exact ha
  | cons x l ih =>
    refine ih _ (fun y hy => hl y (.tail _ hy)) fun id r h => ?_
    rcases scanEntry_chosen p re res v now a x with hs | ⟨hs, hp, hr⟩
    · exact ha id r (hs ▸ h)
    · rw [hs] at h
      cases h
      exact ⟨x.2, hl x (.head _), hp, rfl, hr⟩

theorem checkUse_ok {r : RealmId} {a : Allowed} (h : (t.checkUse p r res v now).2 = .ok a) :
    ∃ e, t.entryOf a.grantId = some e ∧ e.row.principalId = p ∧ e.refusalFor v now = none := by
  unfold checkUse at h
  split at h
  · cases h
  · simp only at h
    split at h
    · rename_i id ru hf
      split at h
      · rename_i en he
        obtain ⟨e, he', hp, -, hr⟩ := foldl_scanEntry_chosen (t := t) (none, none)
          (fun x hx => OrdMap.mem_entries_iff.mp hx) (by simp) id ru hf
        cases h
        exact ⟨e, he', hp, hr⟩
      · cases h
    · cases h

theorem checkUse_relives (t : GrantTable) (p : PrincipalIdentity) (r : RealmId) (res : ResourceRef)
    (v : Verb) (now : Instant) : t.Relives (t.checkUse p r res v now).1 := by
  unfold checkUse
  split
  · exact .refl t
  · simp only
    split
    · rename_i id ru hf
      obtain ⟨e, he, -, -, hr⟩ := foldl_scanEntry_chosen (t := t) (none, none)
        (fun x hx => OrdMap.mem_entries_iff.mp hx) (by simp) id ru hf
      split
      · simp only
        split
        · refine setLiveness_relives fun e' he' => .inr (.inl ?_)
          rw [he] at he'
          exact Option.some.inj he' ▸ (Entry.refusalFor_eq_none_iff.mp hr).2.1
        · exact .refl t
      · exact .refl t
    · exact .refl t

/-! ### Evolution of a table -/

/-- `t'` is a later state of `t`: an id minted before names the same row, no more alive than it was,
and a sealed table mints only revoked rows. -/
structure Evolves (t t' : GrantTable) : Prop where
  nextId : t.nextId ≤ t'.nextId
  deadManSealed : t.deadManSealed = true → t'.deadManSealed = true
  old : ∀ id e', t'.entryOf id = some e' → id < t.nextId → ∃ e, t.entryOf id = some e ∧ e'.Below e
  new : ∀ id e', t'.entryOf id = some e' → t.nextId ≤ id → t.deadManSealed = true → e'.liveness = .revoked

namespace Evolves

theorem refl (t : GrantTable) : t.Evolves t where
  nextId := le_rfl
  deadManSealed := id
  old _ e h _ := ⟨e, h, .refl e⟩
  new _ _ h hi := absurd (lt_nextId h) (not_lt.mpr hi)

theorem trans {t'' : GrantTable} (h₁ : t.Evolves t') (h₂ : t'.Evolves t'') : t.Evolves t'' where
  nextId := h₁.nextId.trans h₂.nextId
  deadManSealed h := h₂.deadManSealed (h₁.deadManSealed h)
  old id e'' h hi := by
    obtain ⟨e', he', hb'⟩ := h₂.old id e'' h (hi.trans_le h₁.nextId)
    obtain ⟨e, he, hb⟩ := h₁.old id e' he' hi
    exact ⟨e, he, hb.trans hb'⟩
  new id e'' h hi hs := by
    by_cases hi' : id < t'.nextId
    · obtain ⟨e', he', hb'⟩ := h₂.old id e'' h hi'
      exact hb'.revoked (h₁.new id e' he' hi hs)
    · exact h₂.new id e'' h (not_lt.mp hi') (h₁.deadManSealed hs)

end Evolves

theorem Relives.below (h : t.Relives t') (he' : t'.entryOf id = some e') : ∃ e, t.entryOf id = some e ∧ e'.Below e := by
  have hr := h.entries id
  rw [he'] at hr
  cases he : t.entryOf id with
  | none => simp [he] at hr
  | some e => exact ⟨e, rfl, by simpa [he] using hr⟩

theorem Relives.evolves (h : t.Relives t') : t.Evolves t' where
  nextId := h.nextId.ge
  deadManSealed hs := h.deadManSealed.trans hs
  old _ _ he' _ := h.below he'
  new _ _ he' hi := absurd (lt_nextId he') (h.nextId ▸ not_lt.mpr hi)

theorem remove_evolves (t : GrantTable) (g : GrantId) : t.Evolves (t.remove g).1 where
  nextId := le_rfl
  deadManSealed := id
  old id e' he' _ := by
    rw [entryOf_remove] at he'
    split at he'
    · cases he'
    · exact ⟨e', he', .refl e'⟩
  new _ _ he' hi := absurd (lt_nextId he') (by simpa [remove] using hi)

theorem sealDeadMan_evolves (t : GrantTable) : t.Evolves t.sealDeadMan where
  nextId := le_rfl
  deadManSealed _ := rfl
  old _ e' he' _ := ⟨e', he', .refl e'⟩
  new _ _ he' hi := absurd (lt_nextId (t := t) he') (not_lt.mpr hi)

theorem insert_evolves {s : GrantSpec} (h : t.insert s i = .ok (t', id)) : t.Evolves t' := by
  obtain ⟨-, n, rfl⟩ := insert_eq_ok h
  refine ⟨Nat.le_succ _, fun hs => hs, fun i' e' he' hi => ?_, fun i' e' he' hi hs => ?_⟩
  · rw [entryOf_push, if_neg hi.ne] at he'
    exact ⟨e', he', .refl e'⟩
  · rw [entryOf_push] at he'
    split at he'
    · cases he'
      simp [mintEntry, hs]
    · exact absurd (lt_nextId he') (not_lt.mpr hi)

end GrantTable

end Vitrin
