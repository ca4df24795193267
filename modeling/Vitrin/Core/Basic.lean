import Mathlib.Order.Nat
import Mathlib.Data.BitVec

/-!
# Instants, names, verbs and codes

The values every part of the core passes around: points of the monotonic clock,
the identities and names authority is stated over, the verb set a grant confers,
and the small enumerations the wire protocol shares between a petition's outcome
and a use's refusal.

An instant is a number of nanoseconds since the clock's origin. The standard
library's instant counts whole seconds in a signed 64-bit field, so the one way an
addition can fail is `Instant.bound`; `checkedAdd` keeps that failure. Identifiers
minted from a 64-bit counter are plain numbers. A `Verb` is a 32-bit set that
carries the proof that only defined bits are set, which is what the wire decoder
checks before one exists.
-/

namespace Vitrin

/-! ### The clock -/

/-- A point of the monotonic clock, in nanoseconds. -/
abbrev Instant := Nat

/-- A length of time, in nanoseconds. -/
abbrev Duration := Nat

def secs (n : Nat) : Duration := n * 1000000000

def millis (n : Nat) : Duration := n * 1000000

/-- The first instant that is not representable: seconds are a signed 64-bit count. -/
def Instant.bound : Nat := 2 ^ 63 * 1000000000

def checkedAdd (t : Instant) (d : Duration) : Option Instant :=
  if t + d < Instant.bound then some (t + d) else none

/-! ### Machine integers -/

/-- The value a saturating conversion or operation leaves in a signed field of `w + 1` bits. -/
def saturate (w : Nat) (n : Int) : Int := max (-2 ^ w) (min n (2 ^ w - 1))

/-! ### Names -/

/-- The canonical form of a verified principal identity. -/
structure PrincipalIdentity where
  text : String
  deriving DecidableEq

/-- A realm's identifier, which is its configured or minted name. -/
structure RealmId where
  name : String
  deriving DecidableEq

/-- The key of a grant row, minted from a counter. -/
abbrev GrantId := Nat

/-- A principal connection, minted from a counter. -/
abbrev ConnectionId := Nat

abbrev PetitionId := Nat

abbrev DesignationId := Nat

/-- An object's id on one connection. -/
abbrev WireId := Nat

structure NonZeroU32 where
  val : UInt32
  ne : val ≠ 0
  deriving DecidableEq

theorem NonZeroU32.twenty : (20 : UInt32) ≠ 0 := by decide

def NonZeroU32.new (n : UInt32) : Option NonZeroU32 :=
  if h : n = 0 then none else some ⟨n, h⟩

theorem NonZeroU32.pos (n : NonZeroU32) : 0 < n.val.toNat := by
  rcases Nat.eq_zero_or_pos n.val.toNat with h | h
  · exact absurd (UInt32.toNat_inj.mp h) n.ne
  · exact h

/-! ### Verbs -/

/-- The bits the protocol defines (`Verb::VALID_MASK`). -/
def Verb.validMask : BitVec 32 := 1 ||| 2 ||| 4 ||| 8 ||| 16 ||| 32 ||| 64 ||| 128 ||| 512

/-- A set of verbs: 32 bits, of which only defined ones are set. -/
structure Verb where
  bits : BitVec 32
  /-- No undefined bit is set; `Verb::from_bits` refuses to decode any other value. -/
  valid : bits &&& ~~~Verb.validMask = 0#32 := by decide
  deriving DecidableEq

namespace Verb

/-- Read a realm's content. -/
def observe : Verb := ⟨1, by decide⟩

def actuatePointer : Verb := ⟨2, by decide⟩

def actuateText : Verb := ⟨4, by decide⟩

def layoutArrange : Verb := ⟨16, by decide⟩

def layoutFocus : Verb := ⟨32, by decide⟩

def designateFile : Verb := ⟨64, by decide⟩

/-- Reach the network; defined and not served. -/
def egress : Verb := ⟨128, by decide⟩

def realmLaunch : Verb := ⟨512, by decide⟩

/-- The verbs a petition may name and have honoured (`SERVED_VERB_BITS`). -/
def servedBits : BitVec 32 := 1 ||| 2 ||| 4 ||| 16 ||| 32 ||| 64 ||| 512

/-- The verbs the wire defines and no build serves (`UNSERVED_VERB_BITS`). -/
def unservedBits : BitVec 32 := validMask &&& ~~~servedBits

/-- Every bit of `other` is set in `self`. -/
def contains (self other : Verb) : Bool := self.bits &&& other.bits == other.bits

theorem contains_iff {a b : Verb} : a.contains b = true ↔ a.bits &&& b.bits = b.bits := by
  simp [contains]

@[simp] theorem contains_self (a : Verb) : a.contains a = true := by
  simp [contains_iff]

theorem contains_trans {a b c : Verb} (ha : a.contains b) (hb : b.contains c) : a.contains c := by
  rw [contains_iff] at *
  rw [← hb, ← BitVec.and_assoc, ha]

end Verb

/-! ### Shared enumerations -/

/-- The persistence rung a petition states on the wire. -/
inductive WirePersistence where
  | once
  | whileRunning
  | untilRevoked
  | always
  deriving DecidableEq

/-- The persistence rungs a grant can carry. -/
inductive PersistenceRung where
  /-- Spent by its first admitted use. -/
  | once
  | whileRunning
  deriving DecidableEq

namespace PersistenceRung

def rank : PersistenceRung → Nat
  | once => 0
  | whileRunning => 1

/-- Every rung (`PersistenceRung::ALL`). -/
def all : List PersistenceRung := [once, whileRunning]

/-- `self` lives no longer than `requested`. -/
def narrows (self requested : PersistenceRung) : Bool := self.rank ≤ requested.rank

@[simp] theorem narrows_refl (r : PersistenceRung) : r.narrows r = true := by
  simp [narrows]

/-- `PersistenceRung::try_from`: the durable rungs need provenance this version cannot verify. -/
def tryFrom : WirePersistence → Except WirePersistence PersistenceRung
  | .once => .ok once
  | .whileRunning => .ok whileRunning
  | .untilRevoked => .error .untilRevoked
  | .always => .error .always

def toWire : PersistenceRung → WirePersistence
  | once => .once
  | whileRunning => .whileRunning

theorem tryFrom_eq_ok_iff {w : WirePersistence} {r : PersistenceRung} : tryFrom w = .ok r ↔ w = r.toWire := by
  cases w <;> cases r <;> simp [tryFrom, toWire]

end PersistenceRung

/-- How a petition ended (`vitrin_grant.outcome`). -/
inductive Outcome where
  | granted
  | denied
  | timedOut
  /-- The named realm does not exist or takes no petitions. -/
  | unavailable
  /-- The petition asks for something this version does not do. -/
  | unsupported
  | busy
  | layoutHeld
  deriving DecidableEq

/-- Why a use was refused (`vitrin_grant.refusal`). -/
inductive Refusal where
  | notGranted
  | expired
  | revoked
  /-- The row's bucket is empty. -/
  | rateLimited
  /-- The human's hand is on the target. -/
  | preempted
  | consentHeld
  | noSurface
  | internal
  | capacity
  deriving DecidableEq

end Vitrin
