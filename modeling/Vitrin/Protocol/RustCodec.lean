import Vitrin.Protocol.Schema

/-!
# The Rust codec

The functions that the scanner writes for every message, over the primitives of the
protocol crate.

An encoder returns `none` where the code panics. A decoder can raise a `DecodeError`, or
meet a fault, which is a panic: a slice out of range, an addition that overflows a 64-bit
`usize`, or a descriptor that is not there. The header is read after its length was
checked, and `FrameHeader.decode` has no fault to meet. What is accepted as a text is a
parameter of the decoder (`TextRule`): `decode` takes NUL-free UTF-8.

`decodeWith_eq_ok`: a message is decoded exactly when the bytes are its frame, its
arguments are ones that are accepted, and there is a descriptor if it has one. The proof
goes up from words and strings, and each function gets such an equivalence, with `Spans`
for the bytes between two positions. `encode_eq_some` says the same of the encoder. Both
round trips follow (`decode_encode`, `encode_decode`).
-/

namespace Vitrin.Protocol

open Lib
open Item (wire)

/-! ### Writing -/

def writeUint (out : List UInt8) (v : UInt32) : List UInt8 := out ++ leBytes 4 v.toNat

def writeInt (out : List UInt8) (v : Int32) : List UInt8 := out ++ leBytes 4 v.toUInt32.toNat

def utf8Bytes (s : String) : List UInt8 := s.toByteArray.data.toList

/-- A string longer than its bound is the caller's mistake, and a panic. -/
def writeString (out : List UInt8) (s : String) (maxBytes : UInt32) : Option (List UInt8) :=
  if (utf8Bytes s).length ≤ maxBytes.toNat then
    let out := writeUint out (.ofNat (utf8Bytes s).length)
    some (out ++ utf8Bytes s ++ List.replicate (padLen (utf8Bytes s).length) 0)
  else none

def FrameHeader.encodeWithPlaceholderSize (h : FrameHeader) (out : List UInt8) : List UInt8 :=
  out ++ leBytes 4 h.objectId.toNat ++ leBytes 2 0 ++ [h.opcode] ++ [h.fdCount]

/-- Overwrite the `size` field of an already encoded frame. A frame that is too long for it is a panic. -/
def patchSize (out : List UInt8) : Option (List UInt8) :=
  if out.length ≤ 65535 ∧ 6 ≤ out.length then some (out.take 4 ++ leBytes 2 out.length ++ out.drop 6) else none

def encodeArg (out : List UInt8) {a : Arg} : Value String a → Option (List UInt8)
  | .int v => some (writeInt out v)
  | .intEnum v => some (writeInt out v.1.toInt32)
  | .uint v => some (writeUint out v)
  | .uintEnum v => some (writeUint out v.1)
  | .fixed bits => some (writeInt out bits)
  | @Value.string _ maxBytes _ s => writeString out s maxBytes
  | .object id => some (writeUint out id)
  | .nullable id => some (writeUint out (id.getD 0))
  | .newId id => some (writeUint out id)
  | .fd _ => some out

def encodeArgs : (out : List UInt8) → {as : List Arg} → Args (Value String) as → Option (List UInt8)
  | out, [], .nil => some out
  | out, _ :: _, .cons v vs => do
    let out ← encodeArg out v
    encodeArgs out vs

/-- `encode` of a generated message; `none` is a panic. -/
def encode (m : Message) (objectId : UInt32) (vs : Args (Value String) m.args) : Option (List UInt8) := do
  let out := FrameHeader.encodeWithPlaceholderSize ⟨objectId, 0, m.opcode, m.hasFd.toNat.toUInt8⟩ []
  let out ← encodeArgs out vs
  patchSize out

/-! ### Reading -/

/-- Which byte strings are accepted as strings, and what they become. -/
structure TextRule (σ : Type) where
  check : List UInt8 → Except DecodeError σ
  bytes : σ → List UInt8
  sound : ∀ {raw : List UInt8} {s : σ}, check raw = .ok s → bytes s = raw

/-- The checks of `read_string`. -/
def checkText (raw : List UInt8) : Except DecodeError String :=
  if raw.contains 0 then .error .embeddedNul
  else match String.fromUTF8? raw.toByteArray with
    | some s => .ok s
    | none => .error .invalidUtf8

variable {raw : List UInt8} {s : String}

theorem checkText_sound (h : checkText raw = .ok s) : utf8Bytes s = raw := by
  unfold checkText at h
  split at h
  · cases h
  · split at h
    · next t ht =>
      cases h
      unfold String.fromUTF8? at ht
      split at ht
      · cases ht
        exact congrArg Array.toList List.data_toByteArray
      · cases ht
    · cases h

theorem fromUTF8_utf8Bytes : String.fromUTF8? (utf8Bytes s).toByteArray = some s := by
  have hb : (utf8Bytes s).toByteArray = s.toByteArray := by
    apply ByteArray.ext
    rw [List.data_toByteArray]
    exact Array.toArray_toList
  have hv : (utf8Bytes s).toByteArray.IsValidUTF8 := hb ▸ s.isValidUTF8
  unfold String.fromUTF8?
  rw [dif_pos hv]
  exact congrArg some (String.toByteArray_inj.mp hb)

theorem checkText_utf8Bytes (h : 0 ∉ utf8Bytes s) : checkText (utf8Bytes s) = .ok s := by
  unfold checkText
  rw [if_neg (by simpa using h), fromUTF8_utf8Bytes]

def DecodeError.AboutText : DecodeError → Prop
  | .embeddedNul => True
  | .invalidUtf8 => True
  | _ => False

theorem checkText_error {e : DecodeError} (h : checkText raw = .error e) : e.AboutText := by
  unfold checkText at h
  split at h
  · cases h
    trivial
  · split at h
    · cases h
    · cases h
      trivial

/-- Strings are UTF-8 without NUL bytes. -/
def utf8Text : TextRule String := ⟨checkText, utf8Bytes, checkText_sound⟩

def anyText : TextRule (List UInt8) := ⟨.ok, id, fun h => Except.ok.inj h.symm⟩

/-- An addition that the code does not expect to overflow. -/
def usizeAdd (a b : Nat) : Except (Stop DecodeError) Nat := if a + b < 2 ^ 64 then .ok (a + b) else fault

def checkedAdd (a b : Nat) (e : DecodeError) : Except (Stop DecodeError) Nat :=
  if a + b < 2 ^ 64 then .ok (a + b) else raise e

/-- `u32::from_le_bytes`, which takes four bytes. -/
def fromLeBytes (raw : List UInt8) : Except (Stop DecodeError) UInt32 :=
  if raw.length = 4 then .ok (.ofNat (leNat raw)) else fault

def readUint (bytes : List UInt8) (pos : Nat) : Except (Stop DecodeError) (UInt32 × Nat) := do
  let stop ← usizeAdd pos 4
  if stop > bytes.length then raise (.truncated stop bytes.length)
  else do
    let raw ← slice bytes pos stop
    let v ← fromLeBytes raw
    return (v, stop)

def readInt (bytes : List UInt8) (pos : Nat) : Except (Stop DecodeError) (Int32 × Nat) := do
  let (v, pos) ← readUint bytes pos
  return (v.toInt32, pos)

def wordAt (bytes : List UInt8) (pos : Nat) : UInt32 := .ofNat (leNat ((bytes.drop pos).take 4))

variable {bytes : List UInt8}

theorem readUint_eq {pos : Nat} (h : pos + 4 < 2 ^ 64) :
    readUint bytes pos =
      if pos + 4 > bytes.length then raise (.truncated (pos + 4) bytes.length)
      else .ok (wordAt bytes pos, pos + 4) := by
  unfold readUint usizeAdd
  rw [if_pos h, ok_bind]
  by_cases hs : pos + 4 > bytes.length
  · rw [if_pos hs, if_pos hs]
  · have hr : ((bytes.drop pos).take (pos + 4 - pos)).length = 4 := by
      rw [List.length_take, List.length_drop]
      omega
    have hi : pos ≤ pos + 4 ∧ pos + 4 ≤ bytes.length := ⟨Nat.le_add_right _ _, Nat.not_lt.mp hs⟩
    rw [if_neg hs, if_neg hs, slice, if_pos hi, ok_bind, fromLeBytes, if_pos hr, ok_bind, Nat.add_sub_cancel_left]
    rfl

/-- The next `n` bytes, as `read_string` takes a string's bytes and then its padding. -/
def readRaw (bytes : List UInt8) (pos n : Nat) : Except (Stop DecodeError) (List UInt8 × Nat) := do
  let stop ← checkedAdd pos n (.truncated (2 ^ 64 - 1) bytes.length)
  if stop > bytes.length then raise (.truncated stop bytes.length)
  else do
    let raw ← slice bytes pos stop
    return (raw, stop)

theorem readRaw_eq {pos n : Nat} (h : pos + n < 2 ^ 64) :
    readRaw bytes pos n =
      if pos + n > bytes.length then raise (.truncated (pos + n) bytes.length)
      else .ok ((bytes.drop pos).take n, pos + n) := by
  unfold readRaw checkedAdd
  rw [if_pos h, ok_bind]
  by_cases hs : pos + n > bytes.length
  · rw [if_pos hs, if_pos hs]
  · have hi : pos ≤ pos + n ∧ pos + n ≤ bytes.length := ⟨Nat.le_add_right _ _, Nat.not_lt.mp hs⟩
    rw [if_neg hs, if_neg hs, slice, if_pos hi, ok_bind, Nat.add_sub_cancel_left]
    rfl

section Read

variable {σ : Type} (rule : TextRule σ) (bytes : List UInt8)

def readString (pos : Nat) (maxBytes : UInt32) : Except (Stop DecodeError) (σ × Nat) := do
  let (len, pos) ← readUint bytes pos
  if len > maxBytes then raise (.stringTooLong maxBytes len)
  else do
    let (raw, pos) ← readRaw bytes pos len.toNat
    let s ← orRaise (rule.check raw)
    let (padding, pos) ← readRaw bytes pos (padLen len.toNat)
    if padding.any (· != 0) then raise .malformedPadding else return (s, pos)

/-- `from_bits` of a bitfield, `from_wire` of a plain enum. -/
def EnumDef.fromWire (e : EnumDef) (value : UInt32) : Except DecodeError e.Value :=
  if h : e.Defines value then .ok ⟨value, h⟩
  else .error (if e.bitfield then .invalidBitfieldValue e.interface e.name value
    else .invalidEnumValue e.interface e.name value)

def decodeArg (fd : Option Nat) : (a : Arg) → (pos : Nat) → Except (Stop DecodeError) (Value σ a × Nat)
  | ⟨.int none, _⟩, pos => do
    let (v, pos) ← readInt bytes pos
    return (.int v, pos)
  | ⟨.int (some e), _⟩, pos => do
    let (v, pos) ← readInt bytes pos
    let v ← orRaise (e.fromWire v.toUInt32)
    return (.intEnum v, pos)
  | ⟨.uint none, _⟩, pos => do
    let (v, pos) ← readUint bytes pos
    return (.uint v, pos)
  | ⟨.uint (some e), _⟩, pos => do
    let (v, pos) ← readUint bytes pos
    let v ← orRaise (e.fromWire v)
    return (.uintEnum v, pos)
  | ⟨.fixed, _⟩, pos => do
    let (bits, pos) ← readInt bytes pos
    return (.fixed bits, pos)
  | ⟨.string maxBytes, _⟩, pos => do
    let (s, pos) ← readString rule bytes pos maxBytes
    return (.string s, pos)
  | ⟨.object _, true⟩, pos => do
    let (id, pos) ← readUint bytes pos
    return (.nullable (if id = 0 then none else some id), pos)
  | ⟨.object _, false⟩, pos => do
    let (id, pos) ← readUint bytes pos
    if id = 0 then raise .nullObject else return (.object id, pos)
  | ⟨.newId _, _⟩, pos => do
    let (id, pos) ← readUint bytes pos
    return (.newId id, pos)
  | ⟨.fd, _⟩, pos => match fd with
    | some n => return (.fd n, pos)
    | none => fault

def decodeArgs (fd : Option Nat) : (as : List Arg) → (pos : Nat) → Except (Stop DecodeError) (Args (Value σ) as × Nat)
  | [], pos => return (.nil, pos)
  | a :: as, pos => do
    let (v, pos) ← decodeArg rule bytes fd a pos
    let (vs, pos) ← decodeArgs fd as pos
    return (.cons v vs, pos)

/-- `decode` of a generated message, where `rule` decides what is a string. -/
def decodeWith (m : Message) (fd : Option Nat) : Except (Stop DecodeError) (UInt32 × Args (Value σ) m.args) :=
  if fd.isSome ≠ m.hasFd then raise (.fdCountMismatch m.hasFd.toNat.toUInt8 fd.isSome.toNat.toUInt8)
  else do
    let header ← orRaise (FrameHeader.decode bytes)
    if header.opcode ≠ m.opcode then raise (.opcodeMismatch m.opcode header.opcode)
    else if header.size.toNat ≠ bytes.length then raise (.sizeMismatch header.size bytes.length)
    else if header.fdCount ≠ m.hasFd.toNat.toUInt8 then
      raise (.fdCountMismatch m.hasFd.toNat.toUInt8 header.fdCount)
    else do
      let (vs, pos) ← decodeArgs rule bytes fd m.args headerLen
      if pos ≠ bytes.length then raise (.trailingBytes pos bytes.length)
      else return (header.objectId, vs)

end Read

/-- `decode` of a generated message. -/
def decode (m : Message) (bytes : List UInt8) (fd : Option Nat) :
    Except (Stop DecodeError) (UInt32 × Args (Value String) m.args) := decodeWith utf8Text bytes m fd

/-! ### What is read -/

theorem spans_word {pos sto : Nat} {v : UInt32} :
    Spans bytes pos (leBytes 4 v.toNat) sto ↔
      pos + 4 ≤ bytes.length ∧ v = wordAt bytes pos ∧ sto = pos + 4 := by
  constructor
  · intro h
    have hs := h.stop_eq
    have hl := h.stop_le
    have hc := h.eq_take_drop
    rw [length_leBytes] at hs hc
    refine ⟨by omega, ?_, hs⟩
    rw [wordAt, hc, ofNat_leNat_leBytes]
  · rintro ⟨hl, rfl, rfl⟩
    have hsp := spans_between (Nat.le_add_right pos 4) hl
    rw [Nat.add_sub_cancel_left] at hsp
    rwa [wordAt, leBytes_ofNat_leNat]
    rw [List.length_take, List.length_drop]
    omega

theorem readUint_eq_ok (hlen : bytes.length ≤ 65535) {pos sto : Nat} {v : UInt32} :
    readUint bytes pos = .ok (v, sto) ↔ Spans bytes pos (leBytes 4 v.toNat) sto := by
  rw [spans_word]
  by_cases hp : pos + 4 < 2 ^ 64
  · rw [readUint_eq hp]
    constructor
    · intro h
      split at h
      · exact absurd h raise_ne_ok
      · next hs =>
        cases h
        exact ⟨Nat.not_lt.mp hs, rfl, rfl⟩
    · rintro ⟨hl, rfl, rfl⟩
      rw [if_neg (Nat.not_lt.mpr hl)]
  · constructor
    · intro h
      unfold readUint usizeAdd at h
      rw [if_neg hp] at h
      cases h
    · rintro ⟨hl, -, -⟩
      omega

theorem readInt_eq_ok (hl : bytes.length ≤ 65535) {pos sto : Nat} {v : Int32} :
    readInt bytes pos = .ok (v, sto) ↔ Spans bytes pos (leBytes 4 v.toUInt32.toNat) sto := by
  rw [← readUint_eq_ok hl, readInt, bind_eq_ok]
  constructor
  · rintro ⟨⟨w, p'⟩, hr, h⟩
    cases h
    exact hr
  · intro hr
    exact ⟨_, hr, rfl⟩

theorem readRaw_eq_ok (hlen : bytes.length ≤ 65535) {pos n sto : Nat} :
    readRaw bytes pos n = .ok (raw, sto) ↔ Spans bytes pos raw sto ∧ raw.length = n := by
  by_cases hp : pos + n < 2 ^ 64
  · rw [readRaw_eq hp]
    constructor
    · intro h
      split at h
      · exact absurd h raise_ne_ok
      · next hsh =>
        cases h
        have hs := spans_between (Nat.le_add_right pos n) (Nat.not_lt.mp hsh)
        rw [Nat.add_sub_cancel_left] at hs
        refine ⟨hs, ?_⟩
        have hst := hs.stop_eq
        omega
    · rintro ⟨hs, rfl⟩
      have hst := hs.stop_eq
      have hl := hs.stop_le
      rw [if_neg (by omega), hs.eq_take_drop, hst]
  · constructor
    · intro h
      unfold readRaw checkedAdd at h
      rw [if_neg hp] at h
      cases h
    · rintro ⟨hs, rfl⟩
      have hst := hs.stop_eq
      have hl := hs.stop_le
      omega

theorem any_ne_zero_eq_false {p : List UInt8} : p.any (· != 0) = false ↔ p = List.replicate p.length 0 := by
  rw [List.any_eq_false, List.eq_replicate_iff]
  simp

variable {fd : Option Nat} {a : Arg} {o : UInt32} {m : Message}

section Accepted

variable {σ : Type} {r : TextRule σ} {pos st : Nat}

theorem readString_eq_ok (hl : bytes.length ≤ 65535) {mb : UInt32} {s : σ} :
    readString r bytes pos mb = .ok (s, st) ↔
      Spans bytes pos (wire (.text (r.bytes s))) st ∧ (r.bytes s).length ≤ mb.toNat ∧
        r.check (r.bytes s) = .ok s := by
  simp only [readString, bind_eq_ok, ite_raise_eq_ok, wire, spans_append, Prod.exists, readUint_eq_ok hl,
    readRaw_eq_ok hl, orRaise_eq_ok]
  constructor
  · rintro ⟨l, f, hc, hm, raw, se, ⟨hs, hr⟩, t, ht, p, th, ⟨hp, hpa⟩, hz, h⟩
    cases h
    have hze := any_ne_zero_eq_false.mp (Bool.eq_false_iff.mpr hz)
    rw [r.sound ht, hr, ← hpa, ← hze]
    refine ⟨⟨se, ⟨f, hc, hs⟩, hp⟩, ?_, ht⟩
    exact UInt32.le_iff_toNat_le.mp (UInt32.not_lt.mp hm)
  · rintro ⟨⟨se, ⟨f, hc, hs⟩, hp⟩, hm, hch⟩
    have hsm : (r.bytes s).length < 2 ^ 32 := Nat.lt_of_le_of_lt hm mb.toNat_lt
    have hw : (UInt32.ofNat (r.bytes s).length).toNat = (r.bytes s).length := UInt32.toNat_ofNat_of_lt' hsm
    have hwi : ¬ UInt32.ofNat (r.bytes s).length > mb := by
      rw [gt_iff_lt, UInt32.lt_iff_toNat_lt, hw]
      exact Nat.not_lt.mpr hm
    have hz : ¬ (List.replicate (padLen (r.bytes s).length) (0 : UInt8)).any (· != 0) = true := by
      rw [Bool.not_eq_true, any_ne_zero_eq_false, List.length_replicate]
    refine ⟨UInt32.ofNat (r.bytes s).length, f, hw.symm ▸ hc, hwi, ?_⟩
    rw [hw]
    exact ⟨r.bytes s, se, ⟨hs, rfl⟩, s, hch, List.replicate (padLen (r.bytes s).length) 0, st,
      ⟨hp, List.length_replicate⟩, hz, rfl⟩

/-- What `decode` accepts as the value of an argument. -/
def Value.Accepted (rule : TextRule σ) (fd : Option Nat) {a : Arg} : Value σ a → Prop
  | @Value.string _ maxBytes _ s => (rule.bytes s).length ≤ maxBytes.toNat ∧ rule.check (rule.bytes s) = .ok s
  | .object id => id ≠ 0
  | .nullable id => id ≠ some 0
  | .fd n => fd = some n
  | _ => True

theorem Value.Accepted.bounded (v : Value σ a) (h : v.Accepted r fd) : v.Bounded r.bytes := by
  cases v with
  | string s => exact h.1
  | _ => trivial

theorem fromWire_eq_ok {e : EnumDef} {va : UInt32} {v : e.Value} : e.fromWire va = .ok v ↔ v.1 = va := by
  unfold EnumDef.fromWire
  constructor
  · intro h
    split at h
    · cases h
      rfl
    · cases h
  · rintro rfl
    exact dif_pos v.2

theorem decodeArg_eq_ok (hl : bytes.length ≤ 65535) (hp : pos ≤ bytes.length) {v : Value σ a} :
    decodeArg r bytes fd a pos = .ok (v, st) ↔
      Spans bytes pos (v.item r.bytes).wire st ∧ v.Accepted r fd := by
  cases v with
  | int | fixed => simp [decodeArg, bind_eq_ok, readInt_eq_ok hl, Value.item, Value.Accepted, wire]
  | intEnum v =>
    simp only [decodeArg, bind_eq_ok, Prod.exists, readInt_eq_ok hl, orRaise_eq_ok, fromWire_eq_ok]
    constructor
    · rintro ⟨w, p', hs, v', hw, h⟩
      cases h
      rw [← hw] at hs
      exact ⟨hs, trivial⟩
    · rintro ⟨hs, -⟩
      exact ⟨v.1.toInt32, st, hs, v, rfl, rfl⟩
  | uint | newId => simp [decodeArg, bind_eq_ok, readUint_eq_ok hl, Value.item, Value.Accepted, wire]
  | uintEnum v =>
    simp [decodeArg, bind_eq_ok, readUint_eq_ok hl, Value.item, Value.Accepted, wire, orRaise_eq_ok,
      fromWire_eq_ok]
  | string s => simp [decodeArg, bind_eq_ok, readString_eq_ok hl, Value.item, Value.Accepted]
  | object id =>
    simp only [decodeArg, bind_eq_ok, Prod.exists, readUint_eq_ok hl]
    constructor
    · rintro ⟨w, p', hs, h⟩
      split at h
      · exact absurd h raise_ne_ok
      · next hn =>
        cases h
        exact ⟨hs, hn⟩
    · rintro ⟨hs, hn⟩
      exact ⟨id, st, hs, if_neg hn⟩
  | nullable id =>
    simp only [decodeArg, bind_eq_ok, Prod.exists, readUint_eq_ok hl]
    constructor
    · rintro ⟨w, p', hs, h⟩
      cases h
      -- Zero is read as no id, and every other word as an id.
      by_cases hz : w = 0
      · subst hz
        exact ⟨hs, Option.some_ne_none 0 ∘ Eq.symm⟩
      · rw [if_neg hz]
        exact ⟨hs, fun h => hz (Option.some.inj h)⟩
    · rintro ⟨hs, hn⟩
      refine ⟨id.getD 0, st, hs, ?_⟩
      cases id with
      | none => rfl
      | some id =>
        have hi : ¬ id = 0 := fun h => hn (congrArg some h)
        rw [Option.getD_some, if_neg hi]
        rfl
  | fd n =>
    change _ ↔ Spans bytes pos [] st ∧ fd = some n
    rw [spans_nil]
    cases fd with
    | none => simp [decodeArg]
    | some n' => simp [decodeArg, hp, eq_comm, and_comm]

theorem decodeArgs_eq_ok (hl : bytes.length ≤ 65535) {as : List Arg} {vs : Args (Value σ) as}
    (hp : pos ≤ bytes.length) :
    decodeArgs r bytes fd as pos = .ok (vs, st) ↔
      Spans bytes pos ((vs.items r.bytes).flatMap wire) st ∧ vs.All fun v => v.Accepted r fd := by
  induction vs generalizing pos with
  | nil =>
    change _ ↔ Spans bytes pos [] st ∧ True
    rw [spans_nil]
    simp [decodeArgs, hp, eq_comm]
  | cons v vs ih =>
    change _ ↔ Spans bytes pos ((v.item r.bytes).wire ++ (vs.items r.bytes).flatMap wire) st ∧
      v.Accepted r fd ∧ vs.All fun v => v.Accepted r fd
    rw [spans_append]
    simp only [decodeArgs, bind_eq_ok, Prod.exists]
    constructor
    · rintro ⟨v', mi, hv, vs', s', hvs, h⟩
      cases h
      obtain ⟨hs, ha⟩ := (decodeArg_eq_ok hl hp).mp hv
      obtain ⟨hsp, hal⟩ := (ih hs.stop_le).mp hvs
      exact ⟨⟨mi, hs, hsp⟩, ha, hal⟩
    · rintro ⟨⟨mi, hs, hsp⟩, ha, hal⟩
      exact ⟨v, mi, (decodeArg_eq_ok hl hp).mpr ⟨hs, ha⟩, vs, st, (ih hs.stop_le).mpr ⟨hsp, hal⟩, rfl⟩

theorem decodeWith_eq_ok {vs : Args (Value σ) m.args} :
    decodeWith r bytes m fd = .ok (o, vs) ↔
      bytes = frame m o (vs.items r.bytes) ∧ fd.isSome = m.hasFd ∧ vs.All fun v => v.Accepted r fd := by
  simp only [decodeWith, bind_eq_ok, ite_raise_eq_ok, orRaise_eq_ok, FrameHeader.decode_eq_ok, Prod.exists,
    Decidable.not_not]
  constructor
  · rintro ⟨hf, header, hh, hop, hs, hc, v', pos, har, hal, h⟩
    cases h
    have hl : bytes.length ≤ 65535 := hs ▸ Nat.le_of_lt_succ header.size.toNat_lt
    obtain ⟨hsp, ha⟩ := (decodeArgs_eq_ok hl hh.stop_le).mp har
    refine ⟨?_, hf, ha⟩
    have hw : bytes = header.wire ++ (vs.items r.bytes).flatMap wire :=
      spans_whole.mp (spans_append.mpr ⟨headerLen, hh, hal ▸ hsp⟩)
    have hp : bytes.length = headerLen + ((vs.items r.bytes).flatMap wire).length := hal ▸ hsp.stop_eq
    have hs' : UInt16.ofNat (headerLen + ((vs.items r.bytes).flatMap wire).length) = header.size := by
      rw [← hp, ← hs, UInt16.ofNat_toNat]
    rw [frame, Message.header, hs', ← hop, ← hc]
    exact hw
  · rintro ⟨hb, hf, ha⟩
    have hl : bytes.length ≤ 65535 := hb ▸ length_frame_le (ha.imp Value.Accepted.bounded) o
    have hs : (m.header o ((vs.items r.bytes).flatMap wire).length).size.toNat = bytes.length := by
      rw [hb, length_frame] at hl ⊢
      exact m.size_header o hl
    obtain ⟨pos, hh, hsp⟩ := spans_append.mp (spans_whole.mpr hb)
    have hpo : pos = headerLen := by
      rw [hh.stop_eq, FrameHeader.length_wire, Nat.zero_add]
    subst hpo
    exact ⟨hf, _, hh, rfl, hs, rfl, vs, bytes.length, (decodeArgs_eq_ok hl hh.stop_le).mpr ⟨hsp, ha⟩, rfl, rfl⟩

end Accepted

/-! ### What is written -/

theorem writeString_eq_some {ou o' : List UInt8} {mb : UInt32} :
    writeString ou s mb = some o' ↔
      (utf8Bytes s).length ≤ mb.toNat ∧ o' = ou ++ wire (.text (utf8Bytes s)) := by
  unfold writeString
  by_cases hm : (utf8Bytes s).length ≤ mb.toNat
  · have hw : (UInt32.ofNat (utf8Bytes s).length).toNat = (utf8Bytes s).length :=
      UInt32.toNat_ofNat_of_lt' (Nat.lt_of_le_of_lt hm mb.toNat_lt)
    simp [writeUint, wire, hw, eq_comm]
  · simp [hm]

variable {v : Value String a}

theorem encodeArg_eq_some {ou o' : List UInt8} :
    encodeArg ou v = some o' ↔ v.Bounded utf8Bytes ∧ o' = ou ++ (v.item utf8Bytes).wire := by
  cases v with
  | string s => exact writeString_eq_some
  | fd n => simp [encodeArg, Value.Bounded, Value.item, wire, eq_comm]
  | _ => simp [encodeArg, Value.Bounded, Value.item, wire, writeInt, writeUint, eq_comm]

theorem encodeArgs_eq_some {ou o' : List UInt8} {as : List Arg} {vs : Args (Value String) as} :
    encodeArgs ou vs = some o' ↔
      (vs.All fun v => v.Bounded utf8Bytes) ∧ o' = ou ++ (vs.items utf8Bytes).flatMap wire := by
  induction vs generalizing ou with
  | nil =>
    change some ou = some o' ↔ True ∧ o' = ou ++ []
    rw [List.append_nil, Option.some.injEq, true_and, eq_comm]
  | cons v vs ih =>
    change (encodeArg ou v).bind (fun ou => encodeArgs ou vs) = some o' ↔
      (v.Bounded utf8Bytes ∧ vs.All fun v => v.Bounded utf8Bytes) ∧
        o' = ou ++ ((v.item utf8Bytes).wire ++ (vs.items utf8Bytes).flatMap wire)
    rw [Option.bind_eq_some_iff]
    constructor
    · rintro ⟨mi, hm, hr⟩
      obtain ⟨hb, rfl⟩ := encodeArg_eq_some.mp hm
      obtain ⟨ha, rfl⟩ := ih.mp hr
      exact ⟨⟨hb, ha⟩, List.append_assoc _ _ _⟩
    · rintro ⟨⟨hb, ha⟩, rfl⟩
      exact ⟨_, encodeArg_eq_some.mpr ⟨hb, rfl⟩, ih.mpr ⟨ha, (List.append_assoc _ _ _).symm⟩⟩

theorem patchSize_append (h : FrameHeader) {p : List UInt8} (hl : headerLen + p.length ≤ 65535) :
    patchSize (h.encodeWithPlaceholderSize [] ++ p) =
      some (FrameHeader.wire ⟨h.objectId, .ofNat (headerLen + p.length), h.opcode, h.fdCount⟩ ++ p) := by
  have hp : h.encodeWithPlaceholderSize [] ++ p =
      leBytes 4 h.objectId.toNat ++ (leBytes 2 0 ++ (h.opcode :: h.fdCount :: p)) := by
    simp [FrameHeader.encodeWithPlaceholderSize]
  have ht : (h.encodeWithPlaceholderSize [] ++ p).length = headerLen + p.length := by
    rw [hp]
    simp [headerLen]
    omega
  have hf : (h.encodeWithPlaceholderSize [] ++ p).take 4 = leBytes 4 h.objectId.toNat := by
    rw [hp, List.take_append_of_le_length (by simp), List.take_of_length_le (by simp)]
  have hb : (h.encodeWithPlaceholderSize [] ++ p).drop 6 = h.opcode :: h.fdCount :: p := by
    rw [hp, ← List.append_assoc, List.drop_append_of_le_length (by simp), List.drop_of_length_le (by simp),
      List.nil_append]
  have hr : headerLen + p.length ≤ 65535 ∧ 6 ≤ headerLen + p.length := by
    refine ⟨hl, ?_⟩
    unfold headerLen
    omega
  have hs : (UInt16.ofNat (headerLen + p.length)).toNat = headerLen + p.length :=
    UInt16.toNat_ofNat_of_lt' (Nat.lt_succ_of_le hl)
  unfold patchSize
  rw [ht, if_pos hr, hf, hb, FrameHeader.wire, hs]
  simp

variable {vs : Args (Value String) m.args}

theorem encode_eq_some :
    encode m o vs = some bytes ↔
      (vs.All fun v => v.Bounded utf8Bytes) ∧ bytes = frame m o (vs.items utf8Bytes) := by
  change (encodeArgs _ vs).bind patchSize = some bytes ↔ _
  rw [Option.bind_eq_some_iff]
  simp only [encodeArgs_eq_some]
  have hp (ha : vs.All fun v => v.Bounded utf8Bytes) :
      patchSize (FrameHeader.encodeWithPlaceholderSize ⟨o, 0, m.opcode, m.hasFd.toNat.toUInt8⟩ [] ++
        (vs.items utf8Bytes).flatMap wire) = some (frame m o (vs.items utf8Bytes)) := by
    have hl := length_frame_le ha o
    rw [length_frame] at hl
    exact patchSize_append _ hl
  constructor
  · rintro ⟨ou, ⟨ha, rfl⟩, hou⟩
    exact ⟨ha, Option.some.inj (hou.symm.trans (hp ha))⟩
  · rintro ⟨ha, rfl⟩
    exact ⟨_, ⟨ha, rfl⟩, hp ha⟩

/-! ### There and back -/

section Descriptor

variable {σ : Type} {as : List Arg}

theorem Value.isSome_descriptor (v : Value σ a) : v.descriptor.isSome = a.isFd := by
  cases v <;> rfl

theorem Args.descriptor_cons {v : Value σ a} {vs : Args (Value σ) as} :
    (Args.cons v vs).descriptor = v.descriptor.or vs.descriptor := by
  change List.findSome? id (v.descriptor :: vs.toList Value.descriptor) = _
  cases v.descriptor <;> rfl

theorem Args.isSome_descriptor (vs : Args (Value σ) as) : vs.descriptor.isSome = as.any Arg.isFd := by
  induction vs with
  | nil => rfl
  | cons v vs ih => rw [Args.descriptor_cons, Option.isSome_or, Value.isSome_descriptor, ih, List.any_cons]

theorem Args.only_descriptor {vs : Args (Value σ) as} (h : as.countP Arg.isFd ≤ 1) :
    vs.All fun v => ∀ n, v.descriptor = some n → vs.descriptor = some n := by
  induction vs with
  | nil => trivial
  | @cons a as v vs ih =>
    rw [List.countP_cons] at h
    cases hv : v.descriptor with
    | none =>
      have ht := ih (Nat.le_trans (Nat.le_add_right _ _) h)
      refine ⟨fun n hn => absurd (hv.symm.trans hn) nofun, ?_⟩
      rw [Args.descriptor_cons, hv, Option.none_or]
      exact ht
    | some n =>
      have hf : a.isFd = true := by rw [← v.isSome_descriptor, hv, Option.isSome_some]
      rw [if_pos hf] at h
      refine ⟨fun n' hn => ?_, ?_⟩
      · rw [Args.descriptor_cons, hn, Option.some_or]
      · -- No other argument is one.
        have hno : vs.descriptor = none := by
          rw [← Option.not_isSome_iff_eq_none, vs.isSome_descriptor, List.any_eq_true]
          rintro ⟨b, hb, hbf⟩
          have hp := List.countP_pos_iff.mpr ⟨b, hb, hbf⟩
          omega
        refine (ih (by omega)).imp fun w hw n' hn => ?_
        exact absurd (hno.symm.trans (hw n' hn)) nofun

end Descriptor

/-- A value that can be sent: strings have no NUL and are within their bounds, and an id that is there is not zero. -/
def Value.Valid {a : Arg} : Value String a → Prop
  | @Value.string _ maxBytes _ s => 0 ∉ utf8Bytes s ∧ (utf8Bytes s).length ≤ maxBytes.toNat
  | .object id => id ≠ 0
  | .nullable id => id ≠ some 0
  | _ => True

theorem Value.Valid.bounded (v : Value String a) (h : v.Valid) : v.Bounded utf8Bytes := by
  cases v with
  | string s => exact h.2
  | _ => trivial

theorem Value.Valid.accepted (h : v.Valid) (hf : ∀ n, v.descriptor = some n → fd = some n) :
    v.Accepted utf8Text fd := by
  cases v with
  | string s => exact ⟨h.2, checkText_utf8Bytes h.1⟩
  | object | nullable => exact h
  | fd n => exact hf n rfl
  | _ => trivial

theorem decode_encode (h : vs.All Value.Valid) (hb : encode m o vs = some bytes) :
    decode m bytes vs.descriptor = .ok (o, vs) := by
  refine decodeWith_eq_ok.mpr ⟨(encode_eq_some.mp hb).2, vs.isSome_descriptor, ?_⟩
  exact (h.and (Args.only_descriptor m.oneFd)).imp fun v hv => hv.1.accepted hv.2

theorem encode_decode (h : decode m bytes fd = .ok (o, vs)) : encode m o vs = some bytes := by
  obtain ⟨hb, -, ha⟩ := decodeWith_eq_ok.mp h
  exact encode_eq_some.mpr ⟨ha.imp fun _ => Value.Accepted.bounded _, hb⟩

end Vitrin.Protocol
