import Vitrin.Protocol.RustCodec

/-!
# The C codec

The scanner writes a C header as well, with an `_encode` and a `_decode` function for
every message. They work on plain buffers.

A read or a write beyond a buffer is a fault. Sizes wrap at 64 bits. A borrowed string is
the memory from its pointer on, and cannot be longer than that. An enum is a number in C,
and the descriptor of a message is an `int`, below zero if there is none. `Field.item` says
what a field is on the wire, as `Value.item` does for the Rust code: the two have the same
value if they are the same item. The scanner refuses to write C for a plain enum with an
entry above 2³¹ - 1, and then there is nothing to compare.

`decode_mirrors`: the C decoder makes the same tests in the same order as the Rust decoder
and its status says which of them failed, except that it does not look at what is in a
text. `encode_eq` says that the encoder writes the frame. `codec_canonical` puts the two
languages together.

An argument that may be null has two values for one encoding, no id and the id zero, so
that only the former is decoded again (`zero_id_lost`).
-/

namespace Vitrin.Protocol.C

open Lib FrameHeader
open List (drop_eq_getElem_cons length_drop length_append)

/-! ### Status and arguments -/

/-- `vitrin_decode_status_t`, but for success. -/
inductive DecodeStatus where
  | truncated
  | stringTooLong
  | invalidEnum
  | invalidBitfield
  | fdMismatch
  | trailingBytes
  | malformedPadding
  | sizeMismatch
  | opcodeMismatch
  | nullObject
  deriving DecidableEq

/-- What an `_encode` function returns for an error. -/
inductive EncodeError where
  | overflow
  | stringTooLong
  deriving DecidableEq

/-- A borrowed string: `data` is the memory from where the pointer points. -/
structure VitrinString where
  len : UInt32
  data : List UInt8
  inBounds : len.toNat ≤ data.length

def VitrinString.bytes (s : VitrinString) : List UInt8 := s.data.take s.len.toNat

theorem VitrinString.length_bytes (s : VitrinString) : s.bytes.length = s.len.toNat :=
  List.length_take_of_le s.inBounds

/-- The field of an argument in a message's struct. An enum field may have any value of its type. -/
inductive Field : Arg → Type
  | int {n : Bool} (v : Int32) : Field ⟨.int none, n⟩
  | intEnum {e : EnumDef} {n : Bool} (v : UInt32) : Field ⟨.int (some e), n⟩
  | uint {n : Bool} (v : UInt32) : Field ⟨.uint none, n⟩
  | uintEnum {e : EnumDef} {n : Bool} (v : UInt32) : Field ⟨.uint (some e), n⟩
  | fixed {n : Bool} (bits : Int32) : Field ⟨.fixed, n⟩
  | string {maxBytes : UInt32} {n : Bool} (s : VitrinString) : Field ⟨.string maxBytes, n⟩
  | object {interface : String} {n : Bool} (id : UInt32) : Field ⟨.object interface, n⟩
  | newId {interface : String} {n : Bool} (id : UInt32) : Field ⟨.newId interface, n⟩
  | fd {n : Bool} (descriptor : Int) : Field ⟨.fd, n⟩

def Field.item {a : Arg} : Field a → Item
  | .int v => .word v.toUInt32
  | .intEnum v => .word v
  | .uint v => .word v
  | .uintEnum v => .word v
  | .fixed bits => .word bits.toUInt32
  | .string s => .text s.bytes
  | .object id => .word id
  | .newId id => .word id
  | .fd n => .handle n

/-- The message's struct, on the wire. -/
def items {as : List Arg} (fields : Args Field as) : List Item := fields.toList Field.item

/-! ### Writing -/

/-- The four bytes that `vitrin_raw_write_u32` writes. -/
def u32Bytes (v : UInt32) : List UInt8 :=
  [(v &&& 0xff).toUInt8, ((v >>> 8) &&& 0xff).toUInt8, ((v >>> 16) &&& 0xff).toUInt8, ((v >>> 24) &&& 0xff).toUInt8]

def rawWriteU32 (out : List UInt8) (pos : Nat) (v : UInt32) : Except (Stop EncodeError) (List UInt8) :=
  poke out pos (u32Bytes v)

def rawPadLen (len : UInt32) : Nat := ((4 - len % 4) % 4).toNat

def rawStringWireLen (byteLen : UInt32) : Nat := 4 + byteLen.toNat + rawPadLen byteLen

/-- `memcpy` and `memset` are called when there is something to write. -/
def pokeSome (out : List UInt8) (pos : Nat) (chunk : List UInt8) : Except (Stop EncodeError) (List UInt8) :=
  if chunk.length > 0 then poke out pos chunk else .ok out

/-- Write a string, and say how many bytes that took. -/
def rawWriteString (out : List UInt8) (pos : Nat) (s : VitrinString) :
    Except (Stop EncodeError) (List UInt8 × Nat) := do
  let pad := rawPadLen s.len
  let out ← rawWriteU32 out pos s.len
  let out ← pokeSome out (pos + 4) s.bytes
  let out ← pokeSome out (pos + 4 + s.len.toNat) (List.replicate pad 0)
  return (out, 4 + s.len.toNat + pad)

/-- The eight bytes that `vitrin_frame_header_encode` writes. -/
def headerBytes (h : FrameHeader) : List UInt8 :=
  u32Bytes h.objectId ++ [(h.size &&& 0xff).toUInt8, ((h.size >>> 8) &&& 0xff).toUInt8, h.opcode, h.fdCount]

def encodeArg (out : List UInt8) (pos : Nat) {a : Arg} : Field a → Except (Stop EncodeError) (List UInt8 × Nat)
  | .int v => do return (← rawWriteU32 out pos v.toUInt32, pos + 4)
  | .intEnum v => do return (← rawWriteU32 out pos v, pos + 4)
  | .uint v => do return (← rawWriteU32 out pos v, pos + 4)
  | .uintEnum v => do return (← rawWriteU32 out pos v, pos + 4)
  | .fixed bits => do return (← rawWriteU32 out pos bits.toUInt32, pos + 4)
  | .string s => do
    let (out, n) ← rawWriteString out pos s
    return (out, pos + n)
  | .object id => do return (← rawWriteU32 out pos id, pos + 4)
  | .newId id => do return (← rawWriteU32 out pos id, pos + 4)
  | .fd _ => return (out, pos)

def encodeArgs (out : List UInt8) (pos : Nat) :
    {as : List Arg} → Args Field as → Except (Stop EncodeError) (List UInt8 × Nat)
  | [], .nil => return (out, pos)
  | _ :: _, .cons v vs => do
    let (out, pos) ← encodeArg out pos v
    encodeArgs out pos vs

def tooLong {a : Arg} : Field a → Bool
  | @Field.string maxBytes _ s => s.len > maxBytes
  | _ => false

def argSizeTerm {a : Arg} : Field a → Nat
  | .string s => rawStringWireLen s.len
  | .fd _ => 0
  | _ => 4

/-- An `_encode` function: the number of bytes written, and the buffer afterwards. -/
def encode (m : Message) (fields : Args Field m.args) (objectId : UInt32) (out : List UInt8) :
    Except (Stop EncodeError) (Nat × List UInt8) :=
  if (fields.toList tooLong).any id then raise .stringTooLong
  else
    let size := (headerLen + (fields.toList argSizeTerm).sum) % 2 ^ 64
    if size > 0xffff ∨ size > out.length then raise .overflow
    else do
      let out ← poke out 0 (headerBytes ⟨objectId, .ofNat size, m.opcode, m.hasFd.toNat.toUInt8⟩)
      let (out, _) ← encodeArgs out headerLen fields
      return (size, out)

/-! ### Reading -/

def sizeAdd (a b : Nat) : Nat := (a + b) % 2 ^ 64

/-- The word that four bytes spell. -/
def u32Of (b₀ b₁ b₂ b₃ : UInt8) : UInt32 :=
  b₀.toUInt32 ||| (b₁.toUInt32 <<< 8) ||| (b₂.toUInt32 <<< 16) ||| (b₃.toUInt32 <<< 24)

def rawReadU32 (buf : List UInt8) (pos : Nat) : Except (Stop DecodeStatus) (UInt32 × Nat) :=
  if sizeAdd pos 4 > buf.length then raise .truncated
  else do
    let b₀ ← byteAt buf pos
    let b₁ ← byteAt buf (sizeAdd pos 1)
    let b₂ ← byteAt buf (sizeAdd pos 2)
    let b₃ ← byteAt buf (sizeAdd pos 3)
    return (u32Of b₀ b₁ b₂ b₃, sizeAdd pos 4)

/-- A pointer into the buffer with as many bytes after it as it says. -/
def borrow (buf : List UInt8) (pos : Nat) (len : UInt32) : Except (Stop DecodeStatus) VitrinString :=
  if h : len.toNat ≤ (buf.drop pos).length then .ok ⟨len, buf.drop pos, h⟩ else fault

/-- The loop over the padding: `i` bytes of it are left. -/
def checkPadding (buf : List UInt8) (pos : Nat) : Nat → Except (Stop DecodeStatus) Unit
  | 0 => return ()
  | i + 1 => do
    let b ← byteAt buf pos
    if b ≠ 0 then raise .malformedPadding else checkPadding buf (sizeAdd pos 1) i

def rawReadString (buf : List UInt8) (pos : Nat) (maxBytes : UInt32) :
    Except (Stop DecodeStatus) (VitrinString × Nat) := do
  let (len, pos) ← rawReadU32 buf pos
  if len > maxBytes then raise .stringTooLong
  else if sizeAdd pos len.toNat > buf.length then raise .truncated
  else do
    let s ← borrow buf pos len
    let pos := sizeAdd pos len.toNat
    let pad := rawPadLen len
    if sizeAdd pos pad > buf.length then raise .truncated
    else do
      checkPadding buf pos pad
      return (s, sizeAdd pos pad)

def frameHeaderDecode (buf : List UInt8) : Except (Stop DecodeStatus) FrameHeader :=
  if buf.length < headerLen then raise .truncated
  else do
    let b₀ ← byteAt buf 0
    let b₁ ← byteAt buf 1
    let b₂ ← byteAt buf 2
    let b₃ ← byteAt buf 3
    let b₄ ← byteAt buf 4
    let b₅ ← byteAt buf 5
    let b₆ ← byteAt buf 6
    let b₇ ← byteAt buf 7
    return ⟨u32Of b₀ b₁ b₂ b₃, (b₄.toUInt32 ||| (b₅.toUInt32 <<< 8)).toUInt16, b₆, b₇⟩

/-- The `_is_valid` function of an enum. -/
def isValid (e : EnumDef) (v : UInt32) : Bool := match e.bitfield with
  | true => v &&& ~~~e.validMask == 0
  | false => e.entries.any fun entry => entry.value == v

def checkEnum (e : EnumDef) (v : UInt32) : Except (Stop DecodeStatus) Unit :=
  if !isValid e v then raise (if e.bitfield then .invalidBitfield else .invalidEnum) else return ()

def decodeArg (buf : List UInt8) (fd : Int) : (a : Arg) → (pos : Nat) → Except (Stop DecodeStatus) (Field a × Nat)
  | ⟨.int none, _⟩, pos => do
    let (raw, pos) ← rawReadU32 buf pos
    return (.int raw.toInt32, pos)
  | ⟨.int (some e), _⟩, pos => do
    let (raw, pos) ← rawReadU32 buf pos
    checkEnum e raw
    return (.intEnum raw, pos)
  | ⟨.uint none, _⟩, pos => do
    let (v, pos) ← rawReadU32 buf pos
    return (.uint v, pos)
  | ⟨.uint (some e), _⟩, pos => do
    let (raw, pos) ← rawReadU32 buf pos
    checkEnum e raw
    return (.uintEnum raw, pos)
  | ⟨.fixed, _⟩, pos => do
    let (raw, pos) ← rawReadU32 buf pos
    return (.fixed raw.toInt32, pos)
  | ⟨.string maxBytes, _⟩, pos => do
    let (s, pos) ← rawReadString buf pos maxBytes
    return (.string s, pos)
  | ⟨.object _, allowNull⟩, pos => do
    let (id, pos) ← rawReadU32 buf pos
    if !allowNull && id == 0 then raise .nullObject else return (.object id, pos)
  | ⟨.newId _, _⟩, pos => do
    let (id, pos) ← rawReadU32 buf pos
    return (.newId id, pos)
  | ⟨.fd, _⟩, pos => return (.fd fd, pos)

def decodeArgs (buf : List UInt8) (fd : Int) :
    (as : List Arg) → (pos : Nat) → Except (Stop DecodeStatus) (Args Field as × Nat)
  | [], pos => return (.nil, pos)
  | a :: as, pos => do
    let (v, pos) ← decodeArg buf fd a pos
    let (vs, pos) ← decodeArgs buf fd as pos
    return (.cons v vs, pos)

/-- A `_decode` function; a descriptor below zero is none. -/
def decode (m : Message) (buf : List UInt8) (fd : Int) : Except (Stop DecodeStatus) (UInt32 × Args Field m.args) :=
  if decide (fd ≥ 0) ≠ m.hasFd then raise .fdMismatch
  else do
    let hdr ← frameHeaderDecode buf
    if hdr.opcode ≠ m.opcode then raise .opcodeMismatch
    else if hdr.size.toNat ≠ buf.length then raise .sizeMismatch
    else if hdr.fdCount ≠ m.hasFd.toNat.toUInt8 then raise .fdMismatch
    else do
      let (fields, pos) ← decodeArgs buf fd m.args headerLen
      if pos ≠ buf.length then raise .trailingBytes
      else return (hdr.objectId, fields)

/-! ### Bytes and words -/

variable {v : UInt32}

theorem and_ff_mod (n : Nat) : (n &&& 255) % 256 = n % 256 := by
  rw [Nat.and_two_pow_sub_one_eq_mod n 8]
  exact Nat.mod_mod n 256

theorem u32Bytes_eq : u32Bytes v = leBytes 4 v.toNat := by
  have hb (w : UInt32) : (w &&& 0xff).toUInt8 = UInt8.ofNat w.toNat := UInt8.toNat_inj.mp (and_ff_mod w.toNat)
  simp only [u32Bytes, hb]
  simp [leBytes, List.range_succ, Nat.shiftRight_eq_div_pow]

theorem u16Bytes_eq {v : UInt16} : [(v &&& 0xff).toUInt8, ((v >>> 8) &&& 0xff).toUInt8] = leBytes 2 v.toNat := by
  have hb (w : UInt16) : (w &&& 0xff).toUInt8 = UInt8.ofNat w.toNat := UInt8.toNat_inj.mp (and_ff_mod w.toNat)
  simp only [hb]
  simp [leBytes, List.range_succ, Nat.shiftRight_eq_div_pow]

theorem headerBytes_eq (h : FrameHeader) : headerBytes h = h.wire := by
  rw [wire, ← u32Bytes_eq, ← u16Bytes_eq, headerBytes, List.append_assoc]
  rfl

theorem or_shiftLeft {n b : Nat} {i : Nat} (h : n < 2 ^ i) : n ||| b <<< i = n + b * 2 ^ i := by
  rw [Nat.or_comm, ← Nat.shiftLeft_add_eq_or_of_lt h, Nat.shiftLeft_eq, Nat.add_comm]

theorem toNat_shiftLeft_byte {b : UInt8} {i : UInt32} (hi : i.toNat ≤ 24) :
    (b.toUInt32 <<< i).toNat = b.toNat <<< i.toNat := by
  have hl : b.toNat <<< i.toNat < 2 ^ 32 := by
    rw [Nat.shiftLeft_eq]
    calc b.toNat * 2 ^ i.toNat < 2 ^ 8 * 2 ^ i.toNat := Nat.mul_lt_mul_of_pos_right b.toNat_lt (Nat.two_pow_pos _)
      _ ≤ 2 ^ 8 * 2 ^ 24 := Nat.mul_le_mul_left _ (Nat.pow_le_pow_right (by decide) hi)
  rw [UInt32.toNat_shiftLeft, UInt8.toNat_toUInt32, Nat.mod_eq_of_lt (a := i.toNat) (by omega), Nat.mod_eq_of_lt hl]

theorem u32Of_eq {b₀ b₁ b₂ b₃ : UInt8} : u32Of b₀ b₁ b₂ b₃ = .ofNat (leNat [b₀, b₁, b₂, b₃]) := by
  have h₀ := b₀.toNat_lt
  have h₁ := b₁.toNat_lt
  have h₂ := b₂.toNat_lt
  have hl : leNat [b₀, b₁, b₂, b₃] < 256 ^ 4 := leNat_lt _
  rw [← UInt32.toNat_inj, UInt32.toNat_ofNat_of_lt' hl, u32Of, UInt32.toNat_or, UInt32.toNat_or, UInt32.toNat_or,
    toNat_shiftLeft_byte (by decide), toNat_shiftLeft_byte (by decide), toNat_shiftLeft_byte (by decide),
    UInt8.toNat_toUInt32]
  change b₀.toNat ||| b₁.toNat <<< 8 ||| b₂.toNat <<< 16 ||| b₃.toNat <<< 24 =
    b₀.toNat + 256 * (b₁.toNat + 256 * (b₂.toNat + 256 * (b₃.toNat + 256 * 0)))
  rw [or_shiftLeft h₀, or_shiftLeft (n := b₀.toNat + b₁.toNat * 2 ^ 8) (by omega), or_shiftLeft (by omega)]
  omega

theorem u16Of_eq {b₀ b₁ : UInt8} : (b₀.toUInt32 ||| (b₁.toUInt32 <<< 8)).toUInt16 = .ofNat (leNat [b₀, b₁]) := by
  have h₀ := b₀.toNat_lt
  have h₁ := b₁.toNat_lt
  have hl : leNat [b₀, b₁] < 256 ^ 2 := leNat_lt _
  rw [← UInt16.toNat_inj, UInt16.toNat_ofNat_of_lt' hl, UInt32.toNat_toUInt16, UInt32.toNat_or,
    toNat_shiftLeft_byte (by decide), UInt8.toNat_toUInt32]
  change (b₀.toNat ||| b₁.toNat <<< 8) % 2 ^ 16 = b₀.toNat + 256 * (b₁.toNat + 256 * 0)
  rw [or_shiftLeft h₀]
  omega

theorem rawPadLen_eq {l : UInt32} : rawPadLen l = padLen l.toNat := by
  have hlt : l.toNat % 4 < 4 := Nat.mod_lt _ (by decide)
  have hl : l % 4 ≤ 4 := hlt.le
  rw [rawPadLen, padLen, UInt32.toNat_mod, UInt32.toNat_sub_of_le _ _ hl, UInt32.toNat_mod]
  rfl

/-! ### Reading what the Rust code reads -/

section Read

variable {buf : List UInt8} {pos : Nat}

theorem byteAt_eq {ε : Type} (h : pos < buf.length) : (byteAt buf pos : Except (Stop ε) UInt8) = .ok buf[pos] := by
  unfold byteAt
  rw [List.getElem?_eq_getElem h]

theorem sizeAdd_eq {a b : Nat} (h : a + b < 2 ^ 64) : sizeAdd a b = a + b := Nat.mod_eq_of_lt h

theorem rawReadU32_eq (h : pos + 4 < 2 ^ 64) :
    rawReadU32 buf pos = if pos + 4 > buf.length then raise .truncated else .ok (wordAt buf pos, pos + 4) := by
  unfold rawReadU32
  rw [sizeAdd_eq h]
  by_cases hs : pos + 4 > buf.length
  · rw [if_pos hs, if_pos hs]
  · have hw : (buf.drop pos).take 4 =
        [buf[pos], buf[pos + 1], buf[pos + 2], buf[pos + 3]] := by
      rw [drop_eq_getElem_cons (by omega), drop_eq_getElem_cons (by omega),
        drop_eq_getElem_cons (by omega), drop_eq_getElem_cons (by omega)]
      rfl
    simp (disch := omega) only [if_neg hs, sizeAdd_eq, byteAt_eq, ok_bind, u32Of_eq, wordAt, hw]
    rfl

theorem checkPadding_eq (hl : buf.length ≤ 65535) {n : Nat} (h : pos + n ≤ buf.length) :
    checkPadding buf pos n =
      if ((buf.drop pos).take n).any (· != 0) then raise .malformedPadding else .ok () := by
  induction n generalizing pos with
  | zero => rfl
  | succ n ih =>
    rw [checkPadding, byteAt_eq (by omega), ok_bind, sizeAdd_eq (by omega), ih (by omega),
      drop_eq_getElem_cons (i := pos) (by omega), List.take_succ_cons, List.any_cons]
    by_cases hz : buf[pos] = 0 <;> simp [hz]

theorem frameHeaderDecode_eq :
    frameHeaderDecode buf = match FrameHeader.decode buf with
      | .ok h => .ok h
      | .error _ => raise .truncated := by
  unfold frameHeaderDecode FrameHeader.decode
  by_cases hs : buf.length < headerLen
  · rw [if_pos hs, if_pos hs]
  · have hl : 8 ≤ buf.length := Nat.not_lt.mp hs
    have hw : buf.take 4 = [buf[0], buf[1], buf[2], buf[3]] := by
      simp [List.take_add_one, show 0 < buf.length by omega, show 1 < buf.length by omega, show 2 < buf.length by omega]
    have hh : (buf.drop 4).take 2 = [buf[4], buf[5]] := by
      rw [drop_eq_getElem_cons (by omega), drop_eq_getElem_cons (by omega)]
      rfl
    simp (disch := omega) only [if_neg hs, byteAt_eq, ok_bind, u32Of_eq, u16Of_eq, hw, hh, List.getD_eq_getElem]
    rfl

end Read

/-! ### In lockstep -/

/-- The status for an error of the Rust code. There is none for what a text is refused for. -/
def statusOf : DecodeError → Option DecodeStatus
  | .truncated _ _ => some .truncated
  | .invalidUtf8 => none
  | .embeddedNul => none
  | .stringTooLong _ _ => some .stringTooLong
  | .malformedPadding => some .malformedPadding
  | .sizeMismatch _ _ => some .sizeMismatch
  | .opcodeMismatch _ _ => some .opcodeMismatch
  | .nullObject => some .nullObject
  | .invalidEnumValue _ _ _ => some .invalidEnum
  | .invalidBitfieldValue _ _ _ => some .invalidBitfield
  | .fdCountMismatch _ _ => some .fdMismatch
  | .trailingBytes _ _ => some .trailingBytes

variable {as : List Arg}

section Lockstep

variable {σ : Type} {r : TextRule σ}

/-- The C code mirrors the Rust code until the latter refuses a text. -/
def Mirrors (rule : TextRule σ) {α β : Type} (R : α → β → Prop) :
    Except (Stop DecodeError) α → Except (Stop DecodeStatus) β → Prop :=
  Lockstep (fun e => ∃ raw, rule.check raw = .error e) (fun e status => statusOf e = some status) R

variable {buf : List UInt8} {pos : Nat}

theorem readUint_mirrors (r : TextRule σ) (hle : buf.length ≤ 65535) (hp : pos ≤ buf.length) :
    Mirrors r (fun x y => x = y ∧ x.2 ≤ buf.length) (readUint buf pos) (rawReadU32 buf pos) := by
  rw [readUint_eq (by omega), rawReadU32_eq (by omega)]
  refine .ite Iff.rfl (fun _ => .raises rfl) fun hl => .returns ⟨rfl, Nat.not_lt.mp hl⟩

theorem readInt_mirrors (r : TextRule σ) (hl : buf.length ≤ 65535) (hp : pos ≤ buf.length) :
    Mirrors r (fun x y => x = (y.1.toInt32, y.2) ∧ x.2 ≤ buf.length) (readInt buf pos) (rawReadU32 buf pos) := by
  rw [readInt, ← bind_pure (rawReadU32 buf pos)]
  refine (readUint_mirrors r hl hp).bind ?_
  rintro ⟨w, p'⟩ _ ⟨rfl, hp'⟩
  exact .returns ⟨rfl, hp'⟩

theorem readString_mirrors (hl : buf.length ≤ 65535) (hp : pos ≤ buf.length) (m : UInt32) :
    Mirrors r (fun x y => r.bytes x.1 = y.1.bytes ∧ x.2 = y.2 ∧ x.2 ≤ buf.length)
      (readString r buf pos m) (rawReadString buf pos m) := by
  refine (readUint_mirrors r hl hp).bind ?_
  rintro ⟨l, p'⟩ _ ⟨rfl, hp'⟩
  have hlt := l.toNat_lt
  refine .ite Iff.rfl (fun _ => .raises rfl) fun _ => ?_
  rw [readRaw_eq (by omega), sizeAdd_eq (by omega)]
  by_cases hs : p' + l.toNat > buf.length
  · rw [if_pos hs, if_pos hs]
    exact .raises rfl
  · have hd : l.toNat ≤ (buf.drop p').length := by
      rw [length_drop]
      omega
    have hpa : padLen l.toNat < 4 := Nat.mod_lt _ (by decide)
    rw [if_neg hs, if_neg hs, ok_bind, borrow, dif_pos hd, ok_bind]
    dsimp only
    cases hc : r.check ((buf.drop p').take l.toNat) with
    | error e => exact .early ⟨_, hc⟩ _
    | ok s =>
      rw [orRaise_eq_ok.mpr rfl, ok_bind, rawPadLen_eq, readRaw_eq (by omega), sizeAdd_eq (by omega)]
      by_cases hs' : p' + l.toNat + padLen l.toNat > buf.length
      · rw [if_pos hs', if_pos hs']
        exact .raises rfl
      · rw [if_neg hs', if_neg hs', ok_bind, checkPadding_eq hl (Nat.not_lt.mp hs')]
        split
        · exact .raises rfl
        · exact .returns ⟨r.sound hc, rfl, Nat.not_lt.mp hs'⟩

theorem frameHeaderDecode_mirrors (r : TextRule σ) :
    Mirrors r (fun x y => x = y ∧ FrameHeader.decode buf = .ok x) (orRaise (FrameHeader.decode buf))
      (frameHeaderDecode buf) := by
  rw [frameHeaderDecode_eq]
  cases hd : FrameHeader.decode buf with
  | ok h => exact .returns ⟨rfl, rfl⟩
  | error e =>
    unfold FrameHeader.decode at hd
    split at hd
    · cases hd
      exact .raises rfl
    · cases hd

theorem isValid_eq_true {e : EnumDef} : isValid e v = true ↔ e.Defines v := by
  unfold isValid EnumDef.Defines
  cases e.bitfield with
  | true | false => simp

theorem fromWire_mirrors (r : TextRule σ) (e : EnumDef) (v : UInt32) :
    Mirrors r (fun (x : e.Value) _ => x.1 = v) (orRaise (e.fromWire v)) (checkEnum e v) := by
  unfold EnumDef.fromWire checkEnum
  by_cases hv : e.Defines v
  · rw [dif_pos hv, isValid_eq_true.mpr hv]
    exact .returns rfl
  · rw [dif_neg hv, Bool.eq_false_iff.mpr (mt isValid_eq_true.mp hv)]
    refine .raises ?_
    cases e.bitfield <;> rfl

def SameFd (fd : Option Nat) (cfd : Int) : Prop := fd = if 0 ≤ cfd then some cfd.toNat else none

/-- How a descriptor is given to the C code. -/
def intFd : Option Nat → Int
  | some n => n
  | none => -1

theorem sameFd_intFd (fd : Option Nat) : SameFd fd (intFd fd) := by
  cases fd with
  | some n =>
    unfold SameFd intFd
    rw [if_pos (Int.natCast_nonneg n), Int.toNat_natCast]
  | none => rfl

variable {fd : Option Nat} {cfd : Int}

theorem decodeArg_mirrors (hl : buf.length ≤ 65535) (hf : SameFd fd cfd) (a : Arg)
    (hs : a.isFd = true → fd.isSome) (hp : pos ≤ buf.length) :
    Mirrors r (fun x y => x.1.item r.bytes = y.1.item ∧ x.2 = y.2 ∧ x.2 ≤ buf.length)
      (Protocol.decodeArg r buf fd a pos) (decodeArg buf cfd a pos) := by
  have hw := readUint_mirrors r hl hp
  have hint := readInt_mirrors r hl hp
  match a with
  | ⟨.int none, _⟩ | ⟨.fixed, _⟩ =>
    refine hint.bind ?_
    rintro _ ⟨w, p'⟩ ⟨rfl, hp'⟩
    exact .returns ⟨rfl, rfl, hp'⟩
  | ⟨.int (some e), _⟩ =>
    refine hint.bind ?_
    rintro _ ⟨w, p'⟩ ⟨rfl, hp'⟩
    refine (fromWire_mirrors r e w).bind ?_
    rintro v _ rfl
    exact .returns ⟨rfl, rfl, hp'⟩
  | ⟨.uint none, _⟩ | ⟨.newId _, _⟩ =>
    refine hw.bind ?_
    rintro ⟨v, p'⟩ _ ⟨rfl, hp'⟩
    exact .returns ⟨rfl, rfl, hp'⟩
  | ⟨.uint (some e), _⟩ =>
    refine hw.bind ?_
    rintro ⟨w, p'⟩ _ ⟨rfl, hp'⟩
    refine (fromWire_mirrors r e w).bind ?_
    rintro v _ rfl
    exact .returns ⟨rfl, rfl, hp'⟩
  | ⟨.string maxBytes, _⟩ =>
    refine (readString_mirrors hl hp maxBytes).bind ?_
    rintro ⟨s, p'⟩ ⟨t, _⟩ ⟨hb, rfl, hp'⟩
    exact .returns ⟨congrArg Item.text hb, rfl, hp'⟩
  | ⟨.object _, true⟩ =>
    refine hw.bind ?_
    rintro ⟨id, p'⟩ _ ⟨rfl, hp'⟩
    refine .returns ⟨congrArg Item.word ?_, rfl, hp'⟩
    by_cases hz : id = 0
    · rw [if_pos hz, hz]
      rfl
    · rw [if_neg hz]
      rfl
  | ⟨.object _, false⟩ =>
    refine hw.bind ?_
    rintro ⟨id, p'⟩ _ ⟨rfl, hp'⟩
    refine .ite (by simp) (fun _ => .raises rfl) fun _ => .returns ⟨rfl, rfl, hp'⟩
  | ⟨.fd, _⟩ =>
    obtain ⟨n, rfl⟩ := Option.isSome_iff_exists.mp (hs rfl)
    unfold SameFd at hf
    split at hf
    · next hn =>
      cases hf
      exact .returns ⟨congrArg Item.handle (Int.toNat_of_nonneg hn), rfl, hp⟩
    · cases hf

theorem decodeArgs_mirrors (hl : buf.length ≤ 65535) (hf : SameFd fd cfd)
    (hs : as.any Arg.isFd = true → fd.isSome) (hp : pos ≤ buf.length) :
    Mirrors r (fun x y => x.1.items r.bytes = items y.1 ∧ x.2 = y.2 ∧ x.2 ≤ buf.length)
      (Protocol.decodeArgs r buf fd as pos) (decodeArgs buf cfd as pos) := by
  induction as generalizing pos with
  | nil => exact .returns ⟨rfl, rfl, hp⟩
  | cons a as ih =>
    rw [List.any_cons, Bool.or_eq_true] at hs
    refine (decodeArg_mirrors hl hf a (fun h => hs (.inl h)) hp).bind ?_
    rintro ⟨v, p'⟩ ⟨w, _⟩ ⟨hi, rfl, hp'⟩
    refine (ih (fun h => hs (.inr h)) hp').bind ?_
    rintro ⟨vs, p''⟩ ⟨ws, _⟩ ⟨hite, rfl, hp''⟩
    exact .returns ⟨congrArg₂ List.cons hi hite, rfl, hp''⟩

/-- The two decoders make the same tests in the same order, but for those that decide what a text is. -/
theorem decode_mirrors {m : Message} (hf : SameFd fd cfd) :
    Mirrors r (fun x y => x.1 = y.1 ∧ x.2.items r.bytes = items y.2) (decodeWith r buf m fd)
      (decode m buf cfd) := by
  have hp : decide (cfd ≥ 0) = fd.isSome := by
    by_cases hn : 0 ≤ cfd
    · rw [hf, if_pos hn, decide_eq_true hn]
      rfl
    · rw [hf, if_neg hn, decide_eq_false hn]
      rfl
  unfold decodeWith decode
  rw [hp]
  refine .ite Iff.rfl (fun _ => .raises rfl) fun hc => ?_
  refine (frameHeaderDecode_mirrors r).bind ?_
  rintro h _ ⟨rfl, hd⟩
  refine .ite Iff.rfl (fun _ => .raises rfl) fun _ => ?_
  refine .ite Iff.rfl (fun _ => .raises rfl) fun hs => ?_
  refine .ite Iff.rfl (fun _ => .raises rfl) fun _ => ?_
  have hl : buf.length ≤ 65535 := by
    have hlt := h.size.toNat_lt
    omega
  refine (decodeArgs_mirrors hl hf (fun ha => (not_not.mp hc).trans ha) ?_).bind ?_
  · exact (decode_eq_ok.mp hd).stop_le
  rintro ⟨vs, pos⟩ ⟨ws, _⟩ ⟨hi, rfl, -⟩
  exact .ite Iff.rfl (fun _ => .raises rfl) fun _ => .returns ⟨rfl, hi⟩

end Lockstep

/-! ### Writing what the Rust code writes -/

section Write

variable {d re c : List UInt8}

theorem rawWriteU32_append (h : 4 ≤ re.length) :
    rawWriteU32 (d ++ re) d.length v = .ok (d ++ leBytes 4 v.toNat ++ re.drop 4) := by
  rw [rawWriteU32, u32Bytes_eq, poke_append (by rwa [length_leBytes]), length_leBytes]

theorem pokeSome_append {pos : Nat} (hp : pos = d.length) (h : c.length ≤ re.length) :
    pokeSome (d ++ re) pos c = .ok (d ++ c ++ re.drop c.length) := by
  subst hp
  unfold pokeSome
  split
  · exact poke_append h
  · next hno =>
    have hn : c = [] := List.length_eq_zero_iff.mp (Nat.eq_zero_of_not_pos hno)
    rw [hn, List.append_nil, List.length_nil, List.drop_zero]

theorem rawWriteString_append (s : VitrinString) (h : (Item.wire (.text s.bytes)).length ≤ re.length) :
    rawWriteString (d ++ re) d.length s =
      .ok (d ++ Item.wire (.text s.bytes) ++ re.drop (Item.wire (.text s.bytes)).length,
        (Item.wire (.text s.bytes)).length) := by
  have hl := s.length_bytes
  rw [Item.length_wire_text, hl] at h ⊢
  unfold rawWriteString
  rw [rawPadLen_eq, rawWriteU32_append (by omega), ok_bind,
    pokeSome_append (by simp) (by rw [length_drop]; omega), ok_bind, hl,
    pokeSome_append (by simp [hl, Nat.add_assoc])
      (by simp only [length_drop, List.length_replicate]; omega), ok_bind]
  simp [Item.wire, hl]

theorem encodeArg_append {a : Arg} (f : Field a) (h : f.item.wire.length ≤ re.length) :
    encodeArg (d ++ re) d.length f =
      .ok (d ++ f.item.wire ++ re.drop f.item.wire.length, d.length + f.item.wire.length) := by
  have hwo (w : UInt32) (hw : 4 ≤ re.length) :
      (rawWriteU32 (d ++ re) d.length w >>= fun o => pure (o, d.length + 4)) =
        .ok (d ++ Item.wire (.word w) ++ re.drop (Item.wire (.word w)).length,
          d.length + (Item.wire (.word w)).length) := by
    rw [rawWriteU32_append hw, Item.length_wire_word]
    rfl
  cases f with
  | int | intEnum | uint | uintEnum | fixed | object | newId => exact hwo _ (by simpa [Field.item] using h)
  | string s =>
    rw [encodeArg, rawWriteString_append s h]
    rfl
  | fd n => simp [encodeArg, Field.item, Item.wire]

theorem encodeArgs_append (fie : Args Field as) (h : ((items fie).flatMap Item.wire).length ≤ re.length) :
    encodeArgs (d ++ re) d.length fie =
      .ok (d ++ (items fie).flatMap Item.wire ++ re.drop ((items fie).flatMap Item.wire).length,
        d.length + ((items fie).flatMap Item.wire).length) := by
  induction fie generalizing d re with
  | nil =>
    change Except.ok _ = Except.ok (d ++ [] ++ re.drop 0, d.length + 0)
    rw [List.append_nil, List.drop_zero, Nat.add_zero]
  | cons f fie ih =>
    change (f.item.wire ++ (items fie).flatMap Item.wire).length ≤ re.length at h
    change encodeArgs _ _ _ = Except.ok (d ++ (f.item.wire ++ (items fie).flatMap Item.wire) ++
      re.drop (f.item.wire ++ (items fie).flatMap Item.wire).length,
        d.length + (f.item.wire ++ (items fie).flatMap Item.wire).length)
    rw [length_append] at h ⊢
    rw [encodeArgs, encodeArg_append f (by omega), ok_bind]
    dsimp only
    rw [← length_append, ih (by rw [length_drop]; omega), List.drop_drop, length_append, Nat.add_assoc]
    simp

theorem argSizeTerm_eq {a : Arg} {f : Field a} : argSizeTerm f = f.item.wire.length := by
  cases f with
  | string s =>
    rw [Field.item, Item.length_wire_text, s.length_bytes, ← rawPadLen_eq]
    rfl
  | fd n => rfl
  | _ => exact Item.length_wire_word.symm

variable {fi : Args Field as}

theorem sum_argSizeTerm : (fi.toList argSizeTerm).sum = ((items fi).flatMap Item.wire).length := by
  induction fi with
  | nil => rfl
  | cons f fi ih =>
    change argSizeTerm f + (fi.toList argSizeTerm).sum = (f.item.wire ++ (items fi).flatMap Item.wire).length
    rw [length_append, argSizeTerm_eq, ih]

/-- With no string too long, and a buffer with room for it, the frame is written, and nothing after it. -/
theorem encode_eq {m : Message} {fi : Args Field m.args} {o : UInt32} {ou : List UInt8}
    (hl : (fi.toList tooLong).any id = false) (hs : (frame m o (items fi)).length ≤ 65535)
    (hr : (frame m o (items fi)).length ≤ ou.length) :
    encode m fi o ou = .ok ((frame m o (items fi)).length,
      frame m o (items fi) ++ ou.drop (frame m o (items fi)).length) := by
  have hf := length_frame m o (items fi)
  rw [hf] at hs hr ⊢
  have ht : (headerLen + (fi.toList argSizeTerm).sum) % 2 ^ 64 =
      headerLen + ((items fi).flatMap Item.wire).length := by
    rw [sum_argSizeTerm]
    exact Nat.mod_eq_of_lt (by omega)
  let hd := (m.header o ((items fi).flatMap Item.wire).length).wire
  have hh : hd.length = headerLen := length_wire _
  have hp : (poke ([] ++ ou) ([] : List UInt8).length hd : Except (Stop EncodeError) (List UInt8)) =
      .ok ([] ++ hd ++ ou.drop hd.length) := poke_append (by omega)
  have ha : encodeArgs (hd ++ ou.drop hd.length) hd.length fi = .ok (hd ++ (items fi).flatMap Item.wire ++
        (ou.drop hd.length).drop ((items fi).flatMap Item.wire).length, _) :=
    encodeArgs_append fi (by rw [length_drop]; omega)
  unfold encode
  rw [hl, if_neg Bool.false_ne_true]
  rw [ht, if_neg (by omega), headerBytes_eq]
  change (poke ([] ++ ou) ([] : List UInt8).length hd >>= fun ou => encodeArgs ou headerLen fi >>= _) = _
  rw [hp, ok_bind, ← hh, List.nil_append, ha, ok_bind, List.drop_drop]
  rfl

theorem tooLong_eq_false {a : Arg} {v : Value String a} {f : Field a} (hs : v.item utf8Bytes = f.item)
    (h : v.Bounded utf8Bytes) : tooLong f = false := by
  cases f with
  | @string m n s =>
    cases v with
    | string t =>
      have hby : utf8Bytes t = s.bytes := Item.text.inj hs
      have hb : (utf8Bytes t).length ≤ m.toNat := h
      rw [hby, s.length_bytes] at hb
      exact decide_eq_false (UInt32.not_lt.mpr (UInt32.le_iff_toNat_le.mpr hb))
  | _ => rfl

theorem any_tooLong_eq_false {vs : Args (Value String) as} (hs : vs.items utf8Bytes = items fi)
    (h : vs.All fun v => v.Bounded utf8Bytes) : (fi.toList tooLong).any id = false := by
  induction fi with
  | nil => rfl
  | cons f fi ih =>
    cases vs with
    | cons v vs =>
      obtain ⟨hi, hite⟩ := List.cons.inj hs
      change (tooLong f || (fi.toList tooLong).any id) = false
      rw [tooLong_eq_false hi h.1, ih hite h.2]
      rfl

end Write

end Vitrin.Protocol.C

namespace Vitrin.Protocol

open Lib

/-- The message is refused, but without the checks of what a text is it would be accepted. -/
def RejectsTextOnly (m : Message) (bytes : List UInt8) (fd : Option Nat) : Prop :=
  (∃ e, decode m bytes fd = raise e ∧ e.AboutText) ∧ ∃ objectId vs, decodeWith anyText bytes m fd = .ok (objectId, vs)

/-- **The codec is canonical and the two languages agree.** For every message that the scanner accepts: a value that can
be sent is encoded without a panic, into a frame that says its own length, and is decoded again; whatever bytes arrive,
decoding them does not panic, and what is accepted encodes to the same bytes; the C code writes the same bytes, and
nothing after them; and it accepts what the Rust code accepts, with the same arguments, and apart from that only what
the Rust code refuses for no other reason than that a string is not UTF-8 or has a NUL. -/
theorem codec_canonical (m : Message) :
    (∀ objectId (vs : Args (Value String) m.args), vs.All Value.Valid → ∃ bytes,
      encode m objectId vs = some bytes ∧ bytes.length ≤ 65535 ∧
      (∃ header, FrameHeader.decode bytes = .ok header ∧ header.size.toNat = bytes.length) ∧
      decode m bytes vs.descriptor = .ok (objectId, vs)) ∧
    (∀ bytes fd, decode m bytes fd ≠ fault ∧
      ∀ objectId vs, decode m bytes fd = .ok (objectId, vs) → encode m objectId vs = some bytes) ∧
    (∀ objectId vs bytes, encode m objectId vs = some bytes →
      ∀ fields out, vs.items utf8Bytes = C.items fields → bytes.length ≤ out.length →
        C.encode m fields objectId out = .ok (bytes.length, bytes ++ out.drop bytes.length)) ∧
    (∀ bytes fd cfd, C.SameFd fd cfd →
      (∀ objectId vs, decode m bytes fd = .ok (objectId, vs) →
        ∃ fields, C.decode m bytes cfd = .ok (objectId, fields) ∧ vs.items utf8Bytes = C.items fields) ∧
      (∀ objectId fields, C.decode m bytes cfd = .ok (objectId, fields) →
        (∃ vs, decode m bytes fd = .ok (objectId, vs) ∧ vs.items utf8Bytes = C.items fields) ∨
          RejectsTextOnly m bytes fd) ∧
      (RejectsTextOnly m bytes fd → ∃ objectId vs fields, decodeWith anyText bytes m fd = .ok (objectId, vs) ∧
        C.decode m bytes cfd = .ok (objectId, fields) ∧ vs.items id = C.items fields)) := by
  refine ⟨fun objectId vs hv => ?_, fun bytes fd => ⟨?_, fun objectId vs => encode_decode⟩,
    fun objectId vs bytes hby fields out hs hr => ?_, fun bytes fd cfd hf => ⟨?_, ?_, ?_⟩⟩
  · have hb : vs.All fun v => v.Bounded utf8Bytes := hv.imp Value.Valid.bounded
    have he : encode m objectId vs = some (frame m objectId (vs.items utf8Bytes)) :=
      encode_eq_some.mpr ⟨hb, rfl⟩
    have hl := length_frame_le hb objectId
    refine ⟨_, he, hl, ⟨_, decode_frame, ?_⟩, decode_encode hv he⟩
    rw [length_frame] at hl ⊢
    exact m.size_header objectId hl
  · have hm : C.Mirrors utf8Text _ (decode m bytes fd) (C.decode m bytes _) :=
      C.decode_mirrors (C.sameFd_intFd fd)
    exact hm.no_fault
  · obtain ⟨hb, rfl⟩ := encode_eq_some.mp hby
    have hl := length_frame_le hb objectId
    rw [hs] at hl hr ⊢
    exact C.encode_eq (C.any_tooLong_eq_false hs hb) hl hr
  · intro objectId vs hd
    have hm : C.Mirrors utf8Text _ (decode m bytes fd) (C.decode m bytes cfd) := C.decode_mirrors hf
    rw [hd] at hm
    obtain ⟨⟨o', fields⟩, hc, hob, hi⟩ := hm.returned
    cases hob
    exact ⟨fields, hc, hi⟩
  · intro objectId fields hc
    have hm : C.Mirrors utf8Text _ (decode m bytes fd) (C.decode m bytes cfd) := C.decode_mirrors hf
    rw [hc] at hm
    obtain ⟨⟨o', vs⟩, hd, hob, hi⟩ | ⟨e, hra, ra, hraw⟩ := hm.returned_of
    · cases hob
      exact .inl ⟨vs, hd, hi⟩
    · refine .inr ⟨⟨e, hra, checkText_error hraw⟩, ?_⟩
      have hla : C.Mirrors anyText _ (decodeWith anyText bytes m fd) (C.decode m bytes cfd) := C.decode_mirrors hf
      rw [hc] at hla
      obtain ⟨⟨o', vs⟩, ha, -⟩ | ⟨e', -, r', hr'⟩ := hla.returned_of
      · exact ⟨o', vs, ha⟩
      · cases hr'
  · rintro ⟨-, objectId, vs, ha⟩
    have hm : C.Mirrors anyText _ (decodeWith anyText bytes m fd) (C.decode m bytes cfd) := C.decode_mirrors hf
    rw [ha] at hm
    obtain ⟨⟨o', fields⟩, hc, hob, hi⟩ := hm.returned
    cases hob
    exact ⟨objectId, vs, fields, ha, hc, hi⟩

/-- A message with a number, a string and a descriptor. -/
def greeting : Message :=
  ⟨3, [⟨.uint none, false⟩, ⟨.string 8, false⟩, ⟨.fd, false⟩], by decide, by decide, by decide⟩

def greetingArgs : Args (Value String) greeting.args := .cons (.uint 258) (.cons (.string "hi") (.cons (.fd 5) .nil))

theorem codec_canonical_greeting :
    ∃ bytes, encode greeting 7 greetingArgs = some bytes ∧
      bytes = [7, 0, 0, 0, 20, 0, 3, 1, 2, 1, 0, 0, 2, 0, 0, 0, 104, 105, 0, 0] ∧
      decode greeting bytes (some 5) = .ok (7, greetingArgs) := by
  have hv : greetingArgs.All Value.Valid := ⟨trivial, ⟨by decide, by decide⟩, trivial, trivial⟩
  obtain ⟨bytes, hb, -, -, hd⟩ := (codec_canonical greeting).1 7 greetingArgs hv
  refine ⟨bytes, hb, ?_, hd⟩
  rw [(encode_eq_some.mp hb).2]
  decide

def optional : Message := ⟨0, [⟨.object "vitrin_realm", true⟩], by decide, by decide, by decide⟩

/-- The id zero, where an id may be missing, is sent as nothing. -/
theorem zero_id_lost :
    let vs : Args (Value String) optional.args := .cons (.nullable (some 0)) .nil
    let vs' : Args (Value String) optional.args := .cons (.nullable none) .nil
    ∃ b, encode optional 7 vs = some b ∧ decode optional b vs.descriptor = .ok (7, vs') ∧ vs ≠ vs' := by
  refine ⟨_, encode_eq_some.mpr ⟨⟨trivial, trivial⟩, rfl⟩, decodeWith_eq_ok.mpr ⟨rfl, rfl, nofun, trivial⟩, nofun⟩

end Vitrin.Protocol
