import Vitrin.Lib.Buffer
import Vitrin.Protocol.Header

/-!
# Message signatures

The protocol is written down in an XML document. A scanner reads it, refuses what cannot
be put on the wire, and writes a codec for every message in two languages.

A `Message` is what the scanner keeps of a message: its opcode and the types of its
arguments, in order. It has what the scanner made sure of as fields (`parseMessage`): one
descriptor at most, and a frame that fits into 65535 bytes when every string is as long as
it may be. An argument that refers to an enum has the enum's definition in it.

`Args V` are the arguments of a message in order, where an argument of type `a` is a
`V a`. `Value` is the type of an argument in the Rust code, in which a value that is not
one of an enum's cannot be written.

An `Item` is what an argument is on the wire: a word, a text or a descriptor beside it.
`frame` is the format itself: which bytes a list of items is.
-/

namespace Vitrin.Protocol

open Lib

/-! ### Signatures -/

structure EnumEntry where
  name : String
  value : UInt32

/-- An enum. The scanner refuses one without entries and one where two entries have the same value. -/
structure EnumDef where
  interface : String
  name : String
  bitfield : Bool
  entries : List EnumEntry
  nonempty : entries ≠ []
  distinct : (entries.map EnumEntry.value).Nodup

namespace EnumDef

/-- The union of every defined entry's bits. -/
def validMask (e : EnumDef) : UInt32 := e.entries.foldl (fun mask entry => mask ||| entry.value) 0

/-- A bitfield has any combination of the bits of its entries, a plain enum only its entries. -/
def Defines (e : EnumDef) (value : UInt32) : Prop :=
  if e.bitfield then value &&& ~~~e.validMask = 0 else value ∈ e.entries.map EnumEntry.value

instance (e : EnumDef) (value : UInt32) : Decidable (e.Defines value) := by
  unfold Defines
  infer_instance

def Value (e : EnumDef) : Type := { value : UInt32 // e.Defines value }

end EnumDef

inductive ArgType where
  | int (enumRef : Option EnumDef)
  | uint (enumRef : Option EnumDef)
  | fixed
  | string (maxBytes : UInt32)
  | object (interface : String)
  | newId (interface : String)
  | fd

structure Arg where
  ty : ArgType
  allowNull : Bool

namespace Arg

def isFd (a : Arg) : Bool := match a.ty with
  | .fd => true
  | _ => false

/-- A string whose only value would be the empty one. -/
def zeroBound (a : Arg) : Bool := match a.ty with
  | .string maxBytes => maxBytes == 0
  | _ => false

/-- What the argument adds to the longest frame. -/
def worstCaseWireSize (a : Arg) : Nat := match a.ty with
  | .fd => 0
  | .string maxBytes => 4 + (maxBytes.toNat + 3) / 4 * 4
  | _ => 4

end Arg

def worstCase (args : List Arg) : Nat := headerLen + (args.map Arg.worstCaseWireSize).sum

/-- Why the scanner refuses a message. -/
inductive ScanError where
  | zeroBound
  | fdArguments (count : Nat)
  | frameSize (worstCase : Nat)
  deriving DecidableEq

structure Message where
  opcode : UInt8
  args : List Arg
  bounded : args.any Arg.zeroBound = false
  oneFd : args.countP Arg.isFd ≤ 1
  fits : worstCase args ≤ 65535

/-- The checks on a message once its arguments are read. -/
def parseMessage (opcode : UInt8) (args : List Arg) : Except ScanError Message :=
  if hbound : args.any Arg.zeroBound = true then .error .zeroBound
  else if hfds : args.countP Arg.isFd > 1 then .error (.fdArguments (args.countP Arg.isFd))
  else if hsize : worstCase args > 65535 then .error (.frameSize (worstCase args))
  else .ok ⟨opcode, args, Bool.eq_false_iff.mpr hbound, Nat.not_lt.mp hfds, Nat.not_lt.mp hsize⟩

variable {m : Message}

/-- A message is a signature that passes the checks, and every one that does is a message. -/
theorem parseMessage_eq_ok {opcode : UInt8} {args : List Arg} :
    parseMessage opcode args = .ok m ↔ m.opcode = opcode ∧ m.args = args := by
  unfold parseMessage
  constructor
  · intro h
    split_ifs at h
    cases h
    exact ⟨rfl, rfl⟩
  · rintro ⟨rfl, rfl⟩
    rw [dif_neg (Bool.eq_false_iff.mp m.bounded), dif_neg (Nat.not_lt.mpr m.oneFd), dif_neg (Nat.not_lt.mpr m.fits)]

def Message.hasFd (m : Message) : Bool := m.args.any Arg.isFd

/-! ### Arguments -/

/-- The arguments of a message, in order. -/
inductive Args (V : Arg → Type) : List Arg → Type
  | nil : Args V []
  | cons {a : Arg} {as : List Arg} (v : V a) (vs : Args V as) : Args V (a :: as)

namespace Args

variable {V : Arg → Type}

def All (P : ∀ {a : Arg}, V a → Prop) : {as : List Arg} → Args V as → Prop
  | [], .nil => True
  | _ :: _, .cons v vs => P v ∧ vs.All P

theorem All.imp {P Q : ∀ {a : Arg}, V a → Prop} (h : ∀ {a : Arg} (v : V a), P v → Q v) {as : List Arg} {vs : Args V as}
    (ha : vs.All P) : vs.All Q := by
  induction vs with
  | nil => trivial
  | cons v vs ih => exact ⟨h v ha.1, ih ha.2⟩

theorem All.and {P Q : ∀ {a : Arg}, V a → Prop} {as : List Arg} {vs : Args V as} (h : vs.All P) (h' : vs.All Q) :
    vs.All fun v => P v ∧ Q v := by
  induction vs with
  | nil => trivial
  | cons v vs ih => exact ⟨⟨h.1, h'.1⟩, ih h.2 h'.2⟩

def toList {β : Type} (f : ∀ {a : Arg}, V a → β) : {as : List Arg} → Args V as → List β
  | [], .nil => []
  | _ :: _, .cons v vs => f v :: vs.toList f

end Args

/-- The value of an argument in Rust, where a string is a `σ`. -/
inductive Value (σ : Type) : Arg → Type
  | int {n : Bool} (v : Int32) : Value σ ⟨.int none, n⟩
  | intEnum {e : EnumDef} {n : Bool} (v : e.Value) : Value σ ⟨.int (some e), n⟩
  | uint {n : Bool} (v : UInt32) : Value σ ⟨.uint none, n⟩
  | uintEnum {e : EnumDef} {n : Bool} (v : e.Value) : Value σ ⟨.uint (some e), n⟩
  /-- The bits of a number with eight binary places. -/
  | fixed {n : Bool} (bits : Int32) : Value σ ⟨.fixed, n⟩
  | string {maxBytes : UInt32} {n : Bool} (s : σ) : Value σ ⟨.string maxBytes, n⟩
  | object {interface : String} (id : UInt32) : Value σ ⟨.object interface, false⟩
  | nullable {interface : String} (id : Option UInt32) : Value σ ⟨.object interface, true⟩
  | newId {interface : String} {n : Bool} (id : UInt32) : Value σ ⟨.newId interface, n⟩
  | fd {n : Bool} (descriptor : Nat) : Value σ ⟨.fd, n⟩

/-! ### The format -/

inductive Item where
  | word (w : UInt32)
  | text (bytes : List UInt8)
  | handle (fd : Int)
  deriving DecidableEq

/-- Bytes of zero padding needed to bring `len` up to the next 4-byte boundary. -/
def padLen (len : Nat) : Nat := (4 - len % 4) % 4

variable {bytes : List UInt8}

namespace Item

def wire : Item → List UInt8
  | .word w => leBytes 4 w.toNat
  | .text bytes => leBytes 4 bytes.length ++ bytes ++ List.replicate (padLen bytes.length) 0
  | .handle _ => []

@[simp] theorem length_wire_word {w : UInt32} : (wire (.word w)).length = 4 := length_leBytes

@[simp] theorem length_wire_text : (wire (.text bytes)).length = 4 + bytes.length + padLen bytes.length := by
  simp [wire, Nat.add_assoc]

/-- A text within its bound takes no more than the scanner allows for it. -/
theorem length_wire_text_le {b : Nat} (h : bytes.length ≤ b) : (wire (.text bytes)).length ≤ 4 + (b + 3) / 4 * 4 := by
  rw [length_wire_text]
  unfold padLen
  omega

end Item

namespace Value

variable {σ : Type} {a : Arg}

/-- What the argument is on the wire; `text` are the bytes of a string. -/
def item (text : σ → List UInt8) : Value σ a → Item
  | .int v => .word v.toUInt32
  | .intEnum v => .word v.1
  | .uint v => .word v
  | .uintEnum v => .word v.1
  | .fixed bits => .word bits.toUInt32
  | .string s => .text (text s)
  | .object id => .word id
  | .nullable id => .word (id.getD 0)
  | .newId id => .word id
  | .fd n => .handle n

def Bounded (text : σ → List UInt8) : Value σ a → Prop
  | @string _ maxBytes _ s => (text s).length ≤ maxBytes.toNat
  | _ => True

theorem length_wire_le {t : σ → List UInt8} {v : Value σ a} (h : v.Bounded t) :
    (v.item t).wire.length ≤ a.worstCaseWireSize := by
  cases v with
  | string s => exact Item.length_wire_text_le h
  | fd n => exact Nat.zero_le _
  | _ => exact Item.length_wire_word.le

def descriptor : Value σ a → Option Nat
  | .fd n => some n
  | _ => none

end Value

namespace FrameHeader

def wire (h : FrameHeader) : List UInt8 :=
  leBytes 4 h.objectId.toNat ++ leBytes 2 h.size.toNat ++ [h.opcode, h.fdCount]

@[simp] theorem length_wire (h : FrameHeader) : h.wire.length = headerLen := by simp [wire, headerLen]

theorem decode_wire (h : FrameHeader) : decode h.wire = .ok h := by
  have hob : h.wire.take 4 = leBytes 4 h.objectId.toNat := by
    rw [wire, List.append_assoc, List.take_append_of_le_length (by simp), List.take_of_length_le (by simp)]
  have hs : (h.wire.drop 4).take 2 = leBytes 2 h.size.toNat := by
    rw [wire, List.append_assoc, List.drop_append_of_le_length (by simp), List.drop_of_length_le (by simp),
      List.nil_append, List.take_append_of_le_length (by simp), List.take_of_length_le (by simp)]
  unfold decode
  rw [if_neg (by rw [length_wire]; exact lt_irrefl _), hob, hs, ofNat_leNat_leBytes, ofNat_leNat_leBytes_half]
  rfl

theorem decode_eq_ok {h : FrameHeader} : decode bytes = .ok h ↔ Spans bytes 0 h.wire headerLen := by
  constructor
  · intro hd
    have hl : headerLen ≤ bytes.length := by
      by_contra hs
      rw [decode, if_pos (Nat.not_le.mp hs)] at hd
      cases hd
    rw [decode, if_neg (Nat.not_lt.mpr hl)] at hd
    cases hd
    unfold headerLen at hl
    have hw : leBytes 4 (UInt32.ofNat (leNat (bytes.take 4))).toNat ++
        leBytes 2 (UInt16.ofNat (leNat ((bytes.drop 4).take 2))).toNat ++ [bytes.getD 6 0, bytes.getD 7 0] =
          bytes.take 8 := by
      rw [leBytes_ofNat_leNat (List.length_take_of_le (by omega)), leBytes_ofNat_leNat_half, ← List.take_add,
        List.getD_eq_getElem _ _ (by omega), List.getD_eq_getElem _ _ (by omega)]
      · simp [List.take_add_one, show 6 < bytes.length by omega, show 7 < bytes.length by omega]
      · rw [List.length_take, List.length_drop]
        omega
    have hsp := spans_between (Nat.zero_le 8) hl
    rwa [List.drop_zero, Nat.sub_zero, ← hw] at hsp
  · rintro ⟨b, af, rfl, hb, -⟩
    rw [List.length_eq_zero_iff.mp hb, List.nil_append, decode_append (length_wire h).ge, decode_wire]

end FrameHeader

/-- The header of a message whose arguments take this many bytes. -/
def Message.header (m : Message) (objectId : UInt32) (payload : Nat) : FrameHeader :=
  ⟨objectId, .ofNat (headerLen + payload), m.opcode, m.hasFd.toNat.toUInt8⟩

def frame (m : Message) (objectId : UInt32) (items : List Item) : List UInt8 :=
  (m.header objectId (items.flatMap Item.wire).length).wire ++ items.flatMap Item.wire

theorem length_frame (m : Message) (o : UInt32) (i : List Item) :
    (frame m o i).length = headerLen + (i.flatMap Item.wire).length := by
  rw [frame, List.length_append, FrameHeader.length_wire]

theorem Message.size_header (m : Message) (o : UInt32) {p : Nat} (h : headerLen + p ≤ 65535) :
    (m.header o p).size.toNat = headerLen + p :=
  UInt16.toNat_ofNat_of_lt' (Nat.lt_succ_of_le h)

theorem decode_frame {o : UInt32} {i : List Item} :
    FrameHeader.decode (frame m o i) = .ok (m.header o (i.flatMap Item.wire).length) := by
  rw [frame, FrameHeader.decode_append (FrameHeader.length_wire _).ge, FrameHeader.decode_wire]

namespace Args

variable {σ : Type} {as : List Arg}

def items (text : σ → List UInt8) (vs : Args (Value σ) as) : List Item := vs.toList fun v => v.item text

theorem length_items_le {t : σ → List UInt8} {vs : Args (Value σ) as} (h : vs.All fun v => v.Bounded t) :
    ((vs.items t).flatMap Item.wire).length ≤ (as.map Arg.worstCaseWireSize).sum := by
  induction vs with
  | nil => exact Nat.zero_le _
  | cons v vs ih =>
    change (Item.wire (v.item t) ++ (vs.items t).flatMap Item.wire).length ≤ _
    rw [List.length_append, List.map_cons, List.sum_cons]
    exact Nat.add_le_add (Value.length_wire_le h.1) (ih h.2)

def descriptor (vs : Args (Value σ) as) : Option Nat := (vs.toList Value.descriptor).findSome? id

end Args

/-- With every string within its bound, the frame is one that its size field can express. -/
theorem length_frame_le {σ : Type} {t : σ → List UInt8} {vs : Args (Value σ) m.args}
    (h : vs.All fun v => v.Bounded t) (o : UInt32) : (frame m o (vs.items t)).length ≤ 65535 := by
  have hl := Args.length_items_le h
  have hf := m.fits
  unfold worstCase at hf
  rw [length_frame]
  omega

end Vitrin.Protocol
