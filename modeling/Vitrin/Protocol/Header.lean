import Mathlib.Data.List.GetD
import Vitrin.Lib.LittleEndian

/-!
# Frame headers

Every message of the protocol travels as one frame: eight bytes of header, little-endian
throughout, and the arguments. The header says which object the message is for, how long
the whole frame is, which message it is and whether a descriptor comes beside it.
`FrameHeader.decode` reads only those eight bytes (`decode_append`).
-/

namespace Vitrin.Protocol

open Lib

def headerLen : Nat := 8

/-- Why decoding a message failed. -/
inductive DecodeError where
  | truncated (needed available : Nat)
  | invalidUtf8
  | embeddedNul
  | stringTooLong (max actual : UInt32)
  | malformedPadding
  | sizeMismatch (declared : UInt16) (actual : Nat)
  | opcodeMismatch (expected actual : UInt8)
  | nullObject
  | invalidEnumValue (interface enumName : String) (value : UInt32)
  | invalidBitfieldValue (interface enumName : String) (value : UInt32)
  | fdCountMismatch (expected actual : UInt8)
  | trailingBytes (consumed total : Nat)
  deriving DecidableEq

structure FrameHeader where
  objectId : UInt32
  /-- Of the whole frame, this header included. -/
  size : UInt16
  opcode : UInt8
  fdCount : UInt8
  deriving DecidableEq

namespace FrameHeader

/-- Decode the header from the front of `bytes`. -/
def decode (bytes : List UInt8) : Except DecodeError FrameHeader :=
  if bytes.length < headerLen then .error (.truncated headerLen bytes.length)
  else .ok
    { objectId := .ofNat (leNat (bytes.take 4))
      size := .ofNat (leNat ((bytes.drop 4).take 2))
      opcode := bytes.getD 6 0
      fdCount := bytes.getD 7 0 }

variable {b : List UInt8}

theorem decode_append (h : headerLen ≤ b.length) (r : List UInt8) : decode (b ++ r) = decode b := by
  have hs : ¬ b.length < headerLen := Nat.not_lt.mpr h
  have hl : ¬ (b ++ r).length < headerLen := by
    rw [List.length_append]
    omega
  unfold headerLen at h
  have hob : (b ++ r).take 4 = b.take 4 := List.take_append_of_le_length (by omega)
  have hsi : ((b ++ r).drop 4).take 2 = (b.drop 4).take 2 := by
    rw [List.drop_append_of_le_length (by omega), List.take_append_of_le_length (by rw [List.length_drop]; omega)]
  have hop : (b ++ r).getD 6 0 = b.getD 6 0 := List.getD_append _ _ _ _ (by omega)
  have hc : (b ++ r).getD 7 0 = b.getD 7 0 := List.getD_append _ _ _ _ (by omega)
  unfold decode
  rw [if_neg hl, if_neg hs, hob, hsi, hop, hc]

theorem decode_ok (h : headerLen ≤ b.length) : ∃ header, decode b = .ok header := ⟨_, if_neg (Nat.not_lt.mpr h)⟩

end FrameHeader

end Vitrin.Protocol
