import Mathlib.Data.List.Basic

/-!
# Classic BPF

The instructions a filter is made of, and what running one computes. A jump only goes forward,
so a run is a recursion over the program: the instructions passed over are counted down.

A run that jumps is a run of what is left of the program (`exec_drop`), so a jump of the length
of a part of the program is a run of the next part (`exec_append`).
-/

namespace Vitrin.Lib.Bpf

structure Insn where
  code : UInt16
  jt : UInt8
  jf : UInt8
  k : UInt32

def ldAbsW : UInt16 := 0x20

def jeqK : UInt16 := 0x15

def jgeK : UInt16 := 0x35

def ja : UInt16 := 0x05

def retK : UInt16 := 0x06

/-- Whether a conditional jump on the accumulator is taken. -/
def taken (code : UInt16) (acc k : UInt32) : Bool :=
  if code = jeqK then acc = k else k ≤ acc

/-- Running a program from the instruction after the first `skip`. Leaving the program, a word that is not there and an
instruction that is none of these end the run without a result. -/
def exec (load : UInt32 → Option UInt32) : List Insn → Nat → UInt32 → Option UInt32
  | [], _, _ => none
  | _ :: rest, skip + 1, acc => exec load rest skip acc
  | i :: rest, 0, acc =>
    if i.code = ldAbsW then (load i.k).bind fun word => exec load rest 0 word
    else if i.code = ja then exec load rest i.k.toNat acc
    else if i.code = retK then some i.k
    else if i.code = jeqK ∨ i.code = jgeK then
      exec load rest (if taken i.code acc i.k then i.jt.toNat else i.jf.toNat) acc
    else none

variable {l : UInt32 → Option UInt32} {acc : UInt32}

theorem exec_jump {i : Insn} (r : List Insn) (hi : i.code = jeqK ∨ i.code = jgeK) :
    exec l (i :: r) 0 acc = exec l r (if taken i.code acc i.k then i.jt.toNat else i.jf.toNat) acc := by
  have hl : i.code ≠ ldAbsW ∧ i.code ≠ ja ∧ i.code ≠ retK := by
    obtain hi | hi := hi <;> rw [hi] <;> decide
  rw [exec, if_neg hl.1, if_neg hl.2.1, if_neg hl.2.2, if_pos hi]

theorem exec_drop (p : List Insn) (s : Nat) : exec l p s acc = exec l (p.drop s) 0 acc := by
  induction p generalizing s with
  | nil => simp [exec]
  | cons i r ih =>
    cases s with
    | zero => rfl
    | succ s => exact ih s

theorem exec_append (b r : List Insn) (n : Nat) : exec l (b ++ r) (b.length + n) acc = exec l r n acc := by
  rw [exec_drop, List.drop_append, List.drop_eq_nil_of_le (Nat.le_add_right _ n), Nat.add_sub_cancel_left,
    List.nil_append, ← exec_drop]

theorem exec_ret {p : List Insn} {n : Nat} {k : UInt32} (h : p[n]? = some ⟨retK, 0, 0, k⟩) :
    exec l p n acc = some k := by
  obtain ⟨hn, hk⟩ := List.getElem?_eq_some_iff.mp h
  rw [exec_drop, List.drop_eq_getElem_cons hn, hk]
  rfl

end Vitrin.Lib.Bpf
