import Vitrin.Lib.Bpf
import Vitrin.Lib.Lockstep
import Mathlib.Algebra.GroupWithZero.Nat
import Mathlib.Algebra.Ring.Int.Defs
import Mathlib.Data.List.Find
import Mathlib.Data.List.Nodup

/-!
# The system call filter

`vitrin-realm-init` denies a realm the system calls of a table, and compiles the table to a
classic BPF program that the kernel runs on every call.

`compile` is the compiler of `seccomp.rs`: it drafts the body of the program with labels for
jumps, lays out a tail of returns, and resolves the labels to distances. `run` is what the
kernel does with the program. The rows' names, classes and reasons are left out: the compiler
does not read them.

`decision` says what the table means. Between it and the program stands `Draft.exec`, which
runs a body with its labels.

An assembled body does what the draft does (`emit_exec`), and the drafted body decides as the
table says (`body_exec`), so a program decides as its table says (`compile_decides`). A row
that tests an argument the call does not have is compiled too, and its program reads beyond
the data (`seventh_argument_unread`).

A block that finds its argument allowed returns, and later rows for the same call are not
reached. So the order of the rows does not matter if no call has two such rows
(`row_order_kept`), and does if one has (`two_arguments_disagree`).
-/

namespace Vitrin.Seccomp

open Lib Lib.Bpf
open List (cons_append nil_append)
open UInt32 (ofInt toNat_inj)

/-! ### The table -/

inductive Predicate where
  | always
  /-- Denied unless the argument is one of these. -/
  | argNotIn (arg : UInt8) (allowed : List UInt32)
  deriving DecidableEq

structure Row where
  /-- A C `long`. -/
  nr : Int
  errno : Int
  predicate : Predicate

inductive TargetArch where
  | x86_64
  | aarch64
  deriving DecidableEq

def TargetArch.native : TargetArch → UInt32
  | .x86_64 => 0xc000003e
  | .aarch64 => 0xc00000b7

def offNr : UInt32 := 0

def offArch : UInt32 := 4

def offArgs : UInt32 := 16

def retKillProcess : UInt32 := 0x80000000

def retErrno : UInt32 := 0x00050000

def retAllow : UInt32 := 0x7fff0000

def retData : UInt32 := 0x0000ffff

def x32SyscallBit : UInt32 := 0x40000000

/-- What is returned for an errno. -/
def errnoOf (errno : Int) : UInt32 := retErrno ||| (UInt32.ofInt errno &&& retData)

/-! ### The compiler -/

inductive Label where
  | fall
  | skip (n : UInt8)
  | allow
  | kill
  | errno (e : Int)

structure Draft where
  code : UInt16
  jt : Label
  jf : Label
  k : UInt32

inductive CompileError where
  | jumpTooFar
  | tooLong
  deriving DecidableEq

/-- An instruction that reads a word of the data. -/
def Draft.ld (k : UInt32) : Draft := ⟨ldAbsW, .fall, .fall, k⟩

def prologue (arch : TargetArch) : List Draft :=
  [.ld offArch, ⟨jeqK, .fall, .kill, arch.native⟩, .ld offNr] ++
    match arch with
    | .x86_64 => [⟨jgeK, .kill, .fall, x32SyscallBit⟩]
    | .aarch64 => []

/-- The rows that deny a call whatever its arguments. -/
def simpleRows (rows : List Row) : List Draft :=
  rows.filterMap fun row => match row.predicate with
    | .always => some ⟨jeqK, .errno row.errno, .fall, UInt32.ofInt row.nr⟩
    | .argNotIn _ _ => none

def argBlock (row : Row) (arg : UInt8) (allowed : List UInt32) : Except CompileError (List Draft) :=
  if allowed.length + 4 < 256 then
    .ok ([⟨jeqK, .fall, .skip (UInt8.ofNat (allowed.length + 4)), UInt32.ofInt row.nr⟩,
      .ld (offArgs + arg.toUInt32 * 8 + 4), ⟨jeqK, .fall, .errno row.errno, 0⟩, .ld (offArgs + arg.toUInt32 * 8)] ++
      allowed.map (⟨jeqK, .allow, .fall, ·⟩) ++ [⟨ja, .errno row.errno, .fall, 0⟩])
  else .error .jumpTooFar

/-- All blocks but the first read the number of the call again. -/
def argBlocks (first : Bool) : List Row → Except CompileError (List Draft)
  | [] => .ok []
  | row :: rows => match row.predicate with
    | .always => argBlocks first rows
    | .argNotIn arg allowed => do
      let block ← argBlock row arg allowed
      let rest ← argBlocks false rows
      return (if first then [] else [.ld offNr]) ++ block ++ rest

/-- The errnos of the table, each once. -/
def errnosOf (rows : List Row) : List Int :=
  rows.foldl (fun errnos row => if row.errno ∈ errnos then errnos else errnos ++ [row.errno]) []

/-- Where a label is in the tail, which comes after the body. -/
def Label.place (bodyLen : Nat) (errnos : List Int) : Label → Option Nat
  | .fall | .skip _ => none
  | .allow => some bodyLen
  | .errno e => some (bodyLen + 1 + errnos.idxOf e)
  | .kill => some (bodyLen + 1 + errnos.length)

/-- The distance to a label, in the eight bits of a conditional jump. -/
def Label.resolve (bodyLen : Nat) (errnos : List Int) (pos : Nat) (label : Label) : Except CompileError UInt8 :=
  match label.place bodyLen errnos with
  | some target => if target - pos - 1 < 256 then .ok (UInt8.ofNat (target - pos - 1)) else .error .jumpTooFar
  | none => .ok (match label with
    | .skip n => n
    | _ => 0)

/-- An unconditional jump keeps its distance in `k`. -/
def Draft.insn (bodyLen : Nat) (errnos : List Int) (pos : Nat) (d : Draft) : Except CompileError Insn :=
  if d.code = ja then .ok ⟨ja, 0, 0, UInt32.ofNat ((d.jt.place bodyLen errnos).getD (pos + 1) - pos - 1)⟩
  else do
    let jt ← d.jt.resolve bodyLen errnos pos
    let jf ← d.jf.resolve bodyLen errnos pos
    return ⟨d.code, jt, jf, d.k⟩

def emit (bodyLen : Nat) (errnos : List Int) (pos : Nat) : List Draft → Except CompileError (List Insn)
  | [] => .ok []
  | d :: ds => do
    let i ← d.insn bodyLen errnos pos
    let out ← emit bodyLen errnos (pos + 1) ds
    return i :: out

def tail (errnos : List Int) : List Insn :=
  ⟨retK, 0, 0, retAllow⟩ :: errnos.map (fun e => ⟨retK, 0, 0, errnoOf e⟩) ++ [⟨retK, 0, 0, retKillProcess⟩]

def compile (arch : TargetArch) (rows : List Row) : Except CompileError (List Insn) := do
  let blocks ← argBlocks true rows
  let body := prologue arch ++ simpleRows rows ++ blocks
  let out ← emit body.length (errnosOf rows) 0 body
  if (out ++ tail (errnosOf rows)).length > 4096 then .error .tooLong
  else return out ++ tail (errnosOf rows)

/-! ### What the kernel runs the program on -/

structure SeccompData where
  nr : UInt32
  arch : UInt32
  instructionPointer : UInt64
  args : Fin 6 → UInt64

namespace SeccompData

/-- The data as a row of words, of a 64-bit field the low one first. -/
def words (d : SeccompData) : List UInt32 :=
  [d.nr, d.arch] ++
    (d.instructionPointer :: List.ofFn d.args).flatMap fun x : UInt64 => [x.toUInt32, (x >>> 32).toUInt32]

def load (d : SeccompData) (offset : UInt32) : Option UInt32 :=
  if offset.toNat % 4 = 0 then d.words[offset.toNat / 4]? else none

end SeccompData

def run (prog : List Insn) (d : SeccompData) : Option UInt32 := exec d.load prog 0 0

/-! ### What the table means -/

namespace Row

/-- The row is about a call that exists and an argument that it has. -/
structure Sound (row : Row) : Prop where
  nr : 0 ≤ row.nr ∧ row.nr < 2 ^ 32
  arg : ∀ arg allowed, row.predicate = .argNotIn arg allowed → arg.toNat < 6

def names (row : Row) (d : SeccompData) : Bool := row.nr = d.nr.toNat

def spares (row : Row) (d : SeccompData) : Bool := match row.predicate with
  | .always => false
  | .argNotIn arg allowed => if h : arg.toNat < 6 then allowed.any (·.toUInt64 = d.args ⟨arg.toNat, h⟩) else false

/-- What becomes of a call that a row with an argument is about. -/
def verdict (row : Row) (d : SeccompData) : UInt32 := if row.spares d then retAllow else errnoOf row.errno

/-- The row denies the call. -/
def denies (row : Row) (d : SeccompData) : Bool := row.names d && !row.spares d

end Row

/-- The call is made under another numbering of the calls. -/
def SeccompData.foreign (d : SeccompData) (arch : TargetArch) : Bool :=
  d.arch ≠ arch.native ∨ arch = .x86_64 ∧ x32SyscallBit ≤ d.nr

/-- What becomes of a call: a row that looks at no argument comes first. -/
def decision (arch : TargetArch) (rows : List Row) (d : SeccompData) : UInt32 :=
  if d.foreign arch then retKillProcess
  else match rows.find? fun row => row.names d && row.predicate = .always with
    | some row => errnoOf row.errno
    | none => match rows.find? fun row => row.names d && row.predicate ≠ .always with
      | some row => row.verdict d
      | none => retAllow

/-! ### Running a draft -/

/-- What is returned at a label in the tail. -/
def Label.value : Label → Option UInt32
  | .fall | .skip _ => none
  | .allow => some retAllow
  | .errno e => some (errnoOf e)
  | .kill => some retKillProcess

def Label.passes : Label → Nat
  | .skip n => n.toNat
  | _ => 0

/-- A body run with its labels. After its end comes the tail. -/
def Draft.exec (load : UInt32 → Option UInt32) (errnos : List Int) : List Draft → Nat → UInt32 → Option UInt32
  | [], skip, acc => Bpf.exec load (tail errnos) skip acc
  | _ :: ds, skip + 1, acc => exec load errnos ds skip acc
  | d :: ds, 0, acc =>
    if d.code = ldAbsW then (load d.k).bind fun word => exec load errnos ds 0 word
    else
      let label := if d.code = ja ∨ taken d.code acc d.k then d.jt else d.jf
      label.value.or (exec load errnos ds label.passes acc)

variable {lo : UInt32 → Option UInt32} {acc : UInt32} {b pos : Nat} {errnos : List Int} {l : Label}

/-- The instructions that a draft is made of. -/
structure Draft.Plain (errnos : List Int) (d : Draft) : Prop where
  code : d.code = ldAbsW ∨ d.code = jeqK ∨ d.code = jgeK ∨ d.code = ja ∧ ∃ e, d.jt = .errno e
  listed : ∀ e, d.jt = .errno e ∨ d.jf = .errno e → e ∈ errnos

theorem getElem?_tail_errno {e : Int} (h : e ∈ errnos) :
    (tail errnos)[1 + errnos.idxOf e]? = some ⟨retK, 0, 0, errnoOf e⟩ := by
  have hl := List.idxOf_lt_length_iff.mpr h
  rw [tail, cons_append, Nat.add_comm, List.getElem?_cons_succ, List.getElem?_append_left (by simpa using hl)]
  simp [hl]

/-- The return that a label stands for is at its place. -/
theorem tail_place (h : ∀ e, l = .errno e → e ∈ errnos) {t : Nat} (ht : l.place b errnos = some t) :
    ∃ n, t = b + n ∧ ∀ acc, Bpf.exec lo (tail errnos) n acc = l.value := by
  cases l with
  | fall | skip => cases ht
  | allow =>
    cases ht
    exact ⟨0, rfl, fun _ => rfl⟩
  | errno e =>
    cases ht
    exact ⟨1 + errnos.idxOf e, Nat.add_assoc .., fun _ => exec_ret (getElem?_tail_errno (h e rfl))⟩
  | kill =>
    cases ht
    refine ⟨1 + errnos.length, Nat.add_assoc .., fun _ => exec_ret ?_⟩
    simp [tail, Nat.add_comm 1]

/-- How many instructions a jump to a label passes over. -/
def Label.distance (bodyLen : Nat) (errnos : List Int) (pos : Nat) (label : Label) : Nat :=
  match label.place bodyLen errnos with
  | some target => target - pos - 1
  | none => label.passes

open Label (distance value passes)

theorem resolve_distance {n : UInt8} (h : l.resolve b errnos pos = .ok n) : n.toNat = l.distance b errnos pos := by
  unfold Label.resolve at h
  unfold distance
  split at h
  · split at h
    · next hl =>
      cases h
      exact UInt8.toNat_ofNat_of_lt' hl
    · cases h
  · cases h
    cases l <;> rfl

/-- A jump goes on in the body, or returns what its label stands for. -/
theorem jump_exec {out : List Insn} {ds : List Draft} (hle : pos + 1 + out.length = b)
    (hl : ∀ e, l = .errno e → e ∈ errnos)
    (ih : ∀ skip, Bpf.exec lo (out ++ tail errnos) skip acc = Draft.exec lo errnos ds skip acc) :
    Bpf.exec lo (out ++ tail errnos) (l.distance b errnos pos) acc =
      l.value.or (Draft.exec lo errnos ds l.passes acc) := by
  unfold distance
  cases hp : l.place b errnos with
  | none =>
    have hv : l.value = none := by cases l <;> first | rfl | cases hp
    rw [hv, Option.none_or]
    exact ih _
  | some target =>
    obtain ⟨n, rfl, hn⟩ : ∃ n, target = b + n ∧ ∀ acc, Bpf.exec lo (tail errnos) n acc = l.value := tail_place hl hp
    have hd : b + n - pos - 1 = out.length + n := by omega
    have hv : l.value.isSome := by cases l <;> first | rfl | cases hp
    dsimp only
    rw [hd, exec_append, hn, Option.or_of_isSome hv]

theorem length_emit {ds : List Draft} {o : List Insn} (h : emit b errnos pos ds = .ok o) :
    o.length = ds.length := by
  induction ds generalizing pos o with
  | nil =>
    cases h
    rfl
  | cons d ds ih =>
    obtain ⟨i, -, h⟩ := bind_eq_ok.mp h
    obtain ⟨o, ho, h⟩ := bind_eq_ok.mp h
    cases h
    exact congrArg (· + 1) (ih ho)

/-- **An assembled body does what its draft does.** -/
theorem emit_exec {ds : List Draft} {o : List Insn} (h : emit b errnos pos ds = .ok o)
    (hle : pos + ds.length = b) (hb : b + errnos.length + 1 < 2 ^ 32) (hp : ∀ d ∈ ds, d.Plain errnos)
    (s : Nat) (acc : UInt32) : Bpf.exec lo (o ++ tail errnos) s acc = Draft.exec lo errnos ds s acc := by
  induction ds generalizing pos o s acc with
  | nil =>
    cases h
    rfl
  | cons d ds ih =>
    obtain ⟨i, hi, h⟩ := bind_eq_ok.mp h
    obtain ⟨o, ho, h⟩ := bind_eq_ok.mp h
    cases h
    rw [List.length_cons] at hle
    obtain ⟨hd, hds⟩ := List.forall_mem_cons.mp hp
    have ih := fun s acc => ih ho (by omega) hds s acc
    have hou : pos + 1 + o.length = b := by
      rw [length_emit ho]
      omega
    cases s with
    | succ s => exact ih s acc
    | zero =>
      have hju : ∀ {l : Label}, (l = d.jt ∨ l = d.jf) → Bpf.exec lo (o ++ tail errnos) (l.distance b errnos pos) acc =
            l.value.or (Draft.exec lo errnos ds l.passes acc) := by
        intro l hl
        refine jump_exec hou (fun e he => hd.listed e ?_) fun s => ih s acc
        exact hl.imp (·.symm.trans he) (·.symm.trans he)
      have hco := hd.code
      unfold Draft.insn at hi
      split at hi
      · next hj =>
        cases hi
        obtain h | h | h | ⟨-, e, he⟩ := hco
        -- the other three are no unconditional jumps
        iterate 3 exact absurd (hj.symm.trans h) (by decide)
        have hk : (UInt32.ofNat ((d.jt.place b errnos).getD (pos + 1) - pos - 1)).toNat =
            d.jt.distance b errnos pos := by
          have hid := List.idxOf_lt_length_iff.mpr (hd.listed e (.inl he))
          rw [he, distance]
          exact UInt32.toNat_ofNat_of_lt' (Nat.lt_of_le_of_lt (by simp [Label.place]; omega) hb)
        have hn : d.code ≠ ldAbsW := hj ▸ by decide
        rw [Draft.exec, if_neg hn]
        dsimp only
        rw [if_pos (.inl hj), ← hju (.inl rfl), ← hk]
        rfl
      · next hj =>
        obtain ⟨jt, hjt, hi⟩ := bind_eq_ok.mp hi
        obtain ⟨jf, hjf, hi⟩ := bind_eq_ok.mp hi
        cases hi
        rw [Draft.exec]
        split
        · next hld =>
          rw [cons_append, Bpf.exec, if_pos hld]
          exact congrArg _ (funext fun w => ih 0 w)
        · next hld =>
          have hc : d.code = jeqK ∨ d.code = jgeK := by
            obtain h | h | h | ⟨h, -⟩ := hco
            · exact absurd h hld
            · exact .inl h
            · exact .inr h
            · exact absurd h hj
          rw [cons_append, exec_jump _ hc]
          dsimp only
          rw [resolve_distance hjt, resolve_distance hjf]
          by_cases ht : taken d.code acc d.k = true
          · rw [if_pos ht, if_pos (.inr ht)]
            exact hju (.inl rfl)
          · rw [if_neg ht, if_neg (not_or.mpr ⟨hj, ht⟩)]
            exact hju (.inr rfl)

/-! ### What the body decides -/

theorem exec_pass {b ds : List Draft} :
    Draft.exec lo errnos (b ++ ds) b.length acc = Draft.exec lo errnos ds 0 acc := by
  induction b with
  | nil => rfl
  | cons d b ih => exact ih

theorem exec_ld (k : UInt32) (ds : List Draft) :
    Draft.exec lo errnos (.ld k :: ds) 0 acc = (lo k).bind fun w => Draft.exec lo errnos ds 0 w := rfl

theorem exec_jeq (jt jf : Label) (k : UInt32) (ds : List Draft) :
    Draft.exec lo errnos (⟨jeqK, jt, jf, k⟩ :: ds) 0 acc =
      if acc = k then jt.value.or (Draft.exec lo errnos ds jt.passes acc)
      else jf.value.or (Draft.exec lo errnos ds jf.passes acc) := by
  rw [Draft.exec, if_neg (show jeqK ≠ ldAbsW by decide)]
  by_cases hk : acc = k <;> simp [taken, hk, show jeqK ≠ ja by decide]

theorem exec_simpleRows (rows : List Row) (ds : List Draft) :
    Draft.exec lo errnos (simpleRows rows ++ ds) 0 acc =
      ((rows.find? fun row => acc = ofInt row.nr && row.predicate = .always).map (errnoOf ·.errno)).or
        (Draft.exec lo errnos ds 0 acc) := by
  induction rows with
  | nil => rfl
  | cons row rows ih =>
    rw [simpleRows, List.filterMap_cons] at *
    cases hp : row.predicate with
    | argNotIn => simpa [List.find?_cons, hp] using ih
    | always =>
      rw [cons_append, exec_jeq, List.find?_cons]
      by_cases hn : acc = ofInt row.nr
      · simp [hn, hp, value]
      · simpa [hn, value, passes] using ih

theorem exec_allowed (a : List UInt32) (ds : List Draft) :
    Draft.exec lo errnos (a.map (⟨jeqK, .allow, .fall, ·⟩) ++ ds) 0 acc =
      if acc ∈ a then some retAllow else Draft.exec lo errnos ds 0 acc := by
  induction a with
  | nil => simp
  | cons v a ih =>
    rw [List.map_cons, cons_append, exec_jeq]
    by_cases hv : acc = v
    · simp [hv, value]
    · simpa [hv, value, passes] using ih

variable {d : SeccompData} {row : Row} {rows : List Row}

theorem load_arg {a : UInt8} (h : a.toNat < 6) :
    d.load (offArgs + a.toUInt32 * 8) = some (d.args ⟨a.toNat, h⟩).toUInt32 ∧
      d.load (offArgs + a.toUInt32 * 8 + 4) = some (d.args ⟨a.toNat, h⟩ >>> 32).toUInt32 := by
  have ha : a = UInt8.ofNat a.toNat := UInt8.ofNat_toNat.symm
  have hn : a.toNat = 0 ∨ a.toNat = 1 ∨ a.toNat = 2 ∨ a.toNat = 3 ∨ a.toNat = 4 ∨ a.toNat = 5 := by omega
  obtain hn | hn | hn | hn | hn | hn := hn <;> rw [hn] at ha <;> subst ha <;> exact ⟨rfl, rfl⟩

theorem any_toUInt64 {x : UInt64} {a : List UInt32} :
    a.any (·.toUInt64 = x) = true ↔ (x >>> 32).toUInt32 = 0 ∧ x.toUInt32 ∈ a := by
  have hx : ∀ v : UInt32, v.toUInt64 = x ↔ (x >>> 32).toUInt32 = 0 ∧ x.toUInt32 = v := by
    intro v
    have hv := v.toNat_lt
    have hx := x.toNat_lt
    simp [← UInt64.toNat_inj, ← toNat_inj, Nat.shiftRight_eq_div_pow]
    omega
  simp only [List.any_eq_true, decide_eq_true_eq, hx]
  grind

theorem Row.Sound.names_iff (h : row.Sound) : d.nr = ofInt row.nr ↔ row.names d = true := by
  have hn := h.nr
  have hd := d.nr.toNat_lt
  rw [← toNat_inj]
  simp [Row.names, ofInt]
  omega

theorem Row.spares_iff {ar : UInt8} {a : List UInt32} (hp : row.predicate = .argNotIn ar a)
    (h : ar.toNat < 6) : row.spares d = true ↔
      (d.args ⟨ar.toNat, h⟩ >>> 32).toUInt32 = 0 ∧ (d.args ⟨ar.toNat, h⟩).toUInt32 ∈ a := by
  rw [Row.spares, hp]
  dsimp only
  rw [dif_pos h, any_toUInt64]

/-- A block passes on a call that its row is not about, and decides one that it is about. -/
theorem exec_argBlock {ar : UInt8} {a : List UInt32} {b : List Draft} (hs : row.Sound)
    (hp : row.predicate = .argNotIn ar a) (h : argBlock row ar a = .ok b) (ds : List Draft) :
    Draft.exec d.load errnos (b ++ ds) 0 d.nr =
      if row.names d then some (row.verdict d) else Draft.exec d.load errnos ds 0 d.nr := by
  unfold argBlock at h
  split at h
  case isFalse => cases h
  case isTrue hl =>
    cases h
    have ha := hs.arg ar a hp
    obtain ⟨hlo, hh⟩ := load_arg (d := d) ha
    simp only [cons_append, nil_append, List.append_assoc, exec_jeq, hs.names_iff]
    by_cases hn : row.names d = true
    · rw [if_pos hn, if_pos hn, Row.verdict]
      simp only [value, passes, Option.none_or, exec_ld, exec_jeq, hh, hlo, Option.bind_some,
        exec_allowed, Row.spares_iff hp ha]
      by_cases hz : (d.args ⟨ar.toNat, ha⟩ >>> 32).toUInt32 = 0
      · by_cases hm : (d.args ⟨ar.toNat, ha⟩).toUInt32 ∈ a
        · simp [hz, hm]
        · simp [hz, hm, Draft.exec, value, show ja ≠ ldAbsW by decide]
      · simp [hz]
    · rw [if_neg hn, if_neg hn]
      let r := Draft.ld (offArgs + ar.toUInt32 * 8 + 4) :: ⟨jeqK, .fall, .errno row.errno, 0⟩ ::
        .ld (offArgs + ar.toUInt32 * 8) :: (a.map (⟨jeqK, .allow, .fall, ·⟩) ++ [⟨ja, .errno row.errno, .fall, 0⟩])
      have hsk : Draft.exec d.load errnos (r ++ ds) r.length d.nr = _ := exec_pass
      simp only [r, cons_append, nil_append, List.append_assoc] at hsk
      rw [← hsk, value, Option.none_or, passes, UInt8.toNat_ofNat_of_lt' hl]
      simp

/-- The blocks decide by the first row with an argument that is about the call. -/
theorem exec_argBlocks {f : Bool} {b : List Draft} (hs : ∀ row ∈ rows, row.Sound)
    (h : argBlocks f rows = .ok b) (hfi : f = true → acc = d.nr) :
    Draft.exec d.load errnos b 0 acc =
      some (((rows.find? fun row => row.names d && row.predicate ≠ .always).map (·.verdict d)).getD retAllow) := by
  induction rows generalizing f b acc with
  | nil =>
    cases h
    rfl
  | cons row rows ih =>
    obtain ⟨hro, hr⟩ := List.forall_mem_cons.mp hs
    unfold argBlocks at h
    split at h
    · next hp => rw [ih hr h hfi, List.find?_cons_of_neg (by simp [hp])]
    · next arg allowed hp =>
      obtain ⟨bl, hb, h⟩ := bind_eq_ok.mp h
      obtain ⟨r, hre, h⟩ := bind_eq_ok.mp h
      cases h
      -- whichever block it is, the accumulator has the number of the call
      have hl : Draft.exec d.load errnos ((if f then [] else [.ld offNr]) ++ bl ++ r) 0 acc =
          Draft.exec d.load errnos (bl ++ r) 0 d.nr := by
        cases f with
        | true => rw [hfi rfl]; rfl
        | false => rfl
      rw [hl, exec_argBlock hro hp hb]
      by_cases hn : row.names d = true
      · rw [if_pos hn, List.find?_cons_of_pos (by simp [hn, hp])]
        rfl
      · rw [if_neg hn, List.find?_cons_of_neg (by simp [hn])]
        exact ih hr hre fun hf => by cases hf

theorem errnosOf_spec (rows : List Row) :
    (errnosOf rows).Nodup ∧ ∀ e, e ∈ errnosOf rows ↔ ∃ row ∈ rows, row.errno = e := by
  have hf : ∀ (rows : List Row) (errnos : List Int), errnos.Nodup →
      let out := rows.foldl (fun errnos row => if row.errno ∈ errnos then errnos else errnos ++ [row.errno]) errnos
      out.Nodup ∧ ∀ e, e ∈ out ↔ e ∈ errnos ∨ ∃ row ∈ rows, row.errno = e := by
    intro rows
    induction rows with
    | nil => simp
    | cons row rows ih =>
      intro errnos hn
      rw [List.foldl_cons]
      split
      · obtain ⟨ho, hm⟩ := ih errnos hn
        refine ⟨ho, fun e => ?_⟩
        rw [hm]
        grind
      · next hno =>
        obtain ⟨ho, hm⟩ := ih (errnos ++ [row.errno]) (by rw [List.nodup_append]; grind)
        refine ⟨ho, fun e => ?_⟩
        rw [hm]
        grind
  simpa only [errnosOf, List.not_mem_nil, false_or] using hf rows [] List.nodup_nil

theorem Draft.plain_ld {k : UInt32} : (Draft.ld k).Plain errnos := ⟨.inl rfl, fun e he => by simp [Draft.ld] at he⟩

theorem argBlock_plain {ar : UInt8} {a : List UInt32} {b : List Draft} (he : row.errno ∈ errnos)
    (h : argBlock row ar a = .ok b) : ∀ d ∈ b, d.Plain errnos := by
  unfold argBlock at h
  split at h
  · cases h
    simp only [List.forall_mem_append, List.forall_mem_cons, List.forall_mem_map]
    refine ⟨⟨⟨⟨.inr (.inl rfl), ?_⟩, Draft.plain_ld, ⟨.inr (.inl rfl), ?_⟩, Draft.plain_ld, ?_⟩, fun v _ => ?_⟩,
      ⟨.inr (.inr (.inr ⟨rfl, _, rfl⟩)), ?_⟩, ?_⟩
    case refine_4 => exact ⟨.inr (.inl rfl), by simp⟩
    all_goals simp [he]
  · cases h

theorem argBlocks_plain {f : Bool} {b : List Draft} (he : ∀ row ∈ rows, row.errno ∈ errnos)
    (h : argBlocks f rows = .ok b) : ∀ d ∈ b, d.Plain errnos := by
  induction rows generalizing f b with
  | nil =>
    cases h
    exact List.forall_mem_nil _
  | cons row rows ih =>
    obtain ⟨hro, hr⟩ := List.forall_mem_cons.mp he
    unfold argBlocks at h
    split at h
    · exact ih hr h
    · obtain ⟨bl, hb, h⟩ := bind_eq_ok.mp h
      obtain ⟨r, hre, h⟩ := bind_eq_ok.mp h
      cases h
      refine List.forall_mem_append.mpr ⟨List.forall_mem_append.mpr ⟨?_, argBlock_plain hro hb⟩, ih hr hre⟩
      cases f <;> simp [Draft.plain_ld]

theorem body_plain {arch : TargetArch} {b : List Draft} (h : argBlocks true rows = .ok b) :
    ∀ d ∈ prologue arch ++ simpleRows rows ++ b, d.Plain (errnosOf rows) := by
  have hm : ∀ row ∈ rows, row.errno ∈ errnosOf rows := fun row hr => ((errnosOf_spec rows).2 _).mpr ⟨row, hr, rfl⟩
  refine List.forall_mem_append.mpr ⟨List.forall_mem_append.mpr ⟨?_, fun d hd => ?_⟩, argBlocks_plain hm h⟩
  · cases arch <;> simp only [prologue, cons_append, nil_append, List.forall_mem_cons] <;>
      refine ⟨Draft.plain_ld, ⟨.inr (.inl rfl), by simp⟩, Draft.plain_ld, ?_⟩
    · exact ⟨⟨.inr (.inr (.inl rfl)), by simp⟩, List.forall_mem_nil _⟩
    · exact List.forall_mem_nil _
  · obtain ⟨row, hr, hd⟩ := List.mem_filterMap.mp hd
    split at hd
    · cases hd
      exact ⟨.inr (.inl rfl), by simp [hm row hr]⟩
    · cases hd

theorem exec_prologue (arch : TargetArch) (ds : List Draft) :
    Draft.exec d.load errnos (prologue arch ++ ds) 0 acc =
      if d.foreign arch then some retKillProcess else Draft.exec d.load errnos ds 0 d.nr := by
  have har : d.load offArch = some d.arch := rfl
  have hn : d.load offNr = some d.nr := rfl
  simp only [prologue, cons_append, nil_append, exec_ld, exec_jeq, har, Option.bind_some]
  by_cases ha : d.arch = arch.native
  · rw [if_pos ha]
    cases arch with
    | aarch64 => simp [ha, SeccompData.foreign, value, passes, exec_ld, hn]
    | x86_64 =>
      by_cases hx : x32SyscallBit ≤ d.nr <;>
        simp [ha, hx, SeccompData.foreign, value, passes, exec_ld, hn, Draft.exec, taken,
          show jgeK ≠ ldAbsW by decide, show jgeK ≠ ja by decide, show jgeK ≠ jeqK by decide]
  · simp [ha, SeccompData.foreign, value]

variable {arch : TargetArch} {prog : List Insn}

theorem run_compile (hs : ∀ row ∈ rows, row.Sound) (h : compile arch rows = .ok prog) (d : SeccompData) :
    run prog d = some (decision arch rows d) := by
  obtain ⟨b, hb, h⟩ := bind_eq_ok.mp h
  obtain ⟨o, hou, h⟩ := bind_eq_ok.mp h
  split at h
  · cases h
  · next hl =>
    cases h
    have hbi : (prologue arch ++ simpleRows rows ++ b).length + (errnosOf rows).length + 1 < 2 ^ 32 := by
      rw [List.length_append, length_emit hou] at hl
      simp only [tail, List.length_cons, List.length_append, List.length_map] at hl ⊢
      omega
    have hf : (rows.find? fun row => d.nr = ofInt row.nr && row.predicate = .always) =
        rows.find? fun row => row.names d && row.predicate = .always :=
      List.find?_congr fun row hr => by rw [Bool.eq_iff_iff]; simp [(hs row hr).names_iff]
    rw [run, emit_exec hou (Nat.zero_add _) hbi (body_plain hb), List.append_assoc, exec_prologue,
      exec_simpleRows, exec_argBlocks hs hb fun _ => rfl, hf, decision]
    split
    · rfl
    · cases rows.find? fun row => row.names d && row.predicate = .always with
      | some row => rfl
      | none =>
        cases rows.find? fun row => row.names d && row.predicate ≠ .always with
        | some row => rfl
        | none => rfl

/-! ### Denied calls -/

/-- The part of a value that says what is done with the call. -/
def action (value : UInt32) : UInt32 := value &&& 0xffff0000

theorem action_errnoOf (e : Int) : action (errnoOf e) = retErrno := by
  have h : ∀ x : UInt32, (0x00050000 ||| (x &&& 0x0000ffff)) &&& 0xffff0000 = 0x00050000 := by
    intro x
    rw [← toNat_inj]
    simp [Nat.and_or_distrib_right, Nat.and_assoc]
  exact h _

theorem decision_kills : decision arch rows d = retKillProcess ↔ d.foreign arch = true := by
  have he : ∀ e, errnoOf e ≠ retKillProcess := fun e h =>
    absurd ((action_errnoOf e).symm.trans (congrArg action h)) (by decide)
  have ha : retAllow ≠ retKillProcess := by decide
  unfold decision
  split
  · simp [*]
  · next hf =>
    refine iff_of_false ?_ hf
    split
    · exact he _
    · split
      · unfold Row.verdict
        split
        · exact ha
        · exact he _
      · exact ha

/-- **A program decides every call as its table says.** -/
theorem compile_decides (hs : ∀ row ∈ rows, row.Sound) (h : compile arch rows = .ok prog) (d : SeccompData) :
    run prog d = some (decision arch rows d) ∧ (decision arch rows d = retKillProcess ↔ d.foreign arch = true) :=
  ⟨run_compile hs h d, decision_kills⟩

/-- A call with these first two arguments. -/
def callOf (nr : UInt32) (a b : UInt64) : SeccompData := 
  ⟨nr, TargetArch.x86_64.native, 0, fun i => if i = 0 then a else if i = 1 then b else 0⟩

/-- One row of each kind. -/
def twoRows : List Row := [⟨250, 1, .always⟩, ⟨41, 97, .argNotIn 0 [1, 2]⟩]

theorem twoRows_sound : ∀ row ∈ twoRows, row.Sound := by
  refine List.forall_mem_cons.mpr ⟨⟨by decide, fun _ _ he => by cases he⟩, List.forall_mem_singleton.mpr ?_⟩
  exact ⟨by decide, fun _ _ he => by cases he; decide⟩

theorem compile_decides_twoRows :
    ∃ prog, compile .x86_64 twoRows = .ok prog ∧ run prog (callOf 41 3 0) = some (errnoOf 97) := by
  obtain ⟨prog, h⟩ : ∃ prog, compile .x86_64 twoRows = .ok prog := ⟨_, rfl⟩
  exact ⟨prog, h, (compile_decides twoRows_sound h _).1.trans (by decide)⟩

/-- A row tests a seventh argument, and the program reads beyond the data; one is about a number of 33 bits, and the
program denies a call that the row does not name. -/
theorem seventh_argument_unread : let wide : Row := ⟨2 ^ 32 + 41, 1, .always⟩
    (compile .x86_64 [⟨41, 1, .argNotIn 6 [1]⟩]).toOption.map (run · (callOf 41 1 0)) = some none ∧
    wide.names (callOf 41 1 0) = false ∧
      (compile .x86_64 [wide]).toOption.map (run · (callOf 41 1 0)) = some (some (errnoOf 1)) := by
  decide +kernel

/-- The program denies the call. -/
def Denied (prog : List Insn) (d : SeccompData) : Prop := (run prog d).map action = some retErrno

/-! ### The order of the rows -/

/-- The instructions of a row with an argument, with the one that reads the number again. -/
def Row.width (row : Row) : Nat := match row.predicate with
  | .always => 0
  | .argNotIn _ allowed => allowed.length + 6

theorem length_argBlocks {f : Bool} {b : List Draft} (h : argBlocks f rows = .ok b) :
    (∀ row ∈ rows, row.width < 258) ∧ b.length = (rows.map Row.width).sum - if f then 1 else 0 := by
  induction rows generalizing f b with
  | nil =>
    cases h
    simp
  | cons row rows ih =>
    unfold argBlocks at h
    rw [List.forall_mem_cons, List.map_cons, List.sum_cons, Row.width]
    split at h
    · exact ⟨⟨by decide, (ih h).1⟩, by simp [(ih h).2]⟩
    · obtain ⟨bl, hb, h⟩ := bind_eq_ok.mp h
      obtain ⟨r, hr, h⟩ := bind_eq_ok.mp h
      cases h
      unfold argBlock at hb
      split at hb
      · cases hb
        have hlen := (ih hr).2
        refine ⟨⟨by omega, (ih hr).1⟩, ?_⟩
        cases f <;> simp [hlen] <;> omega
      · cases hb

theorem exists_argBlocks (h : ∀ row ∈ rows, row.width < 258) (f : Bool) : ∃ b, argBlocks f rows = .ok b := by
  induction rows generalizing f with
  | nil => exact ⟨[], rfl⟩
  | cons row rows ih =>
    obtain ⟨hw, h⟩ := List.forall_mem_cons.mp h
    unfold argBlocks
    split
    · exact ih h f
    · next arg allowed hp =>
      rw [Row.width, hp] at hw
      obtain ⟨r, hr⟩ := ih h false
      rw [argBlock, if_pos (by dsimp only at hw; omega), hr]
      exact ⟨_, rfl⟩

theorem exists_resolve (h : b + errnos.length < pos + 256) (l : Label) : ∃ n, l.resolve b errnos pos = .ok n := by
  unfold Label.resolve
  split
  · next target ht =>
    have hle : target ≤ b + 1 + errnos.length := by
      cases l <;> cases ht
      case errno e => exact Nat.add_le_add_left List.idxOf_le_length _
      all_goals omega
    exact ⟨_, if_pos (by omega)⟩
  · exact ⟨_, rfl⟩

theorem exists_emit (ds : List Draft) (h : b + errnos.length < pos + 256) : ∃ o, emit b errnos pos ds = .ok o := by
  induction ds generalizing pos with
  | nil => exact ⟨[], rfl⟩
  | cons d ds ih =>
    obtain ⟨o, ho⟩ := ih (show b + errnos.length < pos + 1 + 256 by omega)
    obtain ⟨i, hi⟩ : ∃ i, d.insn b errnos pos = .ok i := by
      obtain ⟨jt, hjt⟩ := exists_resolve h d.jt
      obtain ⟨jf, hjf⟩ := exists_resolve h d.jf
      unfold Draft.insn
      split
      · exact ⟨_, rfl⟩
      · exact ⟨_, by rw [hjt, hjf]; rfl⟩
    exact ⟨i :: o, by rw [emit, hi, ho]; rfl⟩

/-- The jump of the prologue to the end of the program is the longest of all, so a table is accepted as that jump is. -/
theorem compile_accepts : (∃ prog, compile arch rows = .ok prog) ↔ (∀ row ∈ rows, row.width < 258) ∧
    (prologue arch).length + (simpleRows rows).length + ((rows.map Row.width).sum - 1) + (errnosOf rows).length <
      257 := by
  constructor
  · rintro ⟨prog, h⟩
    obtain ⟨b, hb, h⟩ := bind_eq_ok.mp h
    obtain ⟨o, ho, -⟩ := bind_eq_ok.mp h
    obtain ⟨hw, hlen⟩ := length_argBlocks hb
    refine ⟨hw, ?_⟩
    obtain ⟨i, -, ho⟩ := bind_eq_ok.mp ho
    obtain ⟨o, ho, -⟩ := bind_eq_ok.mp ho
    obtain ⟨i, hi, -⟩ := bind_eq_ok.mp ho
    obtain ⟨jt, -, hi⟩ := bind_eq_ok.mp hi
    obtain ⟨jf, hj, -⟩ := bind_eq_ok.mp hi
    simp only [Label.resolve, Label.place, List.length_append, hlen, if_true] at hj
    split at hj
    · omega
    · cases hj
  · rintro ⟨hw, hl⟩
    obtain ⟨b, hb⟩ := exists_argBlocks hw true
    have hlen := (length_argBlocks hb).2
    rw [if_pos rfl] at hlen
    obtain ⟨ds, hds⟩ : ∃ ds, prologue arch ++ simpleRows rows ++ b = .ld offArch :: ds := ⟨_, rfl⟩
    have hbo : (prologue arch ++ simpleRows rows ++ b).length + (errnosOf rows).length < 257 := by
      simp only [List.length_append, hlen]
      omega
    obtain ⟨o, ho⟩ := exists_emit ds (show _ < 1 + 256 from hbo)
    have hem : emit (prologue arch ++ simpleRows rows ++ b).length (errnosOf rows) 0
        (prologue arch ++ simpleRows rows ++ b) = .ok (⟨ldAbsW, 0, 0, offArch⟩ :: o) := by
      rw [hds] at ho ⊢
      rw [emit, ho]
      rfl
    have hou := length_emit hem
    refine ⟨(⟨ldAbsW, 0, 0, offArch⟩ :: o) ++ tail (errnosOf rows), ?_⟩
    refine bind_eq_ok.mpr ⟨b, hb, bind_eq_ok.mpr ⟨_, hem, if_neg ?_⟩⟩
    rw [List.length_append, hou]
    simp only [tail, List.length_cons, List.length_append, List.length_map, List.length_nil] at hbo ⊢
    omega

theorem compile_perm {rows' : List Row} (hp : rows.Perm rows') (h : compile arch rows = .ok prog) :
    ∃ prog', compile arch rows' = .ok prog' := by
  obtain ⟨hw, hl⟩ := compile_accepts.mp ⟨prog, h⟩
  have herr : (errnosOf rows).length = (errnosOf rows').length := by
    refine (List.perm_ext_iff_of_nodup (errnosOf_spec rows).1 (errnosOf_spec rows').1).mpr (fun e => ?_) |>.length_eq
    simp [(errnosOf_spec _).2, hp.mem_iff]
  refine compile_accepts.mpr ⟨fun row hm => hw row (hp.mem_iff.mpr hm), ?_⟩
  rwa [← herr, ← (hp.map Row.width).sum_nat, simpleRows, ← (hp.filterMap _).length_eq]

/-- The rows agree on every call: if no row denies it whatever its arguments, the rows about it all spare it or none. -/
def AgreeOn (arch : TargetArch) (rows : List Row) : Prop :=
  ∀ d : SeccompData, d.foreign arch = false → (∀ row ∈ rows, row.names d = true → row.predicate ≠ .always) →
    ∀ a ∈ rows, ∀ b ∈ rows, a.names d = true → b.names d = true → a.spares d = true → b.spares d = true

theorem denied_iff (hs : ∀ row ∈ rows, row.Sound) (ha : AgreeOn arch rows) (h : compile arch rows = .ok prog) :
    Denied prog d ↔ d.foreign arch = false ∧ ∃ row ∈ rows, row.denies d = true := by
  have hal : action retAllow ≠ retErrno := by decide
  have hk : action retKillProcess ≠ retErrno := by decide
  rw [Denied, run_compile hs h d, decision, Option.map_some, Option.some_inj]
  split
  · next hf => simp [hf, hk]
  · next hf =>
    rw [Bool.not_eq_true] at hf
    rw [and_iff_right hf]
    split
    · next row hr =>
      have hp := List.find?_some hr
      rw [Bool.and_eq_true, decide_eq_true_eq] at hp
      refine iff_of_true (action_errnoOf _) ⟨row, List.mem_of_find?_eq_some hr, ?_⟩
      simp [Row.denies, Row.spares, hp]
    · next hno =>
      have hno : ∀ row ∈ rows, row.names d = true → row.predicate ≠ .always := by
        simpa [List.find?_eq_none] using hno
      split
      · next row hr =>
        have hm := List.mem_of_find?_eq_some hr
        have hn : row.names d = true := by
          have hp := List.find?_some hr
          exact (Bool.and_eq_true_iff.mp hp).1
        unfold Row.verdict
        split
        · next hsp =>
          refine iff_of_false hal ?_
          rintro ⟨r', hm', hd⟩
          obtain ⟨hn', hsp'⟩ : r'.names d = true ∧ r'.spares d = false := by simpa [Row.denies] using hd
          exact absurd ((ha d hf hno row hm r' hm' hn hn' hsp).symm.trans hsp') (by decide)
        · next hsp => exact iff_of_true (action_errnoOf _) ⟨row, hm, by simp [Row.denies, hn, hsp]⟩
      · next hn' =>
        rw [List.find?_eq_none] at hn'
        refine iff_of_false hal ?_
        rintro ⟨row, hm, hd⟩
        have hn : row.names d = true := (Bool.and_eq_true_iff.mp hd).1
        exact hn' row hm (by simp [hn, hno row hm hn])

/-- A row that spares a call lets it pass if it is the first of its table. -/
theorem not_denied_of_head {a : Row} (hs : ∀ row ∈ a :: rows, row.Sound) (h : compile arch (a :: rows) = .ok prog)
    (hf : d.foreign arch = false) (hno : ∀ row ∈ a :: rows, row.names d = true → row.predicate ≠ .always)
    (hn : a.names d = true) (hsp : a.spares d = true) : ¬ Denied prog d := by
  have hal : (a :: rows).find? (fun row => row.names d && row.predicate = .always) = none := by
    simpa [List.find?_eq_none] using hno
  rw [Denied, run_compile hs h d, decision, if_neg (by simp [hf]), hal, List.find?_cons_of_pos
    (by simp [hn, hno a List.mem_cons_self hn])]
  simp [Row.verdict, hsp]
  decide

/-- **The order of the rows does not matter exactly if the rows agree on every call**: what is denied, in each order
that the compiler takes, is what some row denies. -/
theorem row_order_kept (hs : ∀ row ∈ rows, row.Sound) (h : compile arch rows = .ok prog) :
    (∀ rows' prog', rows.Perm rows' → compile arch rows' = .ok prog' → ∀ d,
      Denied prog' d ↔ d.foreign arch = false ∧ ∃ row ∈ rows, row.denies d = true) ↔ AgreeOn arch rows := by
  constructor
  · intro hall d hf hno a ha b hb hna hnb hsa
    by_contra hsb
    -- the order with the sparing row in front lets the call pass, though the other row denies it
    obtain ⟨front, back, rfl⟩ := List.append_of_mem ha
    have hp : (front ++ a :: back).Perm (a :: (front ++ back)) := List.perm_middle
    obtain ⟨prog', h'⟩ := compile_perm hp h
    have hden := (hall _ prog' hp h' d).mpr ⟨hf, b, hb, by simp [Row.denies, hnb, hsb]⟩
    exact not_denied_of_head (fun row hm => hs row (hp.mem_iff.mpr hm)) h' hf
      (fun row hm => hno row (hp.mem_iff.mpr hm)) hna hsa hden
  · intro ha rows' prog' hp h' d
    rw [denied_iff (fun row hm => hs row (hp.mem_iff.mpr hm)) ?_ h']
    · simp [hp.mem_iff]
    · intro d hf hno a hma b hmb
      exact ha d hf (fun row hm => hno row (hp.mem_iff.mp hm)) a (hp.mem_iff.mpr hma) b (hp.mem_iff.mpr hmb)

theorem row_order_kept_twoRows : ∃ prog, compile .x86_64 twoRows = .ok prog ∧ Denied prog (callOf 41 3 0) := by
  obtain ⟨prog, h⟩ : ∃ prog, compile .x86_64 twoRows = .ok prog := ⟨_, rfl⟩
  have ha : AgreeOn .x86_64 twoRows := by
    intro d _ hno a ha b hb hna hnb hsa
    simp only [twoRows, List.mem_cons, List.not_mem_nil, or_false] at ha hb
    rcases ha with rfl | rfl
    · exact absurd rfl (hno _ (by simp [twoRows]) hna)
    · rcases hb with rfl | rfl
      · exact absurd rfl (hno _ (by simp [twoRows]) hnb)
      · exact hsa
  exact ⟨prog, h, ((row_order_kept twoRows_sound h).mpr ha _ _ (.refl _) h _).mpr (by decide)⟩

/-- Two rows for one call: the first to find its argument allowed lets the call pass. -/
theorem two_arguments_disagree :
    (compile .x86_64 [⟨41, 1, .argNotIn 0 [1]⟩, ⟨41, 1, .argNotIn 1 [5]⟩]).toOption.map (run · (callOf 41 1 7)) =
      some (some retAllow) ∧
    (compile .x86_64 [⟨41, 1, .argNotIn 1 [5]⟩, ⟨41, 1, .argNotIn 0 [1]⟩]).toOption.map (run · (callOf 41 1 7)) =
      some (some (errnoOf 1)) := by
  decide +kernel

end Vitrin.Seccomp
