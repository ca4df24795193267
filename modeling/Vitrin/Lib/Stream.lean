import Mathlib.Data.List.Forall2

/-!
# Byte streams with attachments

A stream socket carries bytes and, beside them, things that are not bytes: a write may
attach one, and it arrives with the read that takes the first byte of that write. The
reader learns which read brought an attachment, not which byte it was attached to.

A stream is a list of `Cell`s: a byte, and what is attached at it. `laden a bytes` are the
cells of one write. A channel in between holds `Segment`s, one for each write, and `recv`
is the most a read may do: it joins segments without an attachment, and ends at or inside
the first segment that has one. A reader keeps, for each attachment, the `Span` of the
read that brought it; `Carries` relates what it keeps to the cells it has taken.

`recv_cells` says that a read takes cells from the front and loses none, `recv_attached`
that it brings at most one attachment. The rest is the reader's argument: by
`Carries.spanEnd_gt` nothing kept for later bytes looks as if it belonged to earlier ones.
-/

namespace Vitrin.Lib

universe u v

variable {β : Type u} {φ : Type v}

abbrev Cell (β : Type u) (φ : Type v) := β × Option φ

/-- The cells of one write: what it attaches is at its first byte. -/
def laden (a : Option φ) : List β → List (Cell β φ)
  | [] => []
  | b :: bs => (b, a) :: bs.map (·, none)

def attached (cells : List (Cell β φ)) : List φ := cells.filterMap (·.2)

variable {a : Option φ}

@[simp] theorem laden_nil : laden a ([] : List β) = [] := rfl

theorem laden_none (bytes : List β) : laden (none : Option φ) bytes = bytes.map (·, none) := by
  cases bytes <;> rfl

theorem laden_cons {b : β} {bs : List β} : laden a (b :: bs) = (b, a) :: laden none bs := by
  rw [laden_none]
  rfl

variable {bytes : List β}

@[simp] theorem map_fst_laden : (laden a bytes).map (·.1) = bytes := by
  induction bytes generalizing a with
  | nil => rfl
  | cons b bs ih => rw [laden_cons, List.map_cons, ih]

@[simp] theorem length_laden (a : Option φ) (bytes : List β) : (laden a bytes).length = bytes.length := by
  cases bytes with
  | nil => rfl
  | cons b bs => simp [laden]

theorem laden_append {r : List β} (h : bytes ≠ []) : laden a (bytes ++ r) = laden a bytes ++ laden none r := by
  cases bytes with
  | nil => exact absurd rfl h
  | cons b bs => rw [List.cons_append, laden_cons, laden_cons, laden_none, laden_none, laden_none, List.map_append]; rfl

variable {n : Nat}

theorem take_laden : (laden a bytes).take n = laden a (bytes.take n) := by
  cases bytes with
  | nil => simp
  | cons b bs => cases n <;> simp [laden]

theorem laden_take_append_drop (h : 0 < n) : laden a (bytes.take n) ++ laden none (bytes.drop n) = laden a bytes := by
  cases bytes with
  | nil => simp
  | cons b bs =>
    have hn : (b :: bs).take n ≠ [] := by simpa using Nat.ne_of_gt h
    rw [← laden_append hn, List.take_append_drop]

/-! ### The channel -/

/-- What one write put into the channel. -/
structure Segment (β : Type u) (φ : Type v) where
  bytes : List β
  attachment : Option φ
  nonempty : bytes ≠ []

def Segment.ofWrite (a : Option φ) (bytes : List β) : List (Segment β φ) :=
  if h : bytes = [] then [] else [⟨bytes, a, h⟩]

def Segment.cells (s : Segment β φ) : List (Cell β φ) := laden s.attachment s.bytes

def cells (channel : List (Segment β φ)) : List (Cell β φ) := channel.flatMap Segment.cells

@[simp] theorem cells_nil : cells ([] : List (Segment β φ)) = [] := rfl

variable {p : List (Segment β φ)}

@[simp] theorem cells_append {q : List (Segment β φ)} : cells (p ++ q) = cells p ++ cells q := List.flatMap_append

@[simp] theorem cells_cons {s : Segment β φ} : cells (s :: p) = s.cells ++ cells p := rfl

@[simp] theorem cells_ofWrite : cells (Segment.ofWrite a bytes) = laden a bytes := by
  unfold Segment.ofWrite
  split
  · next h => rw [h]; rfl
  · simp [Segment.cells]

/-- Take up to `n` bytes: segments without an attachment are joined, and the read ends at or inside the first segment
that has one. The rest of a segment that was begun attaches nothing. -/
def recv (n : Nat) : List (Segment β φ) → List (Cell β φ) × List (Segment β φ)
  | [] => ([], [])
  | s :: rest =>
    if n = 0 then ([], s :: rest)
    else if h : n < s.bytes.length then
      (laden s.attachment (s.bytes.take n), ⟨s.bytes.drop n, none, by simpa using h⟩ :: rest)
    else if s.attachment.isSome then (s.cells, rest)
    else (s.cells ++ (recv (n - s.bytes.length) rest).1, (recv (n - s.bytes.length) rest).2)

theorem recv_cells : (recv n p).1 ++ cells (recv n p).2 = cells p := by
  induction p generalizing n with
  | nil => rfl
  | cons s r ih =>
    unfold recv
    split_ifs with hz hi hs
    · rfl
    · rw [cells_cons, ← List.append_assoc]
      exact congrArg (· ++ cells r) (laden_take_append_drop (by omega))
    · rfl
    · rw [List.append_assoc, ih]
      rfl

theorem attached_append {cs ds : List (Cell β φ)} : attached (cs ++ ds) = attached cs ++ attached ds :=
  List.filterMap_append

theorem attached_laden_none (bytes : List β) : attached (laden (none : Option φ) bytes) = [] := by
  rw [laden_none, attached, List.filterMap_map]
  exact List.filterMap_eq_nil_iff.mpr fun _ _ => rfl

theorem attached_laden (a : Option φ) (h : bytes ≠ []) : attached (laden a bytes) = a.toList := by
  cases bytes with
  | nil => exact absurd rfl h
  | cons b bs =>
    have hr : attached (laden none bs : List (Cell β φ)) = [] := attached_laden_none bs
    rw [laden_cons]
    cases a with
    | none => exact hr
    | some x => exact congrArg (x :: ·) hr

theorem length_attached_laden_le {a : Option φ} {bytes : List β} : (attached (laden a bytes)).length ≤ 1 := by
  by_cases h : bytes = []
  · rw [h]
    exact Nat.zero_le 1
  · rw [attached_laden a h]
    cases a
    · exact Nat.zero_le 1
    · exact Nat.le_refl 1

theorem recv_attached : (attached (recv n p).1).length ≤ 1 := by
  induction p generalizing n with
  | nil => exact Nat.zero_le 1
  | cons s r ih =>
    unfold recv
    split_ifs with hz hi hs
    · exact Nat.zero_le 1
    · exact length_attached_laden_le
    · exact length_attached_laden_le
    · rw [attached_append, Segment.cells, Option.not_isSome_iff_eq_none.mp hs, attached_laden_none]
      exact ih

/-! ### The reader's side -/

/-- An attachment, and the part of the stream that the read which brought it took. -/
structure Span (φ : Type v) where
  spanStart : Nat
  spanEnd : Nat
  fd : φ
  deriving DecidableEq

/-- Where along a stream that starts at `off` something is attached. -/
def places (off : Nat) : List (Cell β φ) → List (Nat × φ)
  | [] => []
  | (_, a) :: cs => a.toList.map (off, ·) ++ places (off + 1) cs

variable {off : Nat}

theorem places_append {cs ds : List (Cell β φ)} :
    places off (cs ++ ds) = places off cs ++ places (off + cs.length) ds := by
  induction cs generalizing off with
  | nil => rfl
  | cons c cs ih =>
    rw [List.cons_append, places, places, ih, List.append_assoc, List.length_cons]
    congr 3
    omega

theorem places_laden_none {bytes : List β} : places off (laden (none : Option φ) bytes) = [] := by
  rw [laden_none]
  induction bytes generalizing off with
  | nil => rfl
  | cons b bs ih => exact ih

theorem places_laden_some (off : Nat) (x : φ) (h : bytes ≠ []) : places off (laden (some x) bytes) = [(off, x)] := by
  cases bytes with
  | nil => exact absurd rfl h
  | cons b bs =>
    rw [laden, ← laden_none, places, places_laden_none]
    rfl

variable {off : Nat} {cs : List (Cell β φ)}

theorem mem_places {m : Nat × φ} (h : m ∈ places off cs) : off ≤ m.1 ∧ m.1 < off + cs.length := by
  induction cs generalizing off with
  | nil => cases h
  | cons c cs ih =>
    rw [places, List.mem_append] at h
    rcases h with h | h
    · obtain ⟨x, -, rfl⟩ := List.mem_map.mp h
      simp
    · have := ih h
      rw [List.length_cons]
      omega

theorem map_snd_places (off : Nat) (cs : List (Cell β φ)) : (places off cs).map (·.2) = attached cs := by
  induction cs generalizing off with
  | nil => rfl
  | cons c cs ih =>
    obtain ⟨b, _ | x⟩ := c
    · exact ih (off + 1)
    · exact congrArg (x :: ·) (ih (off + 1))

/-- What a reader keeps of the attachments of the cells it has taken: each with the span of a read that took the
cell. -/
def Carries (off : Nat) (cs : List (Cell β φ)) (pending : List (Span φ)) : Prop :=
  List.Forall₂ (fun s m => s.fd = m.2 ∧ s.spanStart ≤ m.1 ∧ m.1 < s.spanEnd) pending (places off cs)

theorem carries_nil (off : Nat) : Carries off ([] : List (Cell β φ)) [] := .nil

theorem carries_laden_none (bytes : List β) : Carries off (laden (none : Option φ) bytes) [] := by
  unfold Carries
  rw [places_laden_none]
  exact .nil

theorem carries_laden_some {s : Span φ} (hn : bytes ≠ []) (hs : s.spanStart ≤ off) (he : off < s.spanEnd) :
    Carries off (laden (some s.fd) bytes) [s] := by
  unfold Carries
  rw [places_laden_some off s.fd hn]
  exact .cons ⟨rfl, hs, he⟩ .nil

variable {pe : List (Span φ)}

section

variable (h : Carries off cs pe)

include h

theorem Carries.length : pe.length = (attached cs).length := by
  rw [List.Forall₂.length_eq h, ← map_snd_places off cs, List.length_map]

theorem Carries.concat {ds : List (Cell β φ)} {l : List (Span φ)}
    (hl : Carries (off + cs.length) ds l) : Carries off (cs ++ ds) (pe ++ l) := by
  unfold Carries at *
  rw [places_append]
  exact List.rel_append h hl

/-- A read adds its cells, and what it brought is kept with the span of those cells. -/
theorem Carries.append (ds : List (Cell β φ)) : Carries off (cs ++ ds)
      (pe ++ (attached ds).map (⟨off + cs.length, off + cs.length + ds.length, ·⟩)) := by
  refine h.concat ?_
  unfold Carries
  rw [← map_snd_places (off + cs.length) ds, List.map_map, List.forall₂_map_left_iff, List.forall₂_same]
  intro m hm
  obtain ⟨hl, hlt⟩ := mem_places hm
  exact ⟨rfl, hl, hlt⟩

end

theorem Carries.laden_none (h : Carries off (laden none bytes ++ cs) pe) : Carries (off + bytes.length) cs pe := by
  unfold Carries at h
  rwa [places_append, places_laden_none, List.nil_append, length_laden] at h

/-- A write with an attachment, taken off the front: what it attaches is the first of what is kept, and the read that
brought it began no later than the write. -/
theorem Carries.laden_some {x : φ} (hn : bytes ≠ []) (h : Carries off (laden (some x) bytes ++ cs) pe) :
    ∃ s r, pe = s :: r ∧ s.fd = x ∧ s.spanStart ≤ off ∧ Carries (off + bytes.length) cs r := by
  unfold Carries at h
  rw [places_append, places_laden_some off x hn, length_laden] at h
  cases h with
  | cons hs hr => exact ⟨_, _, rfl, hs.1, hs.2.1, hr⟩

/-- What is kept was brought by a read that went beyond the cells taken before. -/
theorem Carries.spanEnd_gt {s : Span φ} {r : List (Span φ)} (h : Carries off cs (s :: r)) : off < s.spanEnd := by
  unfold Carries at h
  generalize hm : places off cs = ms at h
  cases h with
  | cons hs _ =>
    have hme := mem_places (hm ▸ List.mem_cons_self : _ ∈ places off cs)
    omega

end Vitrin.Lib
