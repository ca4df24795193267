import Vitrin.Shim.Wire

/-!
# What the shim's transport writes

The bytes that the kernel takes from the shim, and the descriptors that the shim
duplicates for frames it parks.

The functions `written`, `sentIn`, `refusedIn`, `dupedIn` and `closedDupsIn` read a log.
What was written is read byte by byte, each byte with what was attached at it, so that
`Frame.cells` says both what a frame's bytes are and where its descriptor belongs.

A step of the send side is a `Moves`: it adds some cells to the stream of what is written
and what is parked, or it fails, and then the connection is given up and what was written
is a beginning of that stream. Every function of the send side gets one, and they are
chained by `Moves.trans`. `Side` is the part that concerns the rest of the connection:
which duplicates there are, and who holds them (`Owned`).

`Streams` is what holds between two calls. A send keeps it (`Streams.send`), and on a
connection that was given up a send writes nothing (`sendAll_dead`).
-/

namespace Vitrin.Shim

open Lib Protocol Ipc
open List (flatMap_append filterMap_append append_nil length_drop append_assoc prefix_append)

universe u

variable {φ : Type u}

/-! ### Reading the log -/

/-- What the kernel took, byte by byte, with what was attached. -/
def written (log : List (Mark φ)) : List (Cell UInt8 φ) := log.flatMap fun
  | .wrote segment => segment.cells
  | _ => []

/-- The frames whose send returned true. -/
def sentIn (log : List (Mark φ)) : List (Ipc.Frame φ) := log.filterMap fun
  | .sent frame true => some frame
  | _ => none

/-- The frames whose send returned false. -/
def refusedIn (log : List (Mark φ)) : List (Ipc.Frame φ) := log.filterMap fun
  | .sent frame false => some frame
  | _ => none

def dupedIn (log : List (Mark φ)) : List (Dup φ) := log.filterMap fun
  | .duped d => some d
  | _ => none

def closedDupsIn (log : List (Mark φ)) : List (Dup φ) := log.filterMap fun
  | .closedDup d => some d
  | _ => none

def handedIn (log : List (Mark φ)) : List (Ipc.Frame φ) := log.filterMap fun
  | .handed frame => some frame
  | _ => none

section

variable (log mo : List (Mark φ))

@[simp] theorem written_append : written (log ++ mo) = written log ++ written mo := flatMap_append

@[simp] theorem sentIn_append : sentIn (log ++ mo) = sentIn log ++ sentIn mo := filterMap_append

@[simp] theorem refusedIn_append : refusedIn (log ++ mo) = refusedIn log ++ refusedIn mo := filterMap_append

@[simp] theorem dupedIn_append : dupedIn (log ++ mo) = dupedIn log ++ dupedIn mo := filterMap_append

@[simp] theorem closedDupsIn_append : closedDupsIn (log ++ mo) = closedDupsIn log ++ closedDupsIn mo :=
  filterMap_append

@[simp] theorem handedIn_append : handedIn (log ++ mo) = handedIn log ++ handedIn mo := filterMap_append

end

/-- Marks that are neither a frame for the handler nor about duplicates. -/
structure Plain (marks : List (Mark φ)) : Prop where
  handed : handedIn marks = []
  duped : dupedIn marks = []
  closed : closedDupsIn marks = []

theorem plain_wrote (se : List (Segment UInt8 φ)) : Plain (se.map Mark.wrote) := by
  constructor <;> simp [handedIn, dupedIn, closedDupsIn]

theorem plain_closed (fd : List φ) : Plain (fd.map Mark.closed) := by
  constructor <;> simp [handedIn, dupedIn, closedDupsIn]

theorem plain_sent (f : Ipc.Frame φ) (ok : Bool) : Plain [Mark.sent f ok] := by
  cases ok <;> exact ⟨rfl, rfl, rfl⟩

theorem plain_drained : Plain [(Mark.drained : Mark φ)] := ⟨rfl, rfl, rfl⟩

theorem plain_finished : Plain [(Mark.finished : Mark φ)] := ⟨rfl, rfl, rfl⟩

theorem written_wrote {se : List (Segment UInt8 φ)} : written (se.map Mark.wrote) = cells se := by
  simp [written, cells, List.flatMap_map]

theorem written_closed {fd : List φ} : written (fd.map Mark.closed) = [] := by
  simp [written]

/-- Marks that are neither a frame for the handler nor the end of a send. -/
structure Silent (marks : List (Mark φ)) : Prop where
  handed : handedIn marks = []
  sent : sentIn marks = []
  refused : refusedIn marks = []

theorem silent_wrote (se : List (Segment UInt8 φ)) : Silent (se.map Mark.wrote) := by
  constructor <;> simp [handedIn, sentIn, refusedIn]

/-- Marks that are not about sending. -/
structure Inert (marks : List (Mark φ)) : Prop where
  written : written marks = []
  sent : sentIn marks = []
  refused : refusedIn marks = []
  duped : dupedIn marks = []
  closed : closedDupsIn marks = []

theorem inert_closed (fd : List φ) : Inert (fd.map Mark.closed) := by
  constructor <;> simp [written, sentIn, refusedIn, dupedIn, closedDupsIn]

theorem inert_claimed {fd : List φ} : Inert (fd.map Mark.claimed) := by
  constructor <;> simp [written, sentIn, refusedIn, dupedIn, closedDupsIn]

theorem inert_received (fd : List φ) : Inert (fd.map Mark.received) := by
  constructor <;> simp [written, sentIn, refusedIn, dupedIn, closedDupsIn]

theorem inert_handed (f : Ipc.Frame φ) : Inert [Mark.handed f] := ⟨rfl, rfl, rfl, rfl, rfl⟩

theorem inert_drained : Inert [(Mark.drained : Mark φ)] := ⟨rfl, rfl, rfl, rfl, rfl⟩

theorem inert_finished : Inert [(Mark.finished : Mark φ)] := ⟨rfl, rfl, rfl, rfl, rfl⟩

/-! ### The receiving side during a send -/

variable {m : List (Mark φ)} {bytes : List UInt8} {ans : List Sendmsg}

namespace Wire

def withPending (w : Wire φ) (pending : Ring (PendingFd φ) maxUnclaimed) : Wire φ := { w with pending }

def heldDups (w : Wire φ) : List (Dup φ) := w.queue.toList.filterMap (·.fd)

/-- Every duplicate has been closed or is in the queue, and no two have the same name. -/
structure Owned (w : Wire φ) : Prop where
  held : dupedIn w.log = closedDupsIn w.log ++ w.heldDups
  names : (dupedIn w.log).map (·.id) = List.range w.dups

theorem failed_of_alive {w : Wire φ} (h : w.alive = true) : w.failed = none := by
  unfold alive at h
  simp only [Bool.and_eq_true] at h
  exact Option.isNone_iff_eq_none.mp h.1.2

theorem alive_of_failed {w : Wire φ} (h : w.failed.isSome) : w.alive = false := by
  by_contra hl
  rw [failed_of_alive (Bool.not_eq_false _ ▸ hl)] at h
  cases h

theorem alive_fail (w : Wire φ) (r : Failure) : (w.fail r).alive = false := by
  have hf : (w.fail r).failed = w.failed.or (some r) := rfl
  unfold alive
  rw [hf]
  cases w.failed <;> simp

theorem alive_eof (w : Wire φ) : { w with eof := true }.alive = false := by simp [alive]

/-- What the send side may do to the rest of the connection: it may give the connection up, and then what was received
is dropped. -/
structure Side (w w' : Wire φ) : Prop where
  rx : w'.rx = w.rx
  consumed : w'.consumed = w.consumed
  pending : w'.pending.toList = w.pending.toList ∨ (w'.failed.isSome ∧ w'.pending.toList = [])
  sticky : ∀ r, w.failed = some r → w'.failed = some r
  blameless : ∀ r, w'.failed = some r → w.failed = some r ∨ ¬ r.Violation
  handed : handedIn w'.log = handedIn w.log
  dead : w.alive = false → w'.alive = false
  owned : w.Owned → w'.Owned

namespace Side

variable {w w' w'' : Wire φ}

theorem refl (w : Wire φ) : Side w w := ⟨rfl, rfl, .inl rfl, fun _ => id, fun _ => .inl, rfl, id, id⟩

theorem trans (h : Side w w') (h' : Side w' w'') : Side w w'' where
  rx := h'.rx.trans h.rx
  consumed := h'.consumed.trans h.consumed
  pending := by
    rcases h'.pending with hs | hdr
    · rcases h.pending with hb | ⟨hf, hn⟩
      · exact .inl (hs.trans hb)
      · obtain ⟨r, hr⟩ := Option.isSome_iff_exists.mp hf
        exact .inr ⟨Option.isSome_iff_exists.mpr ⟨r, h'.sticky r hr⟩, hs.trans hn⟩
    · exact .inr hdr
  sticky r hr := h'.sticky r (h.sticky r hr)
  blameless r hr := by
    rcases h'.blameless r hr with hb | hours
    · exact h.blameless r hb
    · exact .inr hours
  handed := h'.handed.trans h.handed
  dead hd := h'.dead (h.dead hd)
  owned how := h'.owned (h.owned how)

theorem note (w : Wire φ) (h : Plain m) : Side w (w.note m) where
  rx := rfl
  consumed := rfl
  pending := .inl rfl
  sticky _ := id
  blameless _ := .inl
  handed := by
    change handedIn (w.log ++ m) = _
    rw [handedIn_append, h.handed, append_nil]
  dead := id
  owned how := by
    constructor
    · change dupedIn (w.log ++ m) = closedDupsIn (w.log ++ m) ++ w.heldDups
      rw [dupedIn_append, closedDupsIn_append, h.duped, h.closed, append_nil, append_nil, how.held]
    · change (dupedIn (w.log ++ m)).map _ = List.range w.dups
      rw [dupedIn_append, h.duped, append_nil, how.names]

end Side

/-- The connection is given up, and nothing is written. -/
structure Broken (w w' : Wire φ) : Prop where
  side : Side w w'
  alive : w'.alive = false
  queue : w'.queue = w.queue
  big : w'.big = w.big
  bigOffset : w'.bigOffset = w.bigOffset
  written : written w'.log = written w.log
  sent : sentIn w'.log = sentIn w.log
  refused : refusedIn w'.log = refusedIn w.log

theorem broken_eof (w : Wire φ) : Broken w { w with eof := true } where
  side := ⟨rfl, rfl, .inl rfl, fun _ => id, fun _ => .inl, rfl, fun _ => w.alive_eof, fun h => ⟨h.held, h.names⟩⟩
  alive := w.alive_eof
  queue := rfl
  big := rfl
  bigOffset := rfl
  written := rfl
  sent := rfl
  refused := rfl

theorem broken_fail (w : Wire φ) {re : Failure} (h : ¬ re.Violation) : Broken w (w.fail re) := by
  have hp := plain_closed (w.pending.toList.filterMap (·.fd))
  have hs := Side.note w hp
  have hf : (w.fail re).failed = w.failed.or (some re) := rfl
  refine ⟨⟨rfl, rfl, .inr ⟨?_, Ring.toList_clear⟩, fun r hr => ?_, fun r hr => ?_, hs.handed,
    fun _ => w.alive_fail re, fun how => ⟨(hs.owned how).held, (hs.owned how).names⟩⟩,
    w.alive_fail re, rfl, rfl, rfl, ?_, ?_, ?_⟩
  · rw [hf]
    cases w.failed <;> rfl
  · rw [hf, hr]
    rfl
  · rw [hf] at hr
    cases hb : w.failed with
    | none =>
      rw [hb] at hr
      cases Option.some.inj hr
      exact .inr h
    | some r' =>
      rw [hb] at hr
      exact .inl hr
  · change Shim.written (w.log ++ (w.pending.toList.filterMap (·.fd)).map .closed) = _
    rw [written_append, written_closed, append_nil]
  · change sentIn (w.log ++ (w.pending.toList.filterMap (·.fd)).map .closed) = _
    simp [sentIn]
  · change refusedIn (w.log ++ (w.pending.toList.filterMap (·.fd)).map .closed) = _
    simp [refusedIn]

/-! ### One write -/

/-- The kernel takes at least a byte whenever it takes something. -/
def Progress (answers : List Sendmsg) : Prop := ∀ n, .took n ∈ answers → 0 < n

/-- How a write ends: the kernel took this much, and all is well or the connection is given up. -/
inductive Writes (w : Wire φ) (fd : Option φ) (bytes : List UInt8) (t : Written φ) : Prop
  | took {n : Nat} {segments : List (Segment UInt8 φ)} (hle : n ≤ bytes.length)
      (hcells : cells segments = laden fd (bytes.take n)) (htaken : t.taken = some n)
      (hwire : t.wire = w.note (segments.map .wrote))
  | broke {n : Nat} {segments : List (Segment UInt8 φ)} (hlt : n < bytes.length)
      (hcells : cells segments = laden fd (bytes.take n)) (htaken : t.taken = none)
      (hbroken : Broken (w.note (segments.map .wrote)) t.wire)

theorem writeRest_writes (w : Wire φ) (fd : Option φ) {s : Nat} (hp : 0 < s) (hle : s ≤ bytes.length)
    {b : List (Segment UInt8 φ)} (hb : cells b = laden fd (bytes.take s)) (ans : List Sendmsg) :
    Writes w fd bytes ((w.note (b.map .wrote)).writeRest bytes s ans) ∧
      ∀ a ∈ ((w.note (b.map .wrote)).writeRest bytes s ans).answers, a ∈ ans := by
  induction ans generalizing s b with
  | nil => exact ⟨.took hle hb rfl rfl, fun _ => id⟩
  | cons an ans ih =>
    unfold writeRest
    split
    · next hm =>
      have hl {a : Sendmsg} (h : a ∈ ans) : a ∈ an :: ans := List.mem_cons_of_mem _ h
      cases an with
      | err e =>
        cases e with
        | again => exact ⟨.took hle hb rfl rfl, fun _ => hl⟩
        | pipe | connReset => exact ⟨.broke hm hb rfl (broken_eof _), fun _ => hl⟩
        | other c => exact ⟨.broke hm hb rfl (broken_fail _ id), fun _ => hl⟩
      | took n =>
        dsimp only
        split
        · exact ⟨.broke hm hb rfl (broken_fail _ id), fun _ => hl⟩
        · next hz =>
          have hnex : cells (b ++ Segment.ofWrite none ((bytes.drop s).take n)) =
              laden fd (bytes.take (s + min n (bytes.length - s))) := by
            have hn : bytes.take s ≠ [] := by
              refine List.ne_nil_of_length_pos ?_
              rw [List.length_take]
              omega
            rw [cells_append, hb, cells_ofWrite, List.take_add, laden_append hn, ← length_drop,
              ← List.take_eq_take_min]
          have hno : (w.note (b.map .wrote)).note
              ((Segment.ofWrite none ((bytes.drop s).take n)).map .wrote) =
              w.note ((b ++ Segment.ofWrite none ((bytes.drop s).take n)).map .wrote) := by
            unfold note
            rw [List.map_append, append_assoc]
          rw [hno]
          obtain ⟨hw, han⟩ := ih (Nat.lt_of_lt_of_le hp (Nat.le_add_right _ _)) (by omega) hnex
          exact ⟨hw, fun a ha => hl (han a ha)⟩
    · exact ⟨.took hle hb rfl rfl, fun _ => id⟩

/-- A write goes out from its first byte, which carries the descriptor. -/
theorem wireWrite_writes (w : Wire φ) (fd : Option φ) (hne : bytes ≠ []) (hp : Progress ans) :
    Writes w fd bytes (w.wireWrite bytes fd ans) ∧ Progress (w.wireWrite bytes fd ans).answers := by
  have hle := List.length_pos_iff.mpr hne
  have hno : w = w.note (([] : List (Segment UInt8 φ)).map .wrote) := by simp [note]
  have hb {w' : Wire φ} (h : Broken w w') : Broken (w.note (([] : List (Segment UInt8 φ)).map .wrote)) w' := by
    rw [← hno]
    exact h
  cases ans with
  | nil => exact ⟨.took (Nat.zero_le _) rfl rfl hno, hp⟩
  | cons a ans =>
    have hl : Progress ans := fun n hn => hp n (.tail _ hn)
    cases a with
    | err e =>
      cases e with
      | again => exact ⟨.took (Nat.zero_le _) rfl rfl hno, hl⟩
      | pipe | connReset => exact ⟨.broke hle rfl rfl (hb (broken_eof w)), hl⟩
      | other c => exact ⟨.broke hle rfl rfl (hb (broken_fail w id)), hl⟩
    | took n =>
      have hn := hp n (.head _)
      have hf : cells (Segment.ofWrite fd (bytes.take n)) = laden fd (bytes.take (min n bytes.length)) := by
        rw [cells_ofWrite, ← List.take_eq_take_min]
      obtain ⟨hw, ha⟩ := w.writeRest_writes fd (show 0 < min n bytes.length by omega)
        (Nat.min_le_right _ _) hf ans
      exact ⟨hw, fun m hm => hl m (ha _ hm)⟩

/-! ### What is parked -/

end Wire

def Slot.cells (slot : Slot φ) : List (Cell UInt8 φ) := laden (slot.fd.map (·.file)) (slot.bytes.drop slot.offset)

/-- Something is left of the slot, and if it still has its descriptor, all of it is. -/
structure Slot.Parked (slot : Slot φ) : Prop where
  unsent : slot.offset < slot.bytes.length
  whole : slot.fd.isSome → slot.offset = 0

namespace Wire

def parkedCells (w : Wire φ) : List (Cell UInt8 φ) :=
  laden none (w.big.drop w.bigOffset) ++ w.queue.toList.flatMap Slot.cells

/-- Every slot in use has something to write. -/
def Stocked (w : Wire φ) : Prop := ∀ slot ∈ w.queue.toList, slot.Parked

/-- A step of the send side that adds these cells to the stream. If it fails, the connection is given up, and what went
out is a beginning of the stream. -/
structure Moves (w : Wire φ) (ok : Bool) (added : List (Cell UInt8 φ)) (w' : Wire φ) : Prop where
  side : Side w w'
  stocked : w'.Stocked
  sent : sentIn w'.log = sentIn w.log
  refused : refusedIn w'.log = refusedIn w.log
  alive : ok = true → w'.alive = w.alive
  stream : ok = true → written w'.log ++ w'.parkedCells = written w.log ++ w.parkedCells ++ added
  dead : ok = false → w'.alive = false
  torn : ok = false → written w'.log <+: written w.log ++ w.parkedCells ++ added

variable {se : List (Segment UInt8 φ)}

namespace Moves

variable {w w' w'' : Wire φ} {ok : Bool} {a mo : List (Cell UInt8 φ)}

theorem refl (h : w.Stocked) : Moves w true [] w :=
  ⟨.refl w, h, rfl, rfl, fun _ => rfl, fun _ => (append_nil _).symm, nofun, nofun⟩

theorem trans (h : Moves w true a w') (h' : Moves w' ok mo w'') : Moves w ok (a ++ mo) w'' where
  side := h.side.trans h'.side
  stocked := h'.stocked
  sent := h'.sent.trans h.sent
  refused := h'.refused.trans h.refused
  alive hok := (h'.alive hok).trans (h.alive rfl)
  stream hok := by rw [h'.stream hok, h.stream rfl, append_assoc]
  dead := h'.dead
  torn hok := by
    rw [← append_assoc, ← h.stream rfl]
    exact h'.torn hok

/-- What went out before a failure is a beginning of the stream, however it was to go on. -/
theorem fails (h : Moves w false a w') (mo : List (Cell UInt8 φ)) : Moves w false (a ++ mo) w' :=
  ⟨h.side, h.stocked, h.sent, h.refused, nofun, nofun, h.dead, fun hok => by
    rw [← append_assoc]
    exact (h.torn hok).trans (prefix_append _ _)⟩

theorem stored
    (hk : w'.rx = w.rx ∧ w'.consumed = w.consumed ∧ w'.pending = w.pending ∧ w'.failed = w.failed ∧ w'.alive = w.alive)
    (hl : w'.log = w.log ++ m) (hm : Silent m) (how : w.Owned → w'.Owned) (hs : w'.Stocked)
    (hst : written m ++ w'.parkedCells = w.parkedCells ++ a) : Moves w true a w' := by
  obtain ⟨hrx, hc, hp, hf, ha⟩ := hk
  refine ⟨⟨hrx, hc, .inl (by rw [hp]), fun r hr => hf.trans hr, fun r hr => .inl (hf ▸ hr), ?_,
    ha.trans, how⟩, hs, ?_, ?_, fun _ => ha, fun _ => ?_, nofun, nofun⟩
  · rw [hl, handedIn_append, hm.handed, append_nil]
  · rw [hl, sentIn_append, hm.sent, append_nil]
  · rw [hl, refusedIn_append, hm.refused, append_nil]
  · rw [hl, written_append, append_assoc, hst, append_assoc]

theorem broke (hs : w.Stocked) (hc : cells se <+: w.parkedCells ++ a)
    (h : Broken (w.note (se.map .wrote)) w') :
    Moves w false a w' where
  side := (Side.note w (plain_wrote se)).trans h.side
  stocked := by
    unfold Stocked
    rw [h.queue]
    exact hs
  sent := by
    rw [h.sent, note, sentIn_append, (silent_wrote se).sent, append_nil]
  refused := by
    rw [h.refused, note, refusedIn_append, (silent_wrote se).refused, append_nil]
  alive := nofun
  stream := nofun
  dead _ := h.alive
  torn _ := by
    rw [h.written]
    change written (w.log ++ se.map .wrote) <+: _
    rw [written_append, written_wrote, append_assoc]
    exact (List.prefix_append_right_inj _).mpr hc

end Moves

/-! ### Flushing -/

variable {w : Wire φ}

section

variable (hs : w.Stocked)

include hs

theorem bigTaken_moves {n : Nat} (hc : cells se = laden none ((w.big.drop w.bigOffset).take n)) :
    Moves w true [] { w.note (se.map .wrote) with bigOffset := w.bigOffset + n } := by
  have how := (Side.note w (plain_wrote se)).owned
  have hb : laden none ((w.big.drop w.bigOffset).take n) ++ laden none (w.big.drop (w.bigOffset + n)) =
      laden (none : Option φ) (w.big.drop w.bigOffset) := by
    rw [laden_none, laden_none, laden_none, ← List.map_append, ← List.drop_drop, List.take_append_drop]
  refine .stored ⟨rfl, rfl, rfl, rfl, rfl⟩ rfl (silent_wrote se)
    (fun h => ⟨(how h).held, (how h).names⟩) hs ?_
  rw [written_wrote, hc, append_nil]
  unfold parkedCells
  rw [← hb, ← append_assoc]
  rfl

theorem flushBig_moves (hp : Progress ans) {r : Nat}
    (hro : w.big.length - w.bigOffset ≤ r) : let t := w.flushBig ans r
    Moves w (t.1.getD true) [] t.2.1 ∧ Progress t.2.2 ∧ (t.1 = none → t.2.1.big.length ≤ t.2.1.bigOffset) ∧
      t.2.1.queue = w.queue := by
  induction r generalizing w ans with
  | zero => exact ⟨.refl hs, hp, fun _ => by change w.big.length ≤ w.bigOffset; omega, rfl⟩
  | succ r ih =>
    unfold flushBig
    split
    · next hmo =>
      have hn : w.big.drop w.bigOffset ≠ [] := mt List.drop_eq_nil_iff.mp (by omega)
      obtain ⟨hw, hl⟩ := w.wireWrite_writes none hn hp
      generalize w.wireWrite (w.big.drop w.bigOffset) none ans = t at hw hl
      obtain ⟨ta, wi, left⟩ := t
      cases hw with
      | @broke n se hlt hc ht hb =>
        cases ht
        refine ⟨.broke hs ?_ hb, hl, nofun, hb.queue⟩
        rw [hc, append_nil, parkedCells, ← take_laden]
        exact (List.take_prefix _ _).trans (prefix_append _ _)
      | @took n se hle hc ht hwi =>
        cases ht
        cases hwi
        dsimp only
        have hm := bigTaken_moves hs hc
        split
        · next hz =>
          rw [hz] at hm
          exact ⟨hm, hl, nofun, rfl⟩
        · next hpo =>
          obtain ⟨hr, ha, hd, hq⟩ := ih hm.stocked hl (by
            change w.big.length - (w.bigOffset + n) ≤ r
            omega)
          exact ⟨hm.trans hr, ha, hd, hq⟩
    · next hd => exact ⟨.refl hs, hp, fun _ => Nat.le_of_not_lt hd, rfl⟩

omit hs in
theorem slotTaken_moves (hst : w.Stocked) (hb : w.big = []) {slot : Slot φ} {rest left : List (Slot φ)}
    (hq : w.queue.toList = slot :: rest) {n : Nat} (hp : 0 < n)
    (hc : cells se = laden (slot.fd.map (·.file)) ((slot.bytes.drop slot.offset).take n))
    {queue : Ring (Slot φ) queueSlots} (ha : queue.toList = left ++ rest) (hl : ∀ s ∈ left, s.Parked ∧ s.fd = none)
    (hr : left.flatMap Slot.cells = laden none (slot.bytes.drop (slot.offset + n))) :
    Moves w true [] { (w.note (se.map .wrote)).note (slot.fd.toList.map .closedDup) with queue } := by
  have hsi := Side.note w (plain_wrote se)
  have hno : left.filterMap (·.fd) = [] := List.filterMap_eq_nil_iff.mpr fun s hs => (hl s hs).2
  refine .stored ⟨rfl, rfl, rfl, rfl, rfl⟩
    (append_assoc w.log (se.map .wrote) (slot.fd.toList.map .closedDup)) ?_ (fun how => ⟨?_, ?_⟩) ?_ ?_
  · constructor <;> simp [handedIn, sentIn, refusedIn]
  · -- The first duplicate of the queue is the next one to be closed.
    have hh := (hsi.owned how).held
    change dupedIn (w.log ++ se.map .wrote ++ slot.fd.toList.map .closedDup) =
      closedDupsIn (w.log ++ se.map .wrote ++ slot.fd.toList.map .closedDup) ++ queue.toList.filterMap (·.fd)
    change dupedIn (w.log ++ se.map .wrote) =
      closedDupsIn (w.log ++ se.map .wrote) ++ w.queue.toList.filterMap (·.fd) at hh
    rw [dupedIn_append, hh, closedDupsIn_append _ (slot.fd.toList.map .closedDup), ha, hq, filterMap_append, hno]
    cases hf : slot.fd with
    | none => simp [dupedIn, closedDupsIn, List.filterMap_cons_none hf]
    | some d => simp [dupedIn, closedDupsIn, List.filterMap_cons_some hf]
  · have hn := how.names
    change (dupedIn (w.log ++ se.map .wrote ++ slot.fd.toList.map .closedDup)).map _ = List.range w.dups
    simpa [dupedIn] using hn
  · intro s hs
    rw [ha] at hs
    rcases List.mem_append.mp hs with hs | hs
    · exact (hl s hs).1
    · exact hst s (hq ▸ List.mem_cons_of_mem _ hs)
  · have hsl : laden (slot.fd.map (·.file)) ((slot.bytes.drop slot.offset).take n) ++
        laden none (slot.bytes.drop (slot.offset + n)) = slot.cells := by
      rw [← List.drop_drop, laden_take_append_drop hp]
      rfl
    have hcl : written (slot.fd.toList.map Mark.closedDup) = [] := by simp [written]
    change _ ++ (laden none (w.big.drop w.bigOffset) ++ queue.toList.flatMap Slot.cells) = _
    rw [written_append, written_wrote, hcl, hc, ha, flatMap_append, hr, parkedCells, hq,
      List.flatMap_cons, ← hsl, hb]
    simp

theorem slotKept_moves (hc : cells se = []) {queue : Ring (Slot φ) queueSlots}
    (ha : queue.toList = w.queue.toList) : Moves w true [] { w.note (se.map .wrote) with queue } := by
  have how := (Side.note w (plain_wrote se)).owned
  refine .stored ⟨rfl, rfl, rfl, rfl, rfl⟩ rfl (silent_wrote se) (fun h => ⟨?_, (how h).names⟩) ?_ ?_
  · have hh := (how h).held
    unfold heldDups at hh ⊢
    rw [ha]
    exact hh
  · unfold Stocked
    rw [ha]
    exact hs
  · unfold parkedCells
    rw [written_wrote, hc, ha, append_nil]
    rfl

omit hs in
theorem flushQueue_moves (hst : w.Stocked) (hb : w.big = []) (hp : Progress ans) (rounds : Nat) :
    let t := w.flushQueue ans rounds
    Moves w t.1 [] t.2.1 ∧ Progress t.2.2 := by
  induction rounds generalizing w ans with
  | zero => exact ⟨.refl hst, hp⟩
  | succ rounds ih =>
    unfold flushQueue
    rw [Ring.front?_eq]
    cases hq : w.queue.toList with
    | nil => exact ⟨.refl hst, hp⟩
    | cons slot rest =>
      have hsl := hst slot (hq ▸ (.head _))
      have hn : slot.bytes.drop slot.offset ≠ [] := mt List.drop_eq_nil_iff.mp hsl.unsent.not_ge
      have hlen : 0 < w.queue.len := by
        rw [← Ring.length_toList, hq]
        exact Nat.succ_pos _
      obtain ⟨hw, hl⟩ := w.wireWrite_writes (slot.fd.map (·.file)) hn hp
      dsimp only [List.head?_cons]
      generalize w.wireWrite (slot.bytes.drop slot.offset) (slot.fd.map (·.file)) ans = t at hw hl
      obtain ⟨taken, wire, answers'⟩ := t
      cases hw with
      | @broke n se hlt hc ht hbr =>
        cases ht
        refine ⟨.broke hst ?_ hbr, hl⟩
        rw [hc, append_nil, parkedCells, hb, List.drop_nil, laden_nil, List.nil_append, hq,
          List.flatMap_cons, ← take_laden]
        exact (List.take_prefix _ _).trans (prefix_append _ _)
      | @took n se hle hc ht hwi =>
        cases ht
        cases hwi
        dsimp only
        by_cases hz : n = 0
        · -- Nothing was taken: the slot stays as it is, and waits.
          subst hz
          simp only [Nat.add_zero]
          rw [if_pos hsl.unsent]
          refine ⟨slotKept_moves hst hc ?_, hl⟩
          refine (Ring.toList_setFront hlen).trans ?_
          rw [hq]
          rfl
        · have hpo := Nat.pos_of_ne_zero hz
          split
          · next hmo =>
            -- A part of the slot is left, without its descriptor.
            have ha : (w.queue.setFront { slot with offset := slot.offset + n, fd := none }).toList =
                [{ slot with offset := slot.offset + n, fd := none }] ++ rest := by
              rw [Ring.toList_setFront hlen, hq]
              rfl
            refine ⟨slotTaken_moves hst hb hq hpo hc ha ?_ ?_, hl⟩
            · intro s hs
              cases List.mem_singleton.mp hs
              exact ⟨⟨hmo, nofun⟩, rfl⟩
            · rw [List.flatMap_singleton]
              rfl
          · next hd =>
            have ha : (w.queue.setFront { slot with offset := slot.offset + n, fd := none }).pop.toList =
                [] ++ rest := by
              rw [Ring.toList_pop, Ring.toList_setFront hlen, hq]
              rfl
            have hm := slotTaken_moves hst hb hq hpo hc ha nofun (by
              rw [List.drop_of_length_le (Nat.le_of_not_lt hd)]
              rfl)
            obtain ⟨hr, han⟩ := ih hm.stocked hb hl
            exact ⟨hm.trans hr, han⟩

theorem wireFlush_moves (hp : Progress ans) :
    Moves w (w.wireFlush ans).1 [] (w.wireFlush ans).2.1 ∧ Progress (w.wireFlush ans).2.2 := by
  obtain ⟨hm, hl, hd, -⟩ := flushBig_moves hs hp (Nat.le_refl (w.big.length - w.bigOffset))
  unfold wireFlush
  generalize w.flushBig ans (w.big.length - w.bigOffset) = t at hm hl hd
  obtain ⟨r, w', a'⟩ := t
  cases r with
  | some ok => exact ⟨hm, hl⟩
  | none =>
    -- All of the oversized frame is out, so forgetting it changes nothing.
    have hf : Moves w' true [] { w' with big := [], bigOffset := 0 } := by
      refine .stored ⟨rfl, rfl, rfl, rfl, rfl⟩ (append_nil _).symm ⟨rfl, rfl, rfl⟩
        (fun h => ⟨h.held, h.names⟩) hm.stocked ?_
      unfold parkedCells
      rw [List.drop_of_length_le (hd rfl), append_nil]
      rfl
    obtain ⟨hr, ha⟩ := flushQueue_moves hf.stocked rfl hl w'.queue.len
    exact ⟨(hm.trans hf).trans hr, ha⟩

/-! ### Sending -/

omit hs in
theorem parkedCells_of_not_parked (h : w.parked = false) : w.parkedCells = [] := by
  unfold parked at h
  rw [Bool.or_eq_false_iff, decide_eq_false_iff_not, decide_eq_false_iff_not] at h
  have hq : w.queue.toList = [] := by
    rw [← List.length_eq_zero_iff, Ring.length_toList]
    omega
  unfold parkedCells
  rw [List.drop_of_length_le (by omega), hq]
  rfl

theorem Moves.fail {r : Failure} (hr : ¬ r.Violation) (a : List (Cell UInt8 φ)) : Moves w false a (w.fail r) := by
  have hn : w = w.note (([] : List (Segment UInt8 φ)).map .wrote) := by simp [note]
  have hb : Broken (w.note (([] : List (Segment UInt8 φ)).map .wrote)) (w.fail r) := by
    rw [← hn]
    exact broken_fail w hr
  have hc : cells ([] : List (Segment UInt8 φ)) <+: w.parkedCells ++ a := List.nil_prefix
  exact .broke hs hc hb

omit hs in
theorem slotPushed_moves (hst : w.Stocked) (hn : bytes ≠ []) (h : w.queue.len < queueSlots) {d : Option (Dup φ)}
    (hd : ∀ x ∈ d, x.id = w.dups) :
    Moves w true (laden (d.map (·.file)) bytes)
      { w with
        queue := w.queue.push ⟨bytes, 0, d⟩ h
        dups := w.dups + d.toList.length
        log := w.log ++ d.toList.map .duped } := by
  have hp : (w.queue.push ⟨bytes, 0, d⟩ h).toList = w.queue.toList ++ [⟨bytes, 0, d⟩] := Ring.toList_push _
  refine .stored ⟨rfl, rfl, rfl, rfl, rfl⟩ rfl ?_ (fun how => ⟨?_, ?_⟩) ?_ ?_
  · constructor <;> simp [handedIn, sentIn, refusedIn]
  · have hh := how.held
    unfold heldDups at hh ⊢
    rw [hp, dupedIn_append, hh, filterMap_append, closedDupsIn_append]
    cases d with
    | none | some => simp [dupedIn, closedDupsIn]
  · dsimp only
    rw [dupedIn_append, List.map_append, how.names]
    cases d with
    | none => simp [dupedIn]
    | some d => simp [dupedIn, List.range_succ, hd d rfl]
  · intro s hs
    rw [hp] at hs
    rcases List.mem_append.mp hs with hs | hs
    · exact hst s hs
    · cases List.mem_singleton.mp hs
      exact ⟨List.length_pos_iff.mpr hn, fun _ => rfl⟩
  · have hdu : written (d.toList.map Mark.duped) = [] := by simp [written]
    unfold parkedCells
    rw [hp, hdu, flatMap_append, List.flatMap_singleton, append_assoc]
    rfl

theorem wirePark_moves (hn : bytes ≠ []) {fd : Option φ} (hf : slotBytes < bytes.length → fd = none)
    (du : Bool) : Moves w (w.wirePark bytes fd du).1 (laden fd bytes) (w.wirePark bytes fd du).2 := by
  unfold wirePark
  split
  · next hl =>
    split
    · exact .fail hs id _
    · next hi =>
      -- Nothing is parked, so what is written first comes next.
      have hno := parkedCells_of_not_parked (Bool.eq_false_iff.mpr hi)
      have hq : w.queue.toList.flatMap Slot.cells = [] := (List.append_eq_nil_iff.mp hno).2
      refine .stored ⟨rfl, rfl, rfl, rfl, rfl⟩ (append_nil _).symm ⟨rfl, rfl, rfl⟩
        (fun h => ⟨h.held, h.names⟩) hs ?_
      rw [hno, hf hl]
      unfold parkedCells
      rw [hq, append_nil, List.drop_zero]
      rfl
  · split
    · next hr =>
      cases fd with
      | none =>
        have hp := slotPushed_moves hs hn hr (d := none) nofun
        simpa using hp
      | some fi =>
        dsimp only
        split
        · refine slotPushed_moves hs hn hr (d := some ⟨fi, w.dups⟩) fun x hx => ?_
          cases Option.some.inj hx
          rfl
        · exact .fail hs id _
    · exact .fail hs id _

theorem updateMask_moves : Moves w true [] w.updateMask :=
  .stored ⟨rfl, rfl, rfl, rfl, rfl⟩ (append_nil _).symm ⟨rfl, rfl, rfl⟩ (fun h => ⟨h.held, h.names⟩) hs
    (append_nil _).symm

end

variable {w' : Wire φ}

theorem Moves.mask {ok : Bool} {a : List (Cell UInt8 φ)} (h : Moves w ok a w') : Moves w ok a w'.updateMask :=
  ⟨h.side.trans (updateMask_moves h.stocked).side, h.stocked, h.sent, h.refused, h.alive, h.stream, h.dead, h.torn⟩

/-- A frame the checks let through. -/
structure Sendable (f : Ipc.Frame φ) : Prop where
  ne_nil : f.bytes ≠ []
  small : f.fd.isSome → f.bytes.length ≤ slotBytes

variable {f : Ipc.Frame φ}

theorem Sendable.bare (h : Sendable f) (hl : slotBytes < f.bytes.length) : f.fd = none := by
  rw [← Option.not_isSome_iff_eq_none]
  exact fun hs => absurd (h.small hs) (Nat.not_le_of_lt hl)

theorem sendFresh_moves (hs : w.Stocked) (hi : w.parked = false) (hf : Sendable f) (d : Bool) (hpr : Progress ans) :
    Moves w (w.sendFresh f d ans).1 f.cells (w.sendFresh f d ans).2 := by
  obtain ⟨hwr, -⟩ := w.wireWrite_writes f.fd hf.ne_nil hpr
  have hn := parkedCells_of_not_parked hi
  unfold sendFresh
  generalize w.wireWrite f.bytes f.fd ans = t at hwr
  obtain ⟨ta, wi, a'⟩ := t
  cases hwr with
  | @broke n se hlt hc ht hb =>
    cases ht
    refine .broke hs ?_ hb
    rw [hc, hn, List.nil_append, ← take_laden]
    exact List.take_prefix _ _
  | @took n se hle hc ht hwi =>
    cases ht
    cases hwi
    dsimp only
    -- What went out was the front of the frame.
    have hw : Moves w true (laden f.fd (f.bytes.take n)) (w.note (se.map .wrote)) := by
      refine .stored ⟨rfl, rfl, rfl, rfl, rfl⟩ rfl (silent_wrote se)
        (Side.note w (plain_wrote se)).owned hs ?_
      change _ ++ w.parkedCells = _
      rw [written_wrote, hc, hn, append_nil, List.nil_append]
    split
    · next ha =>
      rw [ha, List.take_length] at hw
      exact hw
    · next hm =>
      have hne : f.bytes.drop n ≠ [] := mt List.drop_eq_nil_iff.mp (by omega)
      have hcu : laden f.fd (f.bytes.take n) ++ laden (if n = 0 then f.fd else none) (f.bytes.drop n) = f.cells := by
        split
        · next hz =>
          rw [hz]
          rfl
        · next hpo => exact laden_take_append_drop (Nat.pos_of_ne_zero hpo)
      have hfd : slotBytes < (f.bytes.drop n).length → (if n = 0 then f.fd else none) = none := by
        intro hl
        split
        · refine hf.bare (hl.trans_le ?_)
          rw [length_drop]
          exact Nat.sub_le _ _
        · rfl
      have hp := wirePark_moves hw.stocked hne hfd d
      exact hcu ▸ (hw.trans hp).mask

variable {call : SendCall φ}

theorem sendChecked_moves (hs : w.Stocked) (hf : Sendable call.frame) (hp : Progress call.answers) :
    Moves w (w.sendChecked call).1 call.frame.cells (w.sendChecked call).2 := by
  unfold sendChecked
  split
  · obtain ⟨hfl, hl⟩ := wireFlush_moves hs hp
    generalize w.wireFlush call.answers = t at hfl hl
    obtain ⟨ok, w', ans⟩ := t
    cases ok with
    | false => exact hfl.fails _
    | true =>
      simp only [if_true]
      split
      · exact (hfl.trans (wirePark_moves hfl.stocked hf.ne_nil hf.bare call.dup)).mask
      · next hi => exact hfl.trans (sendFresh_moves hfl.stocked (Bool.eq_false_iff.mpr hi) hf call.dup hl)
  · next hi => exact sendFresh_moves hs (Bool.eq_false_iff.mpr hi) hf call.dup hp

/-- The checks of a send let through frames that begin with a header, and none that are long and have a descriptor. -/
theorem sendable_of_check (h : checkOutgoing f = .ok ()) : Sendable f := by
  unfold checkOutgoing at h
  split at h
  · cases h
  · next hs =>
    split at h
    · cases h
    · next hl =>
      constructor
      · refine List.ne_nil_of_length_pos ?_
        unfold headerLen at hs
        omega
      · intro hso
        exact Nat.le_of_not_lt fun hlt => hl ⟨hlt, hso⟩

/-! ### The stream of a run -/

/-- The send side between two calls: while the connection lives, what was written and what is parked are the frames
whose send succeeded; once it is given up, what was written is a beginning of these, perhaps followed by a piece of the
first frame whose send failed. -/
structure Streams (w : Wire φ) : Prop where
  stocked : w.Stocked
  owned : w.Owned
  live : w.alive = true → written w.log ++ w.parkedCells = (sentIn w.log).flatMap Ipc.Frame.cells ∧ refusedIn w.log = []
  torn : ∃ piece, written w.log <+: (sentIn w.log).flatMap Ipc.Frame.cells ++ piece ∧
    (piece = [] ∨ ∃ f rest, refusedIn w.log = f :: rest ∧ piece = f.cells)

theorem streams_new : Streams (new : Wire φ) :=
  ⟨nofun, ⟨rfl, rfl⟩, fun _ => ⟨rfl, rfl⟩, [], List.nil_prefix, .inl rfl⟩

namespace Streams

variable (h : Streams w)

include h

theorem moves (hl : w.alive = true) {ok : Bool} (hm : Moves w ok [] w') : Streams w' := by
  obtain ⟨hs, hr⟩ := h.live hl
  have hb : written w.log ++ w.parkedCells ++ [] = (sentIn w'.log).flatMap Ipc.Frame.cells := by
    rw [append_nil, hs, hm.sent]
  refine ⟨hm.stocked, hm.side.owned h.owned, fun hl' => ?_, [], ?_, .inl rfl⟩
  · cases ok with
    | true => exact ⟨(hm.stream rfl).trans hb, hm.refused.trans hr⟩
    | false => exact absurd (hl'.symm.trans (hm.dead rfl)) nofun
  · rw [append_nil, ← hb]
    cases ok with
    | true =>
      rw [← hm.stream rfl]
      exact prefix_append _ _
    | false => exact hm.torn rfl

theorem idle (hq : w'.queue = w.queue) (hb : w'.big = w.big)
    (hof : w'.bigOffset = w.bigOffset) (how : w'.Owned) (hw : written w'.log = written w.log)
    (hs : sentIn w'.log = sentIn w.log) (hr : refusedIn w'.log = refusedIn w.log)
    (ha : w'.alive = true → w.alive = true) : Streams w' where
  stocked := by
    unfold Stocked
    rw [hq]
    exact h.stocked
  owned := how
  live hl := by
    have hc : w'.parkedCells = w.parkedCells := by
      unfold parkedCells
      rw [hq, hb, hof]
    rw [hw, hc, hs, hr]
    exact h.live (ha hl)
  torn := by
    rw [hw, hs, hr]
    exact h.torn

theorem withPending (p : Ring (PendingFd φ) maxUnclaimed) : (w.withPending p).Streams :=
  h.idle rfl rfl rfl ⟨h.owned.held, h.owned.names⟩ rfl rfl rfl id

theorem noted (hm : Inert m) : Streams (w.note m) := by
  have hd : dupedIn (w.log ++ m) = dupedIn w.log := by rw [dupedIn_append, hm.duped, append_nil]
  have hc : closedDupsIn (w.log ++ m) = closedDupsIn w.log := by
    rw [closedDupsIn_append, hm.closed, append_nil]
  have hw : written (w.log ++ m) = written w.log := by rw [written_append, hm.written, append_nil]
  have hs : sentIn (w.log ++ m) = sentIn w.log := by rw [sentIn_append, hm.sent, append_nil]
  have hr : refusedIn (w.log ++ m) = refusedIn w.log := by
    rw [refusedIn_append, hm.refused, append_nil]
  refine h.idle rfl rfl rfl ⟨?_, ?_⟩ hw hs hr id
  · change dupedIn (w.log ++ m) = closedDupsIn (w.log ++ m) ++ w.heldDups
    rw [hd, hc]
    exact h.owned.held
  · change (dupedIn (w.log ++ m)).map _ = _
    rw [hd]
    exact h.owned.names

theorem givenUp (r : Failure) : Streams (w.fail r) := by
  have hn := h.noted (inert_closed (w.pending.toList.filterMap (·.fd)))
  exact hn.idle rfl rfl rfl ⟨hn.owned.held, hn.owned.names⟩ rfl rfl rfl
    fun hl => absurd (hl.symm.trans (w.alive_fail r)) nofun

theorem refused (hd : w.alive = false) (f : Ipc.Frame φ) : Streams (w.note [.sent f false]) where
  stocked := h.stocked
  owned := (Side.note w (plain_sent f false)).owned h.owned
  live hl := absurd (hl.symm.trans hd) nofun
  torn := by
    obtain ⟨p, hw, hp⟩ := h.torn
    refine ⟨p, ?_, ?_⟩
    · simpa [note, written, sentIn] using hw
    · rcases hp with hn | ⟨f', r, hr, hp⟩
      · exact .inl hn
      · refine .inr ⟨f', r ++ [f], ?_, hp⟩
        change refusedIn (w.log ++ [.sent f false]) = _
        rw [refusedIn_append, hr]
        rfl

end Streams

theorem checkOutgoing_blameless {r : Failure} (h : checkOutgoing f = .error r) : ¬ r.Violation := by
  unfold checkOutgoing at h
  repeat' split at h
  all_goals cases h <;> exact id

theorem send_cases (h : Streams w) (hp : Progress call.answers) :
    (w.alive = false ∧ w.send call = (false, w.note [.sent call.frame false])) ∨
    (w.alive = true ∧ ∃ ok w', w.send call = (ok, w'.note [.sent call.frame ok]) ∧ Moves w ok call.frame.cells w') := by
  unfold send
  cases hl : w.alive with
  | false => exact .inl ⟨rfl, rfl⟩
  | true =>
    refine .inr ⟨rfl, ?_⟩
    cases hc : checkOutgoing call.frame with
    | error r => exact ⟨false, _, rfl, .fail h.stocked (checkOutgoing_blameless hc) _⟩
    | ok => exact ⟨_, _, rfl, sendChecked_moves h.stocked (sendable_of_check hc) hp⟩

theorem Streams.send (h : Streams w) (hp : Progress call.answers) :
    Streams (w.send call).2 ∧ Side w (w.send call).2 := by
  rcases send_cases h hp with ⟨hd, hs⟩ | ⟨hl, ok, w', hs, hm⟩
  · rw [hs]
    exact ⟨h.refused hd call.frame, .note w (plain_sent call.frame false)⟩
  · rw [hs]
    refine ⟨?_, hm.side.trans (.note w' (plain_sent call.frame ok))⟩
    obtain ⟨hst, hr⟩ := h.live hl
    have how := (Side.note w' (plain_sent call.frame ok)).owned (hm.side.owned h.owned)
    cases ok with
    | true =>
      have ha : written (w'.note [.sent call.frame true]).log ++ w'.parkedCells =
          (sentIn (w'.note [.sent call.frame true]).log).flatMap Ipc.Frame.cells := by
        have hw : written (w'.note [.sent call.frame true]).log = written w'.log := by simp [note, written]
        have hse : sentIn (w'.note [.sent call.frame true]).log = sentIn w'.log ++ [call.frame] := by
          simp [note, sentIn]
        rw [hw, hse, hm.stream rfl, hst, hm.sent, flatMap_append, List.flatMap_singleton]
      refine ⟨hm.stocked, how, fun _ => ⟨ha, ?_⟩, [], ?_, .inl rfl⟩
      · simpa [note, refusedIn] using hm.refused.trans hr
      · rw [append_nil, ← ha]
        exact prefix_append _ _
    | false =>
      refine ⟨hm.stocked, how, fun hl' => ?_, call.frame.cells, ?_, .inr ⟨call.frame, [], ?_, rfl⟩⟩
      · exact absurd (hl'.symm.trans (hm.dead rfl)) nofun
      · have ht := hm.torn rfl
        rw [hst, ← hm.sent] at ht
        simpa [note, written, sentIn] using ht
      · change refusedIn (w'.log ++ [.sent call.frame false]) = _
        rw [refusedIn_append, hm.refused, hr]
        rfl

theorem Streams.sendAll (h : Streams w) {ca : List (SendCall φ)} (hp : ∀ call ∈ ca, Progress call.answers) :
    Streams (w.sendAll ca) ∧ Side w (w.sendAll ca) := by
  induction ca generalizing w with
  | nil => exact ⟨h, .refl w⟩
  | cons call ca ih =>
    obtain ⟨hn, hs⟩ := h.send (hp call (.head _))
    obtain ⟨hr, hl⟩ := ih hn fun c hc => hp c (.tail _ hc)
    exact ⟨hr, hs.trans hl⟩

theorem sendAll_dead (hd : w.alive = false) (c : List (SendCall φ)) :
    written (w.sendAll c).log = written w.log ∧ (w.sendAll c).alive = false := by
  induction c generalizing w with
  | nil => exact ⟨rfl, hd⟩
  | cons call c ih =>
    have hs : (w.send call).2 = w.note [.sent call.frame false] := by
      unfold Wire.send
      rw [hd]
      rfl
    unfold Wire.sendAll
    rw [hs]
    obtain ⟨hw, hst⟩ := ih (w := w.note [.sent call.frame false]) hd
    refine ⟨hw.trans ?_, hst⟩
    simp [note, written]

end Wire

end Vitrin.Shim
