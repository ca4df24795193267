import Vitrin.Lib.Machine
import Vitrin.Lib.OrdMap

/-!
# Pasting what the core offers

A client that pastes hands the shim a descriptor, and the shim writes the offered bytes to it
as the event loop allows, until all are written, the client stops reading or a deadline
passes. A counter limits how many such transfers there are at a time.

A descriptor is its number among those handed over. Whether an allocation or a registration
with the event loop fails, and what `write` returns, is in the operation; after these results
`write` would block. The event loop calls back for live transfers only.

`Steps` says what an operation can do. Whatever happens, a descriptor is held by a live
transfer or was closed once, and the counter is within its limit; it is the number of live
transfers if no registration fails while it is not zero (`transfers_counted`). The proviso is
needed: `transfer_free` lowers the counter for a transfer that was never counted, too
(`uncounted_transfers`).
-/

namespace Vitrin.Shim

open Lib

def clipboardMime : String := "text/plain;charset=utf-8"

def clipboardMaxTransfers : Nat := 8

/-- How much of the selection was written to a client. -/
structure ClipTransfer where
  off : Nat
  len : Nat

structure Clipboard where
  transfers : Nat
  live : OrdMap Nat ClipTransfer
  handed : Nat
  closed : List Nat

inductive WriteResult where
  | wrote (n : Nat)
  | interrupted
  | wouldBlock
  | failed
  deriving DecidableEq

inductive ClipOp where
  | send (mimeType : Option String) (len : Nat) (calloc malloc addFd addTimer : Bool)
  | writable (fd : Nat) (hangup : Bool) (writes : List WriteResult)
  | deadline (fd : Nat)
  deriving DecidableEq

namespace Clipboard

def new : Clipboard := ⟨0, .empty, 0, []⟩

def close (s : Clipboard) (fd : Nat) : Clipboard := { s with closed := fd :: s.closed }

/-- The counter is lowered unless it is zero, as the subtraction is. -/
def transferFree (s : Clipboard) (fd : Nat) : Clipboard :=
  { s.close fd with transfers := s.transfers - 1, live := s.live.erase fd }

/-- The loop of `transfer_writable`: the transfer, if it is not over. -/
def writeLoop (t : ClipTransfer) : List WriteResult → Option ClipTransfer
  | [] => if t.off < t.len then some t else none
  | r :: rs =>
    if t.off < t.len then
      match r with
      | .wrote n => if 0 < n then writeLoop { t with off := t.off + n } rs else none
      | .interrupted => writeLoop t rs
      | .wouldBlock => some t
      | .failed => none
    else none

def transferWritable (s : Clipboard) (fd : Nat) (hangup : Bool) (writes : List WriteResult) (t : ClipTransfer) :
    Clipboard :=
  if hangup then s.transferFree fd
  else match writeLoop t writes with
    | some t' => { s with live := s.live.modify fd fun _ => t' }
    | none => s.transferFree fd

def clipSourceSend (s : Clipboard) (mimeType : Option String) (fd len : Nat) (calloc malloc addFd addTimer : Bool) :
    Clipboard :=
  if mimeType ≠ some clipboardMime then s.close fd
  else if clipboardMaxTransfers ≤ s.transfers then s.close fd
  else if !calloc || (0 < len && !malloc) then s.close fd
  else if !addFd || !addTimer then s.transferFree fd
  else { s with transfers := s.transfers + 1, live := s.live.insert fd ⟨0, len⟩ }

def hand (s : Clipboard) : Clipboard := { s with handed := s.handed + 1 }

def clipStep : Machine Clipboard ClipOp Unit := fun s op => (match op with
  | .send mimeType len calloc malloc addFd addTimer =>
    s.hand.clipSourceSend mimeType s.handed len calloc malloc addFd addTimer
  | .writable fd hangup writes => (s.live.get? fd).elim s (s.transferWritable fd hangup writes)
  | .deadline fd => (s.live.get? fd).elim s fun _ => s.transferFree fd, ())

/-- The event loop takes what it is asked to watch. -/
def Registers : ClipOp → Prop
  | .send _ _ _ _ addFd addTimer => addFd = true ∧ addTimer = true
  | _ => True

/-- What an operation can do; `p` is whether a registration can fail. -/
inductive Steps (s : Clipboard) (p : Prop) : Clipboard → Prop
  | wrote (live : OrdMap Nat ClipTransfer) (hg : ∀ fd, (live.get? fd).isSome = (s.live.get? fd).isSome)
      (hs : live.size = s.live.size) : Steps s p { s with live }
  | ended (fd : Nat) (t : ClipTransfer) (ht : s.live.get? fd = some t) : Steps s p (s.transferFree fd)
  | refused : Steps s p (s.hand.close s.handed)
  | undone (hp : p) : Steps s p (s.hand.transferFree s.handed)
  | begun (t : ClipTransfer) (hc : s.transfers < clipboardMaxTransfers) :
      Steps s p { s.hand with transfers := s.transfers + 1, live := s.live.insert s.handed t }

theorem clipStep_steps (s : Clipboard) (op : ClipOp) : Steps s (¬ Registers op) (clipStep s op).1 := by
  cases op with
  | send mimeType len calloc malloc addFd addTimer =>
    simp only [clipStep, clipSourceSend]
    split_ifs with hm hc ha hr
    · exact .refused
    · exact .refused
    · exact .refused
    · exact .undone fun h => by simp [h.1, h.2] at hr
    · exact .begun _ (not_le.mp hc)
  | writable fd hangup writes =>
    simp only [clipStep]
    cases ht : s.live.get? fd with
    | none => exact .wrote s.live (fun _ => rfl) rfl
    | some t =>
      simp only [Option.elim, transferWritable]
      split
      · exact .ended fd t ht
      · split
        · refine .wrote _ (fun fd' => ?_) (List.length_map _)
          rw [OrdMap.get?_modify]
          split_ifs <;> simp
        · exact .ended fd t ht
  | deadline fd =>
    simp only [clipStep]
    cases ht : s.live.get? fd with
    | none => exact .wrote s.live (fun _ => rfl) rfl
    | some t => exact .ended fd t ht

/-! ### Every run -/

/-- Each descriptor is live, or was closed once. -/
structure Kept (s : Clipboard) : Prop where
  cap : s.transfers ≤ clipboardMaxTransfers
  fresh : ∀ fd, (s.live.get? fd).isSome → fd < s.handed
  once : ∀ fd, s.closed.count fd = if fd < s.handed ∧ s.live.get? fd = none then 1 else 0

variable {s s' : Clipboard} {p : Prop}

theorem kept_new : new.Kept := ⟨Nat.zero_le _, nofun, fun _ => rfl⟩

theorem Kept.get?_handed (h : s.Kept) : s.live.get? s.handed = none := by
  by_contra hn
  exact (h.fresh _ (Option.isSome_iff_ne_none.mpr hn)).ne rfl

theorem Kept.step (h : s.Kept) (hs : Steps s p s') : s'.Kept := by
  have hn := h.get?_handed
  obtain ⟨hc, hf, ho⟩ := h
  cases hs with
  | wrote live hg _ =>
    refine ⟨hc, fun fd => hg fd ▸ hf fd, fun fd => ?_⟩
    simp only [ho, ← Option.not_isSome_iff_eq_none, hg]
  | refused =>
    refine ⟨hc, fun fd hl => Nat.lt_succ_of_lt (hf fd hl), fun fd => ?_⟩
    grind [close, hand]
  | begun t hc =>
    refine ⟨hc, fun fd hl => ?_, fun fd => ?_⟩
    · grind [hand, OrdMap.get?_insert]
    · grind [hand, OrdMap.get?_insert]
  | ended fd t ht =>
    refine ⟨(Nat.sub_le _ _).trans hc, fun fd' hl => ?_, fun fd' => ?_⟩
    · exact hf fd' (by grind [transferFree, OrdMap.get?_erase])
    · grind [transferFree, close, OrdMap.get?_erase]
  | undone =>
    refine ⟨(Nat.sub_le _ _).trans hc, fun fd hl => ?_, fun fd => ?_⟩
    · exact Nat.lt_succ_of_lt (hf fd (by grind [transferFree, hand, OrdMap.get?_erase]))
    · grind [transferFree, close, hand, OrdMap.get?_erase]

theorem counted_step (h : s.Kept) (hc : s.transfers = s.live.size) (hs : Steps s p s') (hp : p → s.transfers = 0) :
    s'.transfers = s'.live.size := by
  cases hs with
  | wrote live _ hl => exact hc.trans hl.symm
  | refused => exact hc
  | undone hu =>
    simp only [transferFree, hand, OrdMap.erase_of_get?_eq_none h.get?_handed]
    rw [← hc, hp hu]
  | begun t _ =>
    rw [OrdMap.size_eq_count, OrdMap.count_insert_fresh h.get?_handed, ← OrdMap.size_eq_count, ← hc]
    rfl
  | ended fd t ht =>
    have he := OrdMap.count_erase_add ht fun _ _ => true
    rw [← OrdMap.size_eq_count, ← OrdMap.size_eq_count, ← hc] at he
    exact Nat.sub_eq_of_eq_add he.symm

/-- **The transfers are counted.** -/
theorem transfers_counted (ops : List ClipOp) : let s := clipStep.exec new ops
    s.transfers ≤ clipboardMaxTransfers ∧
    (∀ fd, s.closed.count fd = if fd < s.handed ∧ s.live.get? fd = none then 1 else 0) ∧
    (clipStep.Along (fun s op => Registers op ∨ s.transfers = 0) new ops → s.transfers = s.live.size) := by
  intro s
  have hk : s.Kept := Machine.exec_inv (fun s op h => h.step (clipStep_steps s op)) kept_new ops
  refine ⟨hk.cap, hk.once, fun ha => ?_⟩
  refine (Machine.exec_along (P := fun s => s.Kept ∧ s.transfers = s.live.size) ?_ ⟨kept_new, rfl⟩ ha).2
  rintro s op hr ⟨h, hc⟩
  exact ⟨h.step (clipStep_steps s op), counted_step h hc (clipStep_steps s op) hr.resolve_left⟩

/-- A client pastes five bytes. -/
def paste (addTimer : Bool) : ClipOp := .send (some clipboardMime) 5 true true true addTimer

theorem transfers_counted_two : (clipStep.exec new [paste true, paste true]).transfers =
    (clipStep.exec new [paste true, paste true]).live.size :=
  (transfers_counted [paste true, paste true]).2.2 ⟨.inl ⟨rfl, rfl⟩, .inl ⟨rfl, rfl⟩, trivial⟩

/-- Each failure takes a live transfer off the counter. -/
theorem uncounted_transfers : let s := clipStep.exec new (List.replicate 9 [paste true, paste false]).flatten
    s.transfers = 0 ∧ s.live.size = 9 := by
  decide

end Clipboard

end Vitrin.Shim
