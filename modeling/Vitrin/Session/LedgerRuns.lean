import Vitrin.Lib.Machine
import Vitrin.Session.Designation

/-!
# Runs of the designation ledger

A ticket is an obligation: somebody waits for its answer. Here it is followed through
every sequence of operations on the ledger, from the opening to the operation that lets
go of it.

`ledgerStep` is the ledger taking one operation. A step shows the ticket it opened, or
the tickets it let go of.

`Booked` ties the ledger to the tickets that were opened and let go of so far, while the
32-bit counter has not run out. When it has, the last id is given out again, and a ticket
can be lost under another (`ledger_id_again`).
-/

namespace Vitrin

open Lib Ledger
open scoped List

inductive LedgerOp where
  | openTicket (connection : ConnectionId) (ask : DesignateAsk)
  | take (id : DesignationId)
  | redeem (id : DesignationId) (world : Ledger.Liveness) (now : Instant)
  | expireDue (now : Instant)
  | withdrawConnection (connection : ConnectionId)
  | forgetRealm (realm : RealmId)

inductive LedgerOut where
  /-- A ticket was made; its id is what `open` answers. -/
  | opened (ticket : DesignationTicket)
  | refused (why : OpenRefusal)
  | removed (tickets : List DesignationTicket)

namespace LedgerOut

def made : LedgerOut → List DesignationTicket
  | opened ticket => [ticket]
  | refused _ | removed _ => []

def gone : LedgerOut → List DesignationTicket
  | opened _ | refused _ => []
  | removed tickets => tickets

end LedgerOut

/-- The ticket that `redeem` hands back, whatever it judged. -/
def Ledger.redeemed : Except (Option DesignationTicket × Undelivered) DesignationTicket → Option DesignationTicket
  | .ok ticket => some ticket
  | .error (ticket, _) => ticket

def ledgerStep : Machine Ledger LedgerOp LedgerOut
  | l, .openTicket connection ask =>
    match l.openTicket connection ask with
    | .ok (l, id) => (l, .opened (Ledger.ticketFor id connection ask))
    | .error why => (l, .refused why)
  | l, .take id => ((l.take id).1, .removed (l.take id).2.toList)
  | l, .redeem id world now =>
    ((l.redeem id world now).1, .removed (Ledger.redeemed (l.redeem id world now).2).toList)
  | l, .expireDue now => ((l.expireDue now).1, .removed (l.expireDue now).2)
  | l, .withdrawConnection connection =>
    ((l.withdrawConnection connection).1, .removed (l.withdrawConnection connection).2)
  | l, .forgetRealm realm => ((l.forgetRealm realm).1, .removed (l.forgetRealm realm).2)

namespace Ledger

/-- The tickets a run opened, in order. -/
def made (l : Ledger) (ops : List LedgerOp) : List DesignationTicket := (ledgerStep.outs l ops).flatMap (·.made)

/-- The tickets a run let go of, in order. -/
def gone (l : Ledger) (ops : List LedgerOp) : List DesignationTicket := (ledgerStep.outs l ops).flatMap (·.gone)

/-! ### One step -/

def ids : Nat := 2 ^ 32

/-- What a step can do: open a ticket under the next id, take some out, or nothing. -/
inductive Moved (l : Ledger) : Ledger → LedgerOut → Prop
  | opened {l' : Ledger} (connection : ConnectionId) (ask : DesignateAsk)
      (hfile : l'.tickets = l.tickets.insert l.next (ticketFor l.next connection ask))
      (hnext : l'.next = min (l.next + 1) (ids - 1)) (howes : l.owes ask.principal = false)
      (hroom : l.tickets.size < maxOutstanding) : Moved l l' (.opened (ticketFor l.next connection ask))
  | refused (why : OpenRefusal) : Moved l l (.refused why)
  | removed {l' : Ledger} {tickets : List DesignationTicket} (hnext : l'.next = l.next)
      (hkept : ∀ id t, l'.tickets.get? id = some t → l.tickets.get? id = some t)
      (hperm : (tickets ++ l'.tickets.values).Perm l.tickets.values) : Moved l l' (.removed tickets)

section

variable (l : Ledger)

theorem moved_retire (k : DesignationTicket → Bool) : Moved l (l.retire k).1 (.removed (l.retire k).2) :=
  .removed rfl (fun _ _ h => (get?_retire.mp h).1) (OrdMap.values_filter_perm l.tickets k)

theorem moved_take (id : DesignationId) : Moved l (l.take id).1 (.removed (l.take id).2.toList) := by
  refine .removed rfl (fun _ _ h => (OrdMap.get?_erase_eq_some.mp h).2) ?_
  cases hg : l.tickets.get? id with
  | none => simp [take, hg, OrdMap.erase_of_get?_eq_none hg]
  | some t => simpa [take, hg] using OrdMap.values_erase_perm hg

theorem redeem_take (id : DesignationId) (w : Liveness) (now : Instant) :
    (l.redeem id w now).1 = (l.take id).1 ∧ redeemed (l.redeem id w now).2 = (l.take id).2 := by
  rcases l.redeem_cases id w now with ⟨hg, h⟩ | ⟨t, hg, ⟨wh, h⟩ | h⟩
  all_goals
    rw [h]
    exact ⟨rfl, hg.symm⟩

theorem ledgerStep_moved (op : LedgerOp) : Moved l (ledgerStep l op).1 (ledgerStep l op).2 := by
  cases op with
  | openTicket c a =>
    simp only [ledgerStep, openTicket]
    split_ifs with how hf
    · exact .refused _
    · exact .refused _
    · exact .opened c a rfl rfl (by simpa using how) (not_le.mp hf)
  | take id => exact l.moved_take id
  | redeem id w now =>
    obtain ⟨hl, ht⟩ := l.redeem_take id w now
    simp only [ledgerStep, hl, ht]
    exact l.moved_take id
  | expireDue | withdrawConnection | forgetRealm => exact l.moved_retire _

end

/-! ### Runs -/

/-- The ledger and what was opened and let go of before. -/
structure Booked (made gone : List DesignationTicket) (l : Ledger) : Prop where
  /-- The counter is one past the last id, until it saturates. -/
  next : l.next = min (made.length + 1) (ids - 1)
  counted : made.length < ids → made.map (·.id) = List.range' 1 made.length
  conserved : made.length < ids → made.Perm (gone ++ l.tickets.values)
  bounded : l.tickets.size ≤ maxOutstanding
  single : ∀ id t id' t', l.tickets.get? id = some t → l.tickets.get? id' = some t' →
    t.principal = t'.principal → id = id'

theorem Booked.new : Booked [] [] Ledger.new where
  next := rfl
  counted _ := rfl
  conserved _ := .refl _
  bounded := Nat.zero_le _
  single := by simp [Ledger.new]

variable {made gone : List DesignationTicket} {l l' : Ledger} {out : LedgerOut}

theorem Booked.fresh (h : Booked made gone l) (hids : made.length + 1 < ids) : l.tickets.get? l.next = none := by
  have hn : l.next = made.length + 1 := by
    have := h.next
    omega
  by_contra hs
  obtain ⟨t, ht⟩ := Option.ne_none_iff_exists'.mp hs
  have hm : t ∈ made := (h.conserved (by omega)).mem_iff.mpr
    (List.mem_append_right _ (OrdMap.mem_values.mpr ⟨_, ht⟩))
  have hi : t.id ∈ List.range' 1 made.length := h.counted (by omega) ▸ List.mem_map_of_mem hm
  rw [l.filed _ t ht, hn] at hi
  have := (List.mem_range'_1.mp hi).2
  omega

theorem Booked.step (h : Booked made gone l) (hm : Moved l l' out) :
    Booked (made ++ out.made) (gone ++ out.gone) l' := by
  cases hm with
  | opened c a hf hn how hr =>
    have hl : (made ++ [ticketFor l.next c a]).length = made.length + 1 := List.length_append
    refine ⟨?_, fun hi => ?_, fun hi => ?_, ?_, ?_⟩
    · have := h.next
      simp only [LedgerOut.made] at this hn ⊢
      omega
    · simp only [LedgerOut.made, hl] at hi ⊢
      have hid : l.next = 1 + made.length := by
        have := h.next
        omega
      rw [List.map_append, h.counted (by omega), List.range'_1_concat, ← hid]
      rfl
    · simp only [LedgerOut.made, LedgerOut.gone, hl, List.append_nil] at hi ⊢
      -- The new ticket joins the open ones, since nothing is filed under its id.
      have hfr := OrdMap.values_insert_fresh (h.fresh hi) (ticketFor l.next c a)
      rw [hf]
      calc made ++ [ticketFor l.next c a]
        _ ~ ticketFor l.next c a :: made := List.perm_append_singleton _ _
        _ ~ ticketFor l.next c a :: (gone ++ l.tickets.values) := (h.conserved (by omega)).cons _
        _ ~ gone ++ ticketFor l.next c a :: l.tickets.values := List.perm_middle.symm
        _ ~ gone ++ (l.tickets.insert l.next (ticketFor l.next c a)).values := hfr.symm.append_left _
    · rw [hf]
      exact OrdMap.size_insert_le.trans hr
    · intro id t i' t' hg hg' hs
      rw [hf, OrdMap.get?_insert] at hg hg'
      split_ifs at hg hg' with hid hi' hi'
      · exact hid.trans hi'.symm
      · cases hg
        exact absurd hs.symm (owes_eq_false how hg')
      · cases hg'
        exact absurd hs (owes_eq_false how hg)
      · exact h.single id t i' t' hg hg' hs
  | refused w => simpa [LedgerOut.made, LedgerOut.gone] using h
  | removed hn hk hp =>
    simp only [LedgerOut.made, List.append_nil]
    refine ⟨hn.trans h.next, h.counted, fun hi => ?_, ?_, fun id t i' t' hg hg' =>
      h.single id t i' t' (hk id t hg) (hk i' t' hg')⟩
    · rw [List.append_assoc]
      exact (h.conserved hi).trans (hp.symm.append_left gone)
    · have hl := hp.length_eq
      simp only [List.length_append, OrdMap.length_values] at hl
      have := h.bounded
      omega

theorem booked (ops : List LedgerOp) : Booked (new.made ops) (new.gone ops) (ledgerStep.exec .new ops) := by
  refine Machine.exec_past (P := fun ops l => Booked (new.made ops) (new.gone ops) l) .new
    (fun p op h => ?_) ops
  have hs := h.step (ledgerStep_moved _ op)
  simpa [made, gone, Machine.outs_append] using hs

theorem refused_same {op : LedgerOp} {w : OpenRefusal} (h : (ledgerStep l op).2 = .refused w) :
    (ledgerStep l op).1 = l := by
  have hm := ledgerStep_moved l op
  rw [h] at hm
  generalize (ledgerStep l op).1 = l' at hm ⊢
  cases hm
  rfl

/-- A ticket is opened under an id that no ticket has, and leaves the open ones as they are. -/
def Leaves (l : Ledger) (op : LedgerOp) : Prop :=
  ∀ ticket, (ledgerStep l op).2 = .opened ticket → l.tickets.get? ticket.id = none ∧
    ∀ id t, l.tickets.get? id = some t → (ledgerStep l op).1.tickets.get? id = some t

theorem made_append {ops m : List LedgerOp} : l.made (ops ++ m) = l.made ops ++ (ledgerStep.exec l ops).made m := by
  simp [made, Machine.outs_append]

theorem leaves (ops : List LedgerOp) (op : LedgerOp) (hi : (new.made (ops ++ [op])).length < ids) :
    Leaves (ledgerStep.exec .new ops) op := by
  intro ti hop
  have hm := ledgerStep_moved (ledgerStep.exec .new ops) op
  rw [made_append, List.length_append] at hi
  simp only [made, Machine.outs_cons, hop] at hi
  rw [hop] at hm
  generalize (ledgerStep (ledgerStep.exec .new ops) op).1 = l' at hm ⊢
  cases hm with
  | opened c a hfi hn how hr =>
    have hf := (booked ops).fresh hi
    refine ⟨hf, fun id t hg => ?_⟩
    have hid : id ≠ (ledgerStep.exec .new ops).next := by
      rintro rfl
      rw [hf] at hg
      cases hg
    rw [hfi, OrdMap.get?_insert_of_ne hid]
    exact hg

end Ledger

open Ledger in
/-- **The ledger's integrity.** In every run the ledger is bounded, a principal has one ticket at most, and a refused
opening changes nothing. While fewer than `2 ^ 32` tickets have been opened, an id is given out once, an opening
leaves every open ticket where it is, and the tickets opened are those taken out and those still open, each in one
place. -/
theorem ledger_integrity (ops : List LedgerOp) : let l := ledgerStep.exec .new ops
    l.tickets.size ≤ maxOutstanding ∧
    (∀ id t i' t', l.tickets.get? id = some t → l.tickets.get? i' = some t' →
      t.principal = t'.principal → id = i') ∧
    ledgerStep.Along (fun l op => ∀ w, (ledgerStep l op).2 = .refused w → (ledgerStep l op).1 = l) .new ops ∧
    ((Ledger.new.made ops).length < 2 ^ 32 →
      ((Ledger.new.made ops).map (·.id)).Nodup ∧
      ledgerStep.Along Leaves .new ops ∧
      (Ledger.new.made ops).Perm (Ledger.new.gone ops ++ l.tickets.values)) := by
  intro l
  have h := booked ops
  refine ⟨h.bounded, h.single, ?_, fun hi => ⟨?_, ?_, h.conserved hi⟩⟩
  · exact (ledgerStep.along_iff ..).mpr fun p op r _ w hw => refused_same hw
  · rw [h.counted hi]
    exact List.nodup_range'
  · refine (ledgerStep.along_iff ..).mpr fun p op r hop => leaves p op ?_
    rw [hop, List.append_cons, made_append, List.length_append] at hi
    exact lt_of_le_of_lt (Nat.le_add_right ..) hi

/-! ### When the ids run out -/

namespace Sample

def other : PrincipalIdentity := ⟨"vitrin://local/agent/other"⟩

def fileAsk (principal : PrincipalIdentity) : DesignateAsk where
  realm
  principal
  grant := 1
  facetId := 9
  grantWireId := 4
  ask := .file false
  spentOnce := false
  deadline := 100

/-- The sample agent asks and hangs up, so many times. -/
def askAndLeave : Nat → List LedgerOp
  | 0 => []
  | n + 1 => askAndLeave n ++ [.openTicket 1 (fileAsk agent), .withdrawConnection 1]

/-- Every round leaves the ledger empty and the counter one higher, until it saturates. -/
theorem exec_askAndLeave {n : Nat} :
    ledgerStep.exec .new (askAndLeave n) = { new with next := min (n + 1) (2 ^ 32 - 1) } := by
  induction n with
  | zero => rfl
  | succ n ih =>
    have hr (k : Nat) :
        ledgerStep.exec { new with next := k } [.openTicket 1 (fileAsk agent), .withdrawConnection 1] =
          { new with next := min (k + 1) (2 ^ 32 - 1) } := rfl
    have hn : min (min (n + 1) (2 ^ 32 - 1) + 1) (2 ^ 32 - 1) = min (n + 1 + 1) (2 ^ 32 - 1) := by omega
    rw [askAndLeave, Machine.exec_append, ih, hr, hn]

end Sample

open Sample in
/-- After `2 ^ 32 - 2` rounds the last id is given to one agent and then, while its ticket is open, to another, whose
ticket takes the place of the first: nobody took that out. -/
theorem ledger_id_again : let l := ledgerStep.exec .new (askAndLeave (2 ^ 32 - 2))
    let m := Ledger.ticketFor (2 ^ 32 - 1) 1 (fileAsk agent)
    let t := Ledger.ticketFor (2 ^ 32 - 1) 2 (fileAsk other)
    let l₁ := (ledgerStep l (.openTicket 1 (fileAsk agent))).1
    let l₂ := (ledgerStep l₁ (.openTicket 2 (fileAsk other))).1
    (ledgerStep l (.openTicket 1 (fileAsk agent))).2 = .opened m ∧
    (ledgerStep l₁ (.openTicket 2 (fileAsk other))).2 = .opened t ∧
    l₁.tickets.values = [m] ∧ l₂.tickets.values = [t] := by
  rw [exec_askAndLeave]
  exact ⟨rfl, rfl, by decide, by decide⟩

open Sample in
/-- Two agents ask, and the first ask is answered: of the two tickets one was taken out and one is open. -/
theorem ledger_integrity_answered :
    let ops : List LedgerOp := [.openTicket 1 (fileAsk agent), .openTicket 2 (fileAsk other), .take 1]
    (Ledger.new.made ops).map (·.id) = [1, 2] ∧
    (Ledger.new.made ops).Perm (Ledger.new.gone ops ++ (ledgerStep.exec .new ops).tickets.values) := by
  intro ops
  exact ⟨by decide, ((ledger_integrity ops).2.2.2 (by decide)).2.2⟩

end Vitrin
