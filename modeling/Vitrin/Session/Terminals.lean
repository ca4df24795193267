import Vitrin.Core.Mediation
import Vitrin.Lib.Obligations
import Vitrin.Session.SelfMute

/-!
# One terminal for a designation

An ask for a file that the chokepoint admits is owed a terminal: the file, or a
refusal. What is owed moves: from the ledger, where a ticket waits for the human, to the
delivery table, where an opened descriptor waits for the socket of the agent, and then
for that of the realm. Every store is swept, and connections and realms end, at any time.

`Session.books` reads the two stores and the connections as the books of
`Lib.Obligations`: a ticket is owed, a held descriptor is owed until the agent has its
copy and answered after that.

A step keeps the ledger's promise (`Kept`) when every frame it queues is taken and it
lets go of no descriptor the agent of an open connection is still owed. It is `Fresh`
when an id that may be given out is not in use.

`sessionStep_advances`: a fresh step is a sequence of moves of the books, and of a service
that loses nothing if the step is also kept. `one_terminal_per_designation` follows:
at most one in runs of fresh steps, and exactly one if they are kept.
`terminal_lost_with_realm` is a run in which an ask is never answered.
-/

namespace Vitrin

open Lib Session OrdMap
open Books (ext put)

/-! ### Who is connected -/

variable {c : ConnectionId} {s : PrincipalSystem}

namespace PrincipalSystem

/-- Whether a connection ever was, and if so whether it has been torn down. -/
def present (s : PrincipalSystem) (c : ConnectionId) : Option Bool := (s.conns.get? c).map (·.tornDown)

theorem present_insert (s : PrincipalSystem) (c c' : ConnectionId) (co : Conn) :
    ({ s with conns := s.conns.insert c co } : PrincipalSystem).present c' =
      if c' = c then some co.tornDown else s.present c' := by
  simp only [present, get?_insert]
  split_ifs <;> rfl

theorem present_absorb {co : Conn} (hc : s.conns.get? c = some co) (t : Turn) :
    (s.absorb c co.tornDown t).present = s.present := by
  funext c'
  have h := s.present_insert c c' ⟨t.server, co.tornDown⟩
  rw [show (s.absorb c co.tornDown t).present c' = _ from h]
  split_ifs with hcc
  · simp [present, hcc, hc]
  · rfl

end PrincipalSystem

open PrincipalSystem (present_absorb present)

theorem systemStep_present (s : PrincipalSystem) (op : SystemOp) (hco : ∀ p, op ≠ .connect p)
    (ht : ∀ c, op ≠ .teardown c) : (systemStep s op).1.present = s.present := by
  cases op with
  | connect p => exact absurd rfl (hco p)
  | teardown c => exact absurd rfl (ht c)
  | message c ctx msg wi =>
    simp only [systemStep]
    split
    · rfl
    · rename_i co hc
      exact present_absorb hc _
  | deliver c i now wi =>
    simp only [systemStep]
    split
    · rename_i co r hc _
      exact present_absorb hc _
    · rfl
  | _ => rfl

theorem connect_present (s : PrincipalSystem) (p : PeerCred) (c : ConnectionId) :
    (systemStep s (.connect p)).1.present c =
      if c = s.petitions.nextConnectionId then some false else s.present c :=
  s.present_insert s.petitions.nextConnectionId c ⟨.new p s.petitions.nextConnectionId, false⟩

theorem teardown_present (hc : s.present c ≠ none) (c' : ConnectionId) :
    (systemStep s (.teardown c)).1.present c' = if c' = c then some true else s.present c' := by
  cases hco : s.conns.get? c with
  | none => simp [present, hco] at hc
  | some co =>
    simp only [systemStep, hco]
    exact s.present_insert c c' ⟨{ co.server with phase := .dead }, true⟩

/-! ### The books -/

def stageOf (l : Ledger) (d : DeliveryTable) (id : DesignationId) : Stage ConnectionId :=
  match l.tickets.get? id, d.held.get? id with
  | some ticket, _ => .owed ticket.connection
  | none, some e => if e.agent = .sent then .answered e.connection else .owed e.connection
  | none, none => .absent

def Apart (l : Ledger) (d : DeliveryTable) : Prop := ∀ id, l.tickets.get? id = none ∨ d.held.get? id = none

variable {t : DesignationTicket}

section Stage

variable {l l' : Ledger} {d d' : DeliveryTable} {id : DesignationId}

theorem stageOf_ticket (h : l.tickets.get? id = some t) : stageOf l d id = .owed t.connection := by
  simp [stageOf, h]

theorem stageOf_absent (hl : l.tickets.get? id = none) (hd : d.held.get? id = none) : stageOf l d id = .absent := by
  simp [stageOf, hl, hd]

variable (h : Apart l d)

include h

theorem Apart.held {e : InFlight} (he : d.held.get? id = some e) : l.tickets.get? id = none := by
  simpa [he] using h id

theorem Apart.ticket (ht : l.tickets.get? id = some t) : d.held.get? id = none := by
  simpa [ht] using h id

theorem Apart.stageOf_held {e : InFlight} (he : d.held.get? id = some e) :
    stageOf l d id = if e.agent = .sent then .answered e.connection else .owed e.connection := by
  simp [stageOf, h.held he, he]

theorem Apart.mono (hl : ∀ id t, l'.tickets.get? id = some t → l.tickets.get? id = some t)
    (hd : ∀ id e, d'.held.get? id = some e → d.held.get? id = some e) : Apart l' d' := by
  intro id
  refine (h id).imp (fun hn => ?_) fun hn => ?_
  · exact Option.eq_none_iff_forall_ne_some.mpr fun t ht => nomatch hn.symm.trans (hl id t ht)
  · exact Option.eq_none_iff_forall_ne_some.mpr fun e he => nomatch hn.symm.trans (hd id e he)

theorem Apart.stageOf_retire (k : DesignationTicket → Bool) : stageOf (l.retire k).1 d =
      fun id => if id ∈ (l.tickets.dropped k).map (·.id) then .absent else stageOf l d id := by
  funext id
  have hg : (l.retire k).1.tickets.get? id = (l.tickets.get? id).filter k := get?_filter
  simp only [mem_map_dropped l.filed]
  cases ht : l.tickets.get? id with
  | none => simp [stageOf, hg, ht]
  | some t => cases hk : k t <;> simp [stageOf, hg, ht, Option.filter_some, hk, h.ticket ht]

theorem Apart.stageOf_release (k : InFlight → Bool) (wh : Abandoned) : stageOf l (d.retire k wh).1 =
      fun id => if id ∈ (d.held.dropped k).map (·.id) then .absent else stageOf l d id := by
  funext id
  have hg : (d.retire k wh).1.held.get? id = (d.held.get? id).filter k := get?_filter
  simp only [mem_map_dropped d.filed]
  cases he : d.held.get? id with
  | none => simp [stageOf, hg, he]
  | some e => cases hk : k e <;> simp [stageOf, hg, he, Option.filter_some, hk, h.held he]

end Stage

/-- The designations some terminals end, and the connections they go to. -/
def answers (terminals : List Terminal) : List (DesignationId × ConnectionId) :=
  terminals.filterMap fun t => t.designation.map (·, t.connection)

@[simp] theorem answers_nil : answers [] = [] := rfl

theorem answers_append (ts ts' : List Terminal) : answers (ts ++ ts') = answers ts ++ answers ts' :=
  List.filterMap_append

variable {s : Session} {id : DesignationId}

namespace Session

def books (s : Session) : Books DesignationId ConnectionId where
  stage := stageOf s.ledger s.deliveries
  live := {c | s.system.present c = some false}
  seen := {c | s.system.present c ≠ none}

theorem isLive_iff : s.isLive c = true ↔ c ∈ s.books.live := by
  simp only [isLive, books, present, Set.mem_ofPred_eq]
  cases s.system.conns.get? c <;> simp

/-- The session went on by moves of its books, and its stores are still apart. -/
structure Advances (lossy : Prop) (s : Session) (opened : List DesignationId) (terminals : List Terminal)
    (s' : Session) : Prop where
  moves : Books.Moves lossy s.books opened (answers terminals) s'.books
  apart : Apart s'.ledger s'.deliveries

section Advances

variable {lo : Prop} {s' s'' : Session}

theorem Advances.of_books (h : Apart s'.ledger s'.deliveries) (hb : s'.books = s.books) : s.Advances lo [] [] s' :=
  ⟨hb ▸ .refl, h⟩

variable {o : List DesignationId} {ts ts' : List Terminal}

section

variable (h : s.Advances lo o ts s')

include h

theorem Advances.trans {o' : List DesignationId} (h' : s'.Advances lo o' ts' s'') :
    s.Advances lo (o ++ o') (ts ++ ts') s'' :=
  ⟨answers_append ts ts' ▸ h.moves.trans h'.moves, h'.apart⟩

theorem Advances.of_answers (ht : answers ts' = answers ts) : s.Advances lo o ts' s' :=
  ⟨ht ▸ h.moves, h.apart⟩

theorem Advances.silently (h' : s'.Advances lo [] [] s'') : s.Advances lo o ts s'' := by
  simpa using h.trans h'

end

/-! ### Letting go of many -/

theorem retire_advances (h : Apart s.ledger s.deliveries) (k v : DesignationTicket → Bool)
    (hv : ∀ t, s.ledger.peek t.id = some t → k t = false → v t = true ∨ t.connection ∉ s.books.live ∨ lo)
    (hts : answers ts = ((s.ledger.tickets.dropped k).filter v).map fun t => (t.id, t.connection)) :
    s.Advances lo [] ts { s with ledger := (s.ledger.retire k).1 } := by
  refine ⟨?_, h.mono (fun id t ht => (Ledger.get?_retire.mp ht).1) fun _ _ he => he⟩
  have hb : ({ s with ledger := (s.ledger.retire k).1 } : Session).books =
      s.books.without ((s.ledger.tickets.dropped k).map (·.id)) :=
    ext (h.stageOf_retire k) rfl rfl
  rw [hts, hb]
  refine Books.Moves.clear _ (nodup_dropped s.ledger.filed k) fun t ht => .inl ?_
  obtain ⟨hg, hk⟩ := (mem_dropped s.ledger.filed).mp ht
  exact ⟨stageOf_ticket hg, hv t hg hk⟩

theorem release_advances (h : Apart s.ledger s.deliveries) (k : InFlight → Bool) (wh : Abandoned)
    (hk : ∀ id e, s.deliveries.held.get? id = some e → k e = false →
      e.agent = .sent ∨ e.connection ∉ s.books.live ∨ lo) :
    s.Advances lo [] [] { s with deliveries := (s.deliveries.retire k wh).1 } := by
  refine ⟨?_, h.mono (fun _ _ ht => ht) fun id e he => ((DeliveryTable.get?_retire wh).mp he).1⟩
  have hb : ({ s with deliveries := (s.deliveries.retire k wh).1 } : Session).books =
      s.books.without ((s.deliveries.held.dropped k).map (·.id)) :=
    ext (h.stageOf_release k wh) rfl rfl
  have hn : answers [] =
      ((s.deliveries.held.dropped k).filter fun _ => false).map fun e => (e.id, e.connection) := by simp
  rw [hb, hn]
  refine Books.Moves.clear _ (nodup_dropped s.deliveries.filed k) fun e he => ?_
  obtain ⟨hg, hd⟩ := (mem_dropped s.deliveries.filed).mp he
  have hst : s.books.stage e.id = _ := h.stageOf_held hg
  by_cases hs : e.agent = .sent
  · exact .inr ⟨by rw [hst, if_pos hs], rfl⟩
  · exact .inl ⟨by rw [hst, if_neg hs], .inr ((hk e.id e hg hd).resolve_left hs)⟩

/-- Every refusal of an open ticket is taken by the connection it is for, if that is open. -/
def Heard (s : Session) (accepts : DesignationId → Bool) : Prop :=
  ∀ id t, s.ledger.peek id = some t → s.isLive t.connection = true → accepts id = true

variable {a : DesignationId → Bool}

theorem voiced_or (hh : lo ∨ s.Heard a) (ht : s.ledger.peek t.id = some t) :
    (s.isLive t.connection && a t.id) = true ∨ t.connection ∉ s.books.live ∨ lo := by
  rcases hh with hlo | hh
  · exact .inr (.inr hlo)
  · by_cases hl : s.isLive t.connection = true
    · exact .inl (by simp [hl, hh t.id t ht hl])
    · exact .inr (.inl fun hi => hl (isLive_iff.mpr hi))

theorem answers_voice (s : Session) (l : List DesignationTicket) (wh : SettleFailure) (a : DesignationId → Bool) :
    answers (l.flatMap fun t => s.voicePowerboxRefusal t wh a) =
      (l.filter fun t => s.isLive t.connection && a t.id).map fun t => (t.id, t.connection) := by
  induction l with
  | nil => rfl
  | cons t l ih =>
    rw [List.flatMap_cons, answers_append, ih]
    by_cases hv : s.isLive t.connection = true ∧ a t.id = true
    · rw [voicePowerboxRefusal, if_pos hv, List.filter_cons_of_pos (by simpa using hv)]
      rfl
    · rw [voicePowerboxRefusal, if_neg hv, List.filter_cons_of_neg (by simpa using hv)]
      rfl

theorem refuseAll_advances (h : Apart s.ledger s.deliveries) (k : DesignationTicket → Bool) (wh : SettleFailure)
    (hh : lo ∨ s.Heard a) : s.Advances lo [] (s.refuseAll k wh a).2 (s.refuseAll k wh a).1 :=
  retire_advances h k _ (fun _ ht _ => voiced_or hh ht) (s.answers_voice _ wh a)

/-! ### Settling one -/

section Take

variable (h : Apart s.ledger s.deliveries)

include h

theorem take_apart (id : DesignationId) : Apart (s.ledger.take id).1 s.deliveries :=
  h.mono (fun _ _ ht => (get?_erase_eq_some.mp ht).2) fun _ _ he => he

variable (ht : s.ledger.tickets.get? id = some t)

include ht

theorem take_books : ({ s with ledger := (s.ledger.take id).1 } : Session).books = s.books.put id .absent := by
  refine ext (funext fun i => ?_) rfl rfl
  have hg : (s.ledger.take id).1.tickets.get? i = if i = id then none else s.ledger.tickets.get? i := get?_erase
  by_cases hi : i = id
  · subst hi
    simp [books, put, stageOf, hg, h.ticket ht]
  · simp [books, put, stageOf, hg, hi]

theorem voice_advances
    (wh : SettleFailure) (hh : lo ∨ s.Heard a) :
    s.Advances lo [] (s.voicePowerboxRefusal t wh a) { s with ledger := (s.ledger.take id).1 } := by
  refine ⟨?_, take_apart h id⟩
  obtain rfl := s.ledger.filed id t ht
  have how : s.books.stage t.id = .owed t.connection := stageOf_ticket ht
  rw [take_books h ht, voicePowerboxRefusal]
  split_ifs with hv
  · exact .of_move (.settle how)
  · refine .of_move (.strike (.inr ⟨how, ?_⟩))
    exact (voiced_or hh ht).resolve_left (by simpa using hv)

theorem silent_advances
    (hg : s.isLive t.connection = false) : s.Advances lo [] [] { s with ledger := (s.ledger.take id).1 } := by
  refine ⟨?_, take_apart h id⟩
  rw [take_books h ht]
  exact .of_move (.strike (.inr ⟨stageOf_ticket ht, .inl fun hi => by simp [isLive_iff.mpr hi] at hg⟩))

theorem park_advances (op : Opened)
    (now : Instant) :
    s.Advances lo [] []
      { s with ledger := (s.ledger.take id).1, deliveries := s.deliveries.park (inFlight t op now) } := by
  obtain rfl := s.ledger.filed id t ht
  have hti : ∀ i, (s.ledger.take t.id).1.tickets.get? i = if i = t.id then none else s.ledger.tickets.get? i :=
    fun i => get?_erase
  have hh : ∀ i, (s.deliveries.park (inFlight t op now)).held.get? i =
      if i = t.id then some (inFlight t op now) else s.deliveries.held.get? i :=
    fun i => get?_insert
  refine .of_books (fun i => ?_) (ext (funext fun i => ?_) rfl rfl)
  · by_cases hi : i = t.id
    · exact .inl (by rw [hti, if_pos hi])
    · simpa [hti, hh, hi] using h i
  · by_cases hi : i = t.id
    · subst hi
      show stageOf _ _ _ = stageOf _ _ _
      rw [stageOf_ticket ht, stageOf, hti, hh, if_pos rfl, if_pos rfl]
      rfl
    · simp [books, stageOf, hti, hh, hi]

end Take

theorem settleRefused_advances (h : Apart s.ledger s.deliveries) (id : DesignationId) (wh : SettleFailure)
    (hh : lo ∨ s.Heard a) : s.Advances lo [] (s.settleRefused id wh a).2 (s.settleRefused id wh a).1 := by
  cases hg : s.ledger.tickets.get? id with
  | none =>
    have ht : s.ledger.take id = ((s.ledger.take id).1, none) := Prod.ext rfl hg
    rw [settleRefused, ht]
    exact .of_books h rfl
  | some t =>
    have ht : s.ledger.take id = ((s.ledger.take id).1, some t) := Prod.ext rfl hg
    rw [settleRefused, ht]
    exact voice_advances h hg wh hh

theorem settleDesignation_advances (h : Apart s.ledger s.deliveries) (id : DesignationId)
    (ch : Option (Option Opened)) (now : Instant) (hh : lo ∨ s.Heard a) :
    s.Advances lo [] (s.settleDesignation id ch now a).2
      (s.settleDesignation id ch now a).1 := by
  rcases s.ledger.redeem_cases id (s.world now) now with ⟨hg, hr⟩ | ⟨t, hg, ⟨wh, hr⟩ | hr⟩
  all_goals rw [settleDesignation, hr]
  · have hs : (s.ledger.take id).1.tickets = s.ledger.tickets := erase_of_get?_eq_none hg
    refine .of_books (take_apart h id) (ext (funext fun i => ?_) rfl rfl)
    simp [books, stageOf, hs]
  · exact voice_advances h hg _ hh
  · dsimp only
    cases ch with
    | none => exact voice_advances h hg _ hh
    | some f =>
      split_ifs with hl hre
      · rw [Bool.not_eq_true'] at hl
        exact silent_advances h hg hl
      · exact voice_advances h hg _ hh
      · cases f with
        | none => exact voice_advances h hg _ hh
        | some op => exact park_advances h hg op now

/-- **A picker round moves the books.** -/
theorem PickerRuns.advances {pa : Painter} {now : Instant} {x : Session × List Terminal}
    (hr : PickerRuns pa now a s x) (h : Apart s.ledger s.deliveries) (hhe : lo ∨ s.Heard a) :
    s.Advances lo [] x.2 x.1 := by
  refine (Machine.Runs.induct (R := fun ts t => s.Advances lo [] ts t ∧ (lo ∨ t.Heard a)) hr
    ⟨.of_books h rfl, hhe⟩ fun ts t op ih => ?_).1
  obtain ⟨ha, hhe⟩ := ih
  cases op with
  | grab | session => exact ⟨ha.trans (.of_books ha.apart rfl), hhe⟩
  | refuse id wh =>
    obtain ⟨led, de, he, hp⟩ := t.settleRefused_frame id wh a
    refine ⟨ha.trans (settleRefused_advances ha.apart id wh hhe), hhe.imp_right fun hh => ?_⟩
    simp only [pickerStep, he]
    exact fun i t' ht' hl => hh i t' (hp i t' ht') hl
  | settle id ch =>
    obtain ⟨led, de, he, hp⟩ := t.settleDesignation_frame id ch now a
    refine ⟨ha.trans (settleDesignation_advances ha.apart id ch now hhe), hhe.imp_right fun hh => ?_⟩
    simp only [pickerStep, he]
    exact fun i t' ht' hl => hh i t' (hp i t' ht') hl

/-! ### Delivering -/

section Deliver

variable {e : InFlight}

variable (h : Apart s.ledger s.deliveries)

include h

theorem park_books (he : s.deliveries.held.get? id = some e) (e' : InFlight)
    (hid : e'.id = id) :
    Apart s.ledger (s.deliveries.park e') ∧
    ({ s with deliveries := s.deliveries.park e' } : Session).books =
      s.books.put id (if e'.agent = .sent then .answered e'.connection else .owed e'.connection) := by
  have hh : ∀ i, (s.deliveries.park e').held.get? i = if i = id then some e' else s.deliveries.held.get? i := by
    intro i
    subst hid
    exact get?_insert
  refine ⟨fun i => ?_, ext (funext fun i => ?_) rfl rfl⟩
  · by_cases hi : i = id
    · exact .inl (hi ▸ h.held he)
    · simpa [hh, hi] using h i
  · by_cases hi : i = id
    · subst hi
      simp [books, put, stageOf, hh, h.held he]
    · simp [books, put, stageOf, hh, hi]

theorem takeAny_advances (he : s.deliveries.held.get? id = some e)
    (hg : e.agent = .sent ∨ lo) : s.Advances lo [] [] { s with deliveries := (s.deliveries.takeAny id).1 } := by
  have hh : ∀ i, (s.deliveries.takeAny id).1.held.get? i = if i = id then none else s.deliveries.held.get? i :=
    fun i => get?_erase
  have hb : ({ s with deliveries := (s.deliveries.takeAny id).1 } : Session).books = s.books.put id .absent := by
    refine ext (funext fun i => ?_) rfl rfl
    by_cases hi : i = id
    · subst hi
      simp [books, put, stageOf, hh, h.held he]
    · simp [books, put, stageOf, hh, hi]
  refine ⟨?_, h.mono (fun _ _ ht => ht) fun _ _ he => (get?_erase_eq_some.mp he).2⟩
  have hst : s.books.stage id = _ := h.stageOf_held he
  rw [hb]
  refine .of_move (.strike (k := e.connection) ?_)
  by_cases hs : e.agent = .sent
  · exact .inl (by rw [hst, if_pos hs])
  · exact .inr ⟨by rw [hst, if_neg hs], .inr (hg.resolve_left hs)⟩

end Deliver

variable (h : Apart s.ledger s.deliveries)

include h

theorem deliverAgentCopy_advances (c : ConnectionId) {a : Bool}
    (hk : lo ∨ a = true ∨ s.deliveries.owedByConnection c = none) :
    s.Advances lo [] (s.deliverAgentCopy c a).2 (s.deliverAgentCopy c a).1 := by
  unfold deliverAgentCopy
  cases how : s.deliveries.owedByConnection c with
  | none => exact .of_books h rfl
  | some e =>
    obtain ⟨hg, rfl, hag⟩ := DeliveryTable.owedByConnection_eq_some how
    cases a with
    | false => exact takeAny_advances h hg (.inr (by simpa [how] using hk))
    | true =>
      obtain ⟨ha, hb⟩ := park_books h hg { e with agent := .sent } rfl
      have hst : s.books.stage e.id = .owed e.connection := by
        rw [show s.books.stage e.id = _ from h.stageOf_held hg, hag]
        rfl
      have hs : s.Advances lo [] [⟨e.connection, some e.id, .designated e.facetId e.fd e.id e.ask e.name⟩]
          { s with deliveries := s.deliveries.park { e with agent := .sent } } := by
        refine ⟨?_, ha⟩
        rw [hb]
        exact .of_move (.answer hst)
      simp only [if_true]
      split
      · exact hs
      · exact hs.trans (takeAny_advances ha get?_insert_self (.inl rfl))

theorem deliverRealmCopy_advances (r : RealmId) (a : Bool) : s.Advances lo [] [] (s.deliverRealmCopy r a) := by
  unfold deliverRealmCopy
  cases how : s.deliveries.owedByRealm r with
  | none => exact .of_books h rfl
  | some e =>
    obtain ⟨hg, -, hag, -⟩ := DeliveryTable.owedByRealm_eq_some how
    cases a with
    | false => exact takeAny_advances h hg (.inl hag)
    | true =>
      -- the copy is marked sent, and with both out the descriptor goes
      obtain ⟨ha, hb⟩ := park_books h hg { e with shim := .sent } rfl
      have hs : ({ s with deliveries := s.deliveries.park { e with shim := .sent } } : Session).books = s.books := by
        rw [hb]
        refine ext (Function.update_eq_self_iff.mpr ?_) rfl rfl
        exact (h.stageOf_held hg).symm
      have hh : (s.deliveries.park { e with shim := .sent }).held.get? e.id = some { e with shim := .sent } :=
        get?_insert_self
      simp only [if_true, DeliveryTable.takeSettled, hh]
      split
      · exact (Advances.of_books ha hs).trans (takeAny_advances ha hh (.inl hag))
      · exact .of_books ha hs

/-! ### Connections -/

theorem closePrincipal_advances (c : ConnectionId) : s.Advances lo [] [] (s.closePrincipal c) := by
  unfold closePrincipal
  split
  · rename_i hli
    have hp : s.system.present c = some false := isLive_iff.mp hli
    have hg := teardown_present (s := s.system) (c := c) (by simp [hp])
    let s₁ : Session := { s with system := (systemStep s.system (.teardown c)).1 }
    have hl : s.Advances lo [] [] s₁ := by
      have hb : s₁.books = { s.books with live := s.books.live \ {c} } := by
        refine ext rfl (Set.ext fun c' => ?_) (Set.ext fun c' => ?_)
        all_goals by_cases hc : c' = c <;> simp [s₁, books, hg, hc, hp]
      exact ⟨hb ▸ .of_move (.leave c), h⟩
    have hn : ∀ c', c' = c → c' ∉ s₁.books.live := fun c' hc => by simp [s₁, books, hg, hc]
    have ht : s₁.Advances lo [] [] { s₁ with ledger := (s₁.ledger.withdrawConnection c).1 } :=
      retire_advances hl.apart _ (fun _ => false)
        (fun t _ hk => .inr (.inl (hn t.connection (by simpa using hk)))) (by simp)
    exact (hl.trans ht).trans (release_advances ht.apart _ .connectionGone
      fun id e _ hk => .inr (.inl (hn e.connection (by simpa using hk))))
  · exact .of_books h rfl

end Advances

end Session

/-! ### Messages -/

/-- A use calls at most one sink, and an ask for a file names the facet it came in on. -/
theorem Chokepoint.perform_calls_le {r : UseRequest} {en : UseEnv} {g : GrantId} {so cl : Bool} {now : Instant} :
    (perform r en g so cl now).calls = [] ∨ ∃ ca, (perform r en g so cl now).calls = [ca] ∧
        ∀ ask, ca = .designate ask → ask.facetId = r.facetId := by
  unfold perform
  dsimp only
  repeat' split
  all_goals first
    | exact .inl rfl
    | exact .inr ⟨_, rfl, fun ask h => by cases h <;> rfl⟩

theorem Turn.enforced_calls_le (t : Turn) (ctx : ServerCtx) (f g : WireId) (i : PrincipalIdentity) (k : UseKind) :
    (t.enforced ctx f g i k).calls = [] ∨ ∃ ca, (t.enforced ctx f g i k).calls = [ca] ∧
        ∀ ask, ca = .designate ask → ask.facetId = f := by
  rcases t.enforced_cases ctx f g i k with ⟨hn, -⟩ | ⟨r, e, cl, ht⟩
  · exact .inl hn
  · rw [ht.calls]
    exact Chokepoint.perform_calls_le

theorem Turn.Served.calls_le {ctx : ServerCtx} {msg : Message} {t t' : Turn} (h : Turn.Served ctx msg t t')
    (ht : t.calls = []) :
    t'.calls = [] ∨ ∃ ca, t'.calls = [ca] ∧ ∀ ask, ca = .designate ask → ask.facetId = msg.objectId := by
  rcases h with ha | ⟨t₁, hu, ha⟩
  · exact .inl (ha.calls.trans ht)
  · rw [ha.calls]
    cases hu with
    | @intro f g k i hb hob hk hi => simpa [Turn.absorb, ht] using t.enforced_calls_le ctx msg.objectId g i k

variable {lo : Prop}

namespace Session

theorem served_calls_le (h : s.system.Inv) (c : ConnectionId) (ctx : ServerCtx) (msg : Message) (wi : Wire) :
    (s.served c ctx msg wi).2.calls = [] ∨ ∃ ca, (s.served c ctx msg wi).2.calls = [ca] ∧
      ∀ ask, ca = .designate ask → ask.facetId = msg.objectId := by
  simp only [served, systemStep]
  split
  · exact .inl rfl
  · rename_i co hc
    have hs : Turn.Served (s.serverCtx c ctx) msg (s.system.turn co.server wi) _ :=
      Turn.handleMessage_served (h.conns c co hc).below
    exact hs.calls_le rfl

/-- What the ledger is asked by a message: nothing, or one thing, which it refuses or makes a ticket for. -/
inductive Asks (s : Session) (c : ConnectionId) (facetId : WireId) :
    Ledger × List (DesignateAsk × Except OpenRefusal DesignationId) → Prop
  | none : Asks s c facetId (s.ledger, [])
  | refused (ask : DesignateAsk) (why : OpenRefusal) (hfacet : ask.facetId = facetId) :
      Asks s c facetId (s.ledger, [(ask, .error why)])
  | opened (ask : DesignateAsk) (l : Ledger)
      (htickets : l.tickets = s.ledger.tickets.insert s.ledger.next (Ledger.ticketFor s.ledger.next c ask)) :
      Asks s c facetId (l, [(ask, .ok s.ledger.next)])

theorem asks (h : s.system.Inv) (c : ConnectionId) (ctx : ServerCtx) (msg : Message) (wi : Wire) :
    s.Asks c msg.objectId (s.askLedger c (s.served c ctx msg wi).2.calls) := by
  unfold askLedger
  split
  · rcases served_calls_le h c ctx msg wi with hc | ⟨ca, hc, hf⟩
    · rw [hc]
      exact .none
    · rw [hc]
      cases ca with
      | designate ask =>
        simp only [openTickets]
        cases hop : s.ledger.openTicket c ask with
        | error wh => exact .refused ask wh (hf ask rfl)
        | ok x =>
          obtain ⟨l, id⟩ := x
          obtain ⟨rfl, ht, -⟩ := Ledger.openTicket_eq_ok hop
          exact .opened ask l ht
      | _ => exact .none
  · exact .none

/-- The id the ledger may give out is not in use. -/
def Unused (s : Session) : Prop :=
  s.ledger.isOpen s.ledger.next = false ∧ s.deliveries.held.get? s.ledger.next = none

theorem afterServed_advances (hin : s.system.Inv) (h : Apart s.ledger s.deliveries) (hu : s.Unused)
    (c : ConnectionId) (ctx : ServerCtx) (msg : Message) (wi : Wire) :
    s.Advances lo ((s.askLedger c (s.served c ctx msg wi).2.calls).2.filterMap (·.2.toOption)) []
      (s.afterServed c ctx msg wi) := by
  have hp : (s.served c ctx msg wi).1.present = s.system.present :=
    systemStep_present s.system _ (fun _ h => nomatch h) (fun _ h => nomatch h)
  have ha := asks hin c ctx msg wi
  unfold afterServed
  generalize s.askLedger c (s.served c ctx msg wi).2.calls = asked at ha
  cases ha with
  | none => exact .of_books h (ext rfl (by simp [books, hp]) (by simp [books, hp]))
  | refused ask wh hf => exact .of_books h (ext rfl (by simp [books, hp]) (by simp [books, hp]))
  | opened ask l ht =>
    have hg : ∀ i, l.tickets.get? i =
        if i = s.ledger.next then some (Ledger.ticketFor s.ledger.next c ask)
        else s.ledger.tickets.get? i := fun i => by
      rw [ht, get?_insert]
    refine ⟨?_, fun i => ?_⟩
    · have hb : ({ s with system := (s.served c ctx msg wi).1, ledger := l } : Session).books =
          s.books.put s.ledger.next (.owed c) := by
        refine ext (funext fun i => ?_) (by simp [books, put, hp])
          (by simp [books, put, hp])
        by_cases hi : i = s.ledger.next
        · simp [books, put, stageOf, hg, hi, Ledger.ticketFor]
        · simp [books, put, stageOf, hg, hi]
      rw [hb]
      exact .of_move (.mint (stageOf_absent (by simpa [Ledger.isOpen] using hu.1) hu.2))
    · by_cases hi : i = s.ledger.next
      · exact .inr (hi ▸ hu.2)
      · simpa [hg, hi] using h i

theorem afterServed_owes (hin : s.system.Inv) {ctx : ServerCtx} {msg : Message} {wi : Wire}
    (hi : .ok id ∈ (s.askLedger c (s.served c ctx msg wi).2.calls).2.map (·.2)) :
    (s.afterServed c ctx msg wi).books.stage id = .owed c := by
  have ha := asks hin c ctx msg wi
  unfold afterServed
  generalize s.askLedger c (s.served c ctx msg wi).2.calls = asked at ha hi
  cases ha with
  | none | refused => simp at hi
  | opened ask l ht =>
    obtain rfl : id = s.ledger.next := by simpa using hi
    have hg : l.tickets.get? s.ledger.next = some (Ledger.ticketFor s.ledger.next c ask) := by
      rw [ht, get?_insert_self]
    exact stageOf_ticket hg

end Session

/-! ### The conditions -/

namespace Session

/-- An id that is about to be given out is not in use. -/
def Fresh (s : Session) : SessionOp → Prop
  | .message _ _ _ _ _ => s.Unused
  | _ => True

/-- Every frame the step queues is taken, and no descriptor is let go of that the agent of an open
connection is still owed. -/
def Kept (s : Session) : SessionOp → Prop
  | .message _ _ _ _ accepts => accepts = true
  | .pickerRound _ _ env => s.Heard env.accepts
  | .locked accepts => s.Heard accepts
  | .sweep now accepts => s.Heard accepts ∧ ∀ id e, s.deliveries.held.get? id = some e → e.deadline ≤ now →
      e.agent = .sent ∨ s.isLive e.connection = false
  | .realmClosed realm accepts => s.Heard accepts ∧ ∀ id e, s.deliveries.held.get? id = some e → e.realm = realm →
      e.agent = .sent ∨ s.isLive e.connection = false
  | .agentWoken c accepts => accepts = true ∨ s.deliveries.owedByConnection c = none
  | _ => True

instance (s : Session) : Decidable s.Unused := inferInstanceAs (Decidable (_ ∧ _))

instance (s : Session) : (op : SessionOp) → Decidable (s.Fresh op)
  | .message _ _ _ _ _ => inferInstanceAs (Decidable s.Unused)
  | .system _ | .consent _ | .closed _ | .pickerRound _ _ _ | .locked _ | .sweep _ _ | .agentWoken _ _
  | .realmWoken _ _ | .realmStarted _ | .realmReaped _ | .realmClosed _ _ | .shutdown => .isTrue trivial

end Session

def SessionOut.opened (out : SessionOut) : List DesignationId := out.asked.filterMap (·.toOption)

theorem Session.answers_busy (c : ConnectionId) (acc : Bool)
    (asked : List (DesignateAsk × Except OpenRefusal DesignationId)) :
    answers (asked.filterMap (busyTerminal c acc)) = [] := by
  refine List.filterMap_eq_nil_iff.mpr fun t ht => ?_
  obtain ⟨⟨ask, a⟩, -, hb⟩ := List.mem_filterMap.mp ht
  cases a with
  | ok id => cases hb
  | error wh =>
    cases acc with
    | false => cases hb
    | true =>
      cases hb
      rfl

theorem Session.connect_advances (hi : s.system.Inv) (h : Apart s.ledger s.deliveries) (p : PeerCred) :
    s.Advances lo [] [] { s with system := (systemStep s.system (.connect p)).1 } := by
  have hp := connect_present s.system p
  have hn : s.system.present s.system.petitions.nextConnectionId = none := by
    cases hg : s.system.conns.get? s.system.petitions.nextConnectionId with
    | none => simp [present, hg]
    | some co => exact absurd (hi.conns _ co hg).minted (lt_irrefl _)
  refine ⟨?_, h⟩
  have hb : ({ s with system := (systemStep s.system (.connect p)).1 } : Session).books =
      { s.books with
        live := insert s.system.petitions.nextConnectionId s.books.live
        seen := insert s.system.petitions.nextConnectionId s.books.seen } := by
    refine ext rfl (Set.ext fun c => ?_) (Set.ext fun c => ?_)
    all_goals by_cases hc : c = s.system.petitions.nextConnectionId <;> simp [books, hp, hc]
  rw [hb]
  exact .of_move (.join (by simp [books, hn]))

/-- **A step moves the books.** -/
theorem sessionStep_advances (pa : Painter) (hi : s.system.Inv) (h : Apart s.ledger s.deliveries)
    {op : SessionOp} (hf : s.Fresh op) (hk : lo ∨ s.Kept op) :
    s.Advances lo (sessionStep pa s op).2.opened (sessionStep pa s op).2.terminals
      (sessionStep pa s op).1 := by
  -- a descriptor that was let go of had reached the agent, or there was no agent, or the service is lossy
  have hl : ∀ {P : InFlight → Prop}, (lo ∨ ∀ id e, s.deliveries.held.get? id = some e → P e →
      e.agent = .sent ∨ s.isLive e.connection = false) → ∀ id e, s.deliveries.held.get? id = some e → P e →
      e.agent = .sent ∨ e.connection ∉ s.books.live ∨ lo := by
    intro P hP id e he hPe
    rcases hP with hlo | hP
    · exact .inr (.inr hlo)
    · exact (hP id e he hPe).imp_right fun hg => .inl fun hin => by simp [isLive_iff.mpr hin] at hg
  cases op with
  | system op =>
    obtain ⟨op, hop⟩ := op
    by_cases hc : ∃ p, op = .connect p
    · obtain ⟨p, rfl⟩ := hc
      exact connect_advances hi h p
    · have hp := systemStep_present s.system op (fun p he => hc ⟨p, he⟩)
        (by rintro c rfl; cases hop)
      exact .of_books h (ext rfl (by simp [books, sessionStep, hp])
        (by simp [books, sessionStep, hp]))
  | consent | realmStarted | realmReaped | shutdown => exact .of_books h rfl
  | message c ctx msg wi acc =>
    simp only [sessionStep, dispatchMessage]
    split
    · have hou : s.Advances lo _ _ (s.afterServed c ctx msg wi) :=
        (afterServed_advances hi h hf c ctx msg wi).of_answers
          (answers_busy c acc (s.askLedger c (s.served c ctx msg wi).2.calls).2)
      simp only [SessionOut.opened, List.filterMap_map]
      split
      · exact hou.silently (closePrincipal_advances hou.apart c)
      · exact hou
    · exact .of_books h rfl
  | closed c => exact closePrincipal_advances h c
  | pickerRound now re en => exact (s.servicePickerRound_runs pa now re en).advances h hk
  | locked acc =>
    have hr := refuseAll_advances h (fun _ => false) .timedOut hk
    exact hr.silently (.of_books hr.apart rfl)
  | sweep now acc =>
    have hr := refuseAll_advances h (fun t => now < t.deadline) .timedOut (hk.imp_right (·.1))
    refine hr.silently
      (release_advances hr.apart (fun e => now < e.deadline) .noTurn fun id e he hke => ?_)
    exact hl (hk.imp_right (·.2)) id e he (by simpa using hke)
  | agentWoken c acc => exact deliverAgentCopy_advances h c hk
  | realmWoken r acc => exact deliverRealmCopy_advances h r acc
  | realmClosed r acc =>
    have hre : s.Advances lo [] [] (s.reapRealm r) := .of_books h rfl
    have hr := refuseAll_advances hre.apart (fun t => t.realm ≠ r) .realmDied
      (hk.imp_right (·.1))
    have hrel := hr.silently (release_advances hr.apart (fun e => e.realm ≠ r) .realmDied
      fun id e he hke => hl (hk.imp_right (·.2)) id e he (by simpa using hke))
    exact (hre.trans hrel).silently (.of_books hrel.apart rfl)

/-- **So does a run.** -/
theorem session_advances (pa : Painter) (hi : s.system.Inv) (h : Apart s.ledger s.deliveries) {ops : List SessionOp}
    (hf : (sessionStep pa).Along Session.Fresh s ops) (hk : lo ∨ (sessionStep pa).Along Session.Kept s ops) :
    s.Advances lo (((sessionStep pa).outs s ops).flatMap (·.opened))
      (((sessionStep pa).outs s ops).flatMap (·.terminals)) ((sessionStep pa).exec s ops) := by
  induction ops generalizing s with
  | nil => exact .of_books h rfl
  | cons op ops ih =>
    have hs := sessionStep_advances pa hi h hf.1 (hk.imp_right (·.1))
    have hi' := (sessionStep_system pa s op).inv systemStep_inv hi
    exact hs.trans (ih hi' hs.apart hf.2 (hk.imp_right (·.2)))

/-! ### Counting -/

def terminalsFor (id : DesignationId) (c : ConnectionId) (outs : List SessionOut) : Nat :=
  (outs.flatMap (·.terminals)).countP fun t => t.connection = c ∧ t.designation = some id

theorem terminalsFor_eq {ou : List SessionOut} :
    terminalsFor id c ou = (answers (ou.flatMap (·.terminals))).count (id, c) := by
  rw [terminalsFor, answers, List.count, List.countP_filterMap]
  refine List.countP_congr fun t _ => ?_
  cases t.designation <;> simp [and_comm]

section Opened

variable {p : Painter} {ctx : ServerCtx} {msg : Message} {w : Wire} {ac : Bool}

theorem standing_opened (hin : s.system.Inv) (h : Apart s.ledger s.deliveries) (hu : s.Unused)
    (hi : .ok id ∈ (s.dispatchMessage c ctx msg w ac).2.asked) :
    Books.Standing lo id c 0 (s.dispatchMessage c ctx msg w ac).1.books := by
  unfold dispatchMessage at hi ⊢
  split at hi
  · rename_i hl
    rw [if_pos hl]
    have hs : s.Advances lo _ _ _ := afterServed_advances hin h hu c ctx msg w
    have how : Books.Standing lo id c 0 (s.afterServed c ctx msg w).books := by
      refine ⟨?_, .inl ⟨afterServed_owes hin hi, rfl⟩⟩
      have hp : (s.served c ctx msg w).1.present = s.system.present :=
        systemStep_present s.system _ (fun _ h => nomatch h) (fun _ h => nomatch h)
      have hc : s.system.present c = some false := isLive_iff.mp hl
      simp [books, afterServed, hp, hc]
    dsimp only
    split
    · exact (closePrincipal_advances hs.apart c).moves.standing List.not_mem_nil how
    · exact how
  · simp at hi

theorem answers_dispatchMessage (s : Session) (c : ConnectionId) (ctx : ServerCtx) (msg : Message) (w : Wire)
    (ac : Bool) : answers (s.dispatchMessage c ctx msg w ac).2.terminals = [] := by
  unfold dispatchMessage
  split
  · exact answers_busy ..
  · rfl

theorem standing_of_opened {du : List SessionOp} (hi : s.system.Inv) (h : Apart s.ledger s.deliveries)
    (hf : (sessionStep p).Along Session.Fresh s (.message c ctx msg w ac :: du))
    (hk : lo ∨ (sessionStep p).Along Session.Kept s (.message c ctx msg w ac :: du))
    (hid : .ok id ∈ (sessionStep p s (.message c ctx msg w ac)).2.asked)
    (hon : ∀ ou ∈ (sessionStep p).outs (sessionStep p s (.message c ctx msg w ac)).1 du, .ok id ∉ ou.asked) :
    Books.Standing lo id c
      (terminalsFor id c ((sessionStep p).outs s (.message c ctx msg w ac :: du)))
      ((sessionStep p).exec s (.message c ctx msg w ac :: du)).books := by
  have hst := sessionStep_advances p hi h hf.1 (hk.imp_right (·.1))
  have hi' := (sessionStep_system p s (.message c ctx msg w ac)).inv systemStep_inv hi
  have hr := session_advances p hi' hst.apart hf.2 (hk.imp_right (·.2))
  have hn : id ∉ ((sessionStep p).outs (sessionStep p s (.message c ctx msg w ac)).1
      du).flatMap (·.opened) := by
    intro hin
    obtain ⟨ou, hou, hop⟩ := List.mem_flatMap.mp hin
    obtain ⟨a, hm, ha⟩ := List.mem_filterMap.mp hop
    cases a with
    | error wh => cases ha
    | ok i' =>
      cases ha
      exact hon ou hou hm
  have how : Books.Standing lo id c 0 _ := standing_opened hi h hf.1 hid
  have hs := hr.moves.standing hn how
  rw [terminalsFor_eq, Machine.outs_cons, List.flatMap_cons, answers_append]
  rw [show answers (sessionStep p s (.message c ctx msg w ac)).2.terminals = [] from
    answers_dispatchMessage s c ctx msg w ac]
  simpa using hs

/-- An ask the ledger does not take is answered busy on the facet it came in on. -/
theorem busy_of_refused (hi : s.system.Inv) {wh : OpenRefusal}
    (hw : .error wh ∈ (s.dispatchMessage c ctx msg w ac).2.asked) :
    (s.dispatchMessage c ctx msg w ac).2.terminals =
      if ac then [⟨c, none, .designationRefused msg.objectId .busy⟩] else [] := by
  have ha := asks hi c ctx msg w
  unfold dispatchMessage at hw ⊢
  split at hw
  · rename_i hl
    rw [if_pos hl]
    dsimp only at hw ⊢
    generalize s.askLedger c (s.served c ctx msg w).2.calls = asked at ha hw ⊢
    cases ha with
    | none | opened => simp at hw
    | refused ask w' hf => cases ac <;> simp [busyTerminal, hf]
  · simp at hw

end Opened

/-- **One terminal for a designation.** Take any run in which no id in use is given out again, and in it a
message that the chokepoint admits as an ask for a file.

If the ledger makes a ticket for the ask, then up to the point where its id is given out anew the asking
connection is sent at most one terminal for it; and if moreover every step is kept (the frames it queues are
taken, and no descriptor is let go of that the agent of an open connection is still owed), then it has been
sent exactly one as soon as the designation is in neither store, while the connection is open.

If the ledger refuses the ask, it is answered on the spot and once, unless the frame is not taken. -/
theorem one_terminal_per_designation (paint : Painter) (policy : ConsentPolicy) (config : PetitionConfig)
    (chord : AttentionChord) (pickerRoot : Bool) (past during : List SessionOp) (c : ConnectionId) (ctx : ServerCtx)
    (msg : Message) (wire : Wire) (accepts : Bool) :
    let M := sessionStep paint
    let st := Session.new policy config chord pickerRoot
    let ask := SessionOp.message c ctx msg wire accepts
    let b := M.exec st past
    let a := M.exec b (ask :: during)
    let ou := M.outs b (ask :: during)
    M.Along Session.Fresh st (past ++ ask :: during) →
    (∀ id, .ok id ∈ (M b ask).2.asked → (∀ out ∈ M.outs (M b ask).1 during, .ok id ∉ out.asked) →
      terminalsFor id c ou ≤ 1 ∧
      (M.Along Session.Kept st (past ++ ask :: during) → a.isLive c = true →
        a.ledger.isOpen id = false → a.deliveries.held.get? id = none → terminalsFor id c ou = 1)) ∧
    (∀ wh, .error wh ∈ (M b ask).2.asked → (M b ask).2.terminals =
      if accepts then [⟨c, none, .designationRefused msg.objectId .busy⟩] else []) := by
  intro M st ask b a ou hf
  obtain ⟨hp, hr⟩ := (M.along_append Session.Fresh st past _).mp hf
  have hi : b.system.Inv := session_inv paint policy config chord pickerRoot past
  have ha : Apart b.ledger b.deliveries := by
    have hn : Apart st.ledger st.deliveries := fun id => .inl (by simp [st, new, Ledger.new])
    have had : st.Advances True _ _ b :=
      session_advances paint (.new policy config chord) hn hp (.inl trivial)
    exact had.apart
  refine ⟨fun id hid hon => ⟨?_, fun hk hl hop hh => ?_⟩, fun wh => busy_of_refused hi⟩
  · have hs : Books.Standing True id c _ _ :=
      standing_of_opened hi ha hr (.inl trivial) hid hon
    exact hs.le_one
  · have hk' := ((M.along_append Session.Kept st past _).mp hk).2
    have hs : Books.Standing False id c _ a.books :=
      standing_of_opened hi ha hr (.inr hk') hid hon
    refine hs.eq_one (stageOf_absent ?_ hh) (isLive_iff.mp hl) not_false
    simpa [Ledger.isOpen] using hop

namespace Sample

/-- The picker goes up, the human presses Return in it, and the chosen file is opened. -/
def chosen : List SessionOp :=
  [.pickerRound 1 true pickerEnv, .consent ⟨.event ⟨.physical, .key .keysym 0xff0d .pressed⟩ (secs 1), rfl⟩,
    .pickerRound (secs 2) true pickerEnv]

def delivered : List SessionOp := chosen ++ [.agentWoken 1 true, .realmWoken realm true]

end Sample

open Sample in
/-- The realm of a chosen file dies before the agent's turn: the agent's connection is open, its designation is
in neither store, and it was sent nothing. -/
theorem terminal_lost_with_realm : let M := sessionStep painter
    let before := M.exec session prepared
    let during := chosen ++ [.realmClosed realm fun _ => true]
    let after := M.exec before (sends requestFile :: during)
    M.Along Session.Fresh session (prepared ++ sends requestFile :: during) ∧
    (M before (sends requestFile)).2.asked = [.ok 1] ∧
    (M.outs (M before (sends requestFile)).1 during).flatMap (·.opened) = [] ∧
    after.isLive 1 = true ∧ after.ledger.isOpen 1 = false ∧ after.deliveries.held.get? 1 = none ∧
    terminalsFor 1 1 (M.outs before (sends requestFile :: during)) = 0 := by
  decide

open Sample in
/-- With the realm alive both turns come, and the agent was sent one terminal. -/
theorem one_terminal_per_designation_delivered :
    terminalsFor 1 1 ((sessionStep painter).outs ((sessionStep painter).exec session prepared)
      (sends requestFile :: delivered)) = 1 := by
  have hf : (sessionStep painter).Along Session.Fresh session (prepared ++ sends requestFile :: delivered) := by
    decide
  have hk : (sessionStep painter).Along Session.Kept session (prepared ++ sends requestFile :: delivered) :=
    ⟨trivial, trivial, rfl, rfl, rfl, rfl, rfl, fun _ _ _ _ => rfl, trivial, fun _ _ _ _ => rfl, .inl rfl, trivial,
      trivial⟩
  obtain ⟨hop, -⟩ := one_terminal_per_designation painter .autoApprove .default .super true prepared delivered 1 ctx
    requestFile ⟨[], []⟩ true hf
  exact (hop 1 (by decide) (by decide)).2 hk (by decide) (by decide) (by decide)

end Vitrin
