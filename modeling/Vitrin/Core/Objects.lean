import Vitrin.Core.Connections

/-!
# The object table of a connection

A client names objects by ids it chooses itself, and the chokepoint keeps what it
knows of a grant under the id of its handle. Here it is shown that an id means one
thing for the life of a connection, and that the caps bound what is in the table.

`tableStep` is one connection's server taking a message, or a resolution that is
delivered to it. The stores are shared with the other connections, so each step finds
them as it likes (`Around`).

`Edit` is one thing that is done to the table, with the ids `allocate_id` accepted on
the way.

Serving a message and delivering a resolution are edits (`handleMessage_edits`,
`deliverResolution_edits`), and an edit keeps the invariant `Table`. A message that is
answered with a fault added nothing, or it was a petition whose ids were all accepted
and which failed later, on the server's side (`handleMessage_clean`).
-/

namespace Vitrin

open Lib OrdMap

/-- What may become of an object: a pending handle is resolved. -/
inductive ObjectKind.Ages : ObjectKind → ObjectKind → Prop
  | same (kind : ObjectKind) : Ages kind kind
  | resolved (row : Option GrantId) : Ages (.grant .pending) (.grant (.resolved row))

theorem ObjectKind.Ages.trans {k k' k'' : ObjectKind} (h : k.Ages k') (h' : k'.Ages k'') : k.Ages k'' := by
  cases h with
  | same => exact h'
  | resolved r =>
    cases h'
    exact .resolved r

/-- The cap an object counts against; a petition is counted by its handle. -/
def ObjectKind.counted : ObjectKind → Option Counted
  | .realm _ => some .realms
  | .grant _ => some .petitions
  | .facet .launcher _ => some .launchers
  | .facet .layoutFocus _ | .facet .layoutArrange _ => some .layoutFacets
  | .facet .powerbox _ => some .powerboxes
  | .facet .egress _ => some .egressFacets
  | .consent | .facet .view _ | .facet .pointer _ | .facet .text _ => none

/-- The ids a petition mints, in the order of the arguments. -/
def RequestGrant.ids (req : RequestGrant) : List WireId := [req.grant, req.consent, req.view, req.pointer, req.text]

variable {s : PrincipalServer} {id : WireId} {kind : ObjectKind} {ids : List WireId}

open RequestGrant (ids)

namespace PrincipalServer

/-! ### Edits -/

/-- The ids that are accepted, of some that are put to `allocateId` until one is refused. -/
def accepted (s : PrincipalServer) : List WireId → List WireId
  | [] => []
  | id :: ids => match s.allocateId id with
    | .error _ => []
    | .ok s => id :: s.accepted ids

/-- A facet's handle is in the table. -/
def Rests (s : PrincipalServer) : ObjectKind → Prop
  | .facet _ grant => ∃ state, s.objects.get? grant = some (.grant state)
  | _ => True

/-- One thing that is done to a table, and the ids it takes. -/
inductive Edit : PrincipalServer → List WireId → PrincipalServer → Prop
  /-- Ids are taken that no object comes to stand at. -/
  | allocate (s : PrincipalServer) (ids : List WireId) : Edit s (s.accepted ids) (s.allocateIds ids).1
  | mint {s s₁ : PrincipalServer} {id : WireId} {kind : ObjectKind} {counted : Counted}
      (halloc : s.allocateId id = .ok s₁) (hcap : s.counts counted < counted.cap)
      (hkind : kind.counted = some counted) (hrests : s.Rests kind) :
      Edit s [id] ((s₁.addObject id kind).bump counted)
  /-- A petition's five objects are minted, under the cap on petitions. -/
  | petition {s s₁ : PrincipalServer} {req : RequestGrant} (halloc : s.allocateIds req.ids = (s₁, .ok ()))
      (hcap : s.counts .petitions < Counted.petitions.cap) : Edit s req.ids (s₁.addPetition req)
  | resolve {s : PrincipalServer} {grant : WireId} (row : Option GrantId)
      (hpending : s.objects.get? grant = some (.grant .pending)) :
      Edit s [] (s.addObject grant (.grant (.resolved row)))
  | other {s s' : PrincipalServer} (hobjects : s'.objects = s.objects) (hcounts : s'.counts = s.counts)
      (hmark : s'.watermark = s.watermark) : Edit s [] s'

inductive Edits : PrincipalServer → List WireId → PrincipalServer → Prop
  | refl (s : PrincipalServer) : Edits s [] s
  | tail {s s' s'' : PrincipalServer} {ids ids' : List WireId} (h : Edits s ids s') (hedit : Edit s' ids' s'') :
      Edits s (ids ++ ids') s''

variable {s' : PrincipalServer}

theorem Edits.single (h : Edit s ids s') : Edits s ids s' := (Edits.refl s).tail h

variable {s'' : PrincipalServer}

theorem Edits.trans {i' : List WireId} (h : Edits s ids s') (h' : Edits s' i' s'') : Edits s (ids ++ i') s'' := by
  induction h' with
  | refl => rwa [List.append_nil]
  | tail _ he ih =>
    rw [← List.append_assoc]
    exact ih.tail he

/-! ### What an edit keeps -/

/-- The accepted ids lie above the watermark, in strictly increasing order, and the last is the new one. -/
theorem accepted_spec (s : PrincipalServer) (ids : List WireId) :
    (s.accepted ids).Pairwise (· < ·) ∧ s.watermark ≤ (s.allocateIds ids).1.watermark ∧
      ∀ id ∈ s.accepted ids, s.watermark < id ∧ id ≤ (s.allocateIds ids).1.watermark := by
  induction ids generalizing s with
  | nil => exact ⟨.nil, le_rfl, by simp [accepted]⟩
  | cons id ids ih =>
    cases ha : s.allocateId id with
    | error v => simp [accepted, allocateIds, ha]
    | ok s₁ =>
      obtain ⟨rfl, hi⟩ := allocateId_eq_ok ha
      obtain ⟨hp, hma, hm⟩ := ih { s with watermark := id }
      simp only [accepted, allocateIds, ha]
      refine ⟨List.pairwise_cons.mpr ⟨fun i' h' => (hm i' h').1, hp⟩, hi.le.trans hma, fun i' h' => ?_⟩
      rcases List.mem_cons.mp h' with rfl | h'
      · exact ⟨hi, hma⟩
      · exact ⟨hi.trans (hm i' h').1, (hm i' h').2⟩

variable {s₁ : PrincipalServer}

theorem accepted_of_ok (h : s.allocateIds ids = (s₁, .ok ())) : s.accepted ids = ids := by
  induction ids generalizing s with
  | nil => rfl
  | cons id ids ih =>
    cases ha : s.allocateId id with
    | error v => simp [allocateIds, ha] at h
    | ok s₂ =>
      simp only [allocateIds, ha] at h
      simp [accepted, ha, ih h]

theorem allocateIds_same (s : PrincipalServer) (ids : List WireId) :
    ∃ m, (s.allocateIds ids).1 = { s with watermark := m } := by
  obtain ⟨m, h, -⟩ := s.allocateIds_spec ids
  exact ⟨m, h⟩

theorem allocateIds_objects (s : PrincipalServer) (ids : List WireId) : (s.allocateIds ids).1.objects = s.objects := by
  obtain ⟨m, hs⟩ := s.allocateIds_same ids
  rw [hs]

variable {req : RequestGrant}

theorem present_addPetition :
    ((s.addPetition req).objects.get? id).isSome = true ↔ (s.objects.get? id).isSome = true ∨ id ∈ req.ids := by
  rw [get?_addPetition, ids]
  split_ifs with h₅ h₄ h₃ h₂ h₁
  all_goals simp [*]

theorem addPetition_watermark : (s.addPetition req).watermark = s.watermark := by
  simp [addPetition, bump, addObject]

/-- The ids an edit takes lie between the two watermarks, in strictly increasing order. -/
structure Takes (s : PrincipalServer) (ids : List WireId) (s' : PrincipalServer) : Prop where
  increasing : ids.Pairwise (· < ·)
  mark : s.watermark ≤ s'.watermark
  between : ∀ id ∈ ids, s.watermark < id ∧ id ≤ s'.watermark

theorem Edit.takes (h : Edit s ids s') : s.Takes ids s' := by
  cases h with
  | allocate =>
    obtain ⟨hp, hm, hme⟩ := s.accepted_spec _
    exact ⟨hp, hm, hme⟩
  | mint ha hc hk hr =>
    obtain ⟨rfl, hi⟩ := allocateId_eq_ok ha
    exact ⟨List.pairwise_singleton _ _, hi.le, by simp [hi, addObject, bump]⟩
  | @petition s₁ req ha hc =>
    obtain ⟨hp, hm, hme⟩ := s.accepted_spec req.ids
    rw [accepted_of_ok ha] at hp hme
    rw [ha] at hm hme
    refine ⟨hp, ?_, ?_⟩
    · rw [addPetition_watermark]
      exact hm
    · rw [addPetition_watermark]
      exact hme
  | resolve r hpe => exact ⟨.nil, le_rfl, by simp⟩
  | other hob hco hm => exact ⟨.nil, hm.ge, by simp⟩

theorem Edits.takes (h : Edits s ids s') : s.Takes ids s' := by
  induction h with
  | refl => exact ⟨.nil, le_rfl, by simp⟩
  | tail _ he ih =>
    have ht := he.takes
    refine ⟨List.pairwise_append.mpr ⟨ih.increasing, ht.increasing, fun id hi i' hi' => ?_⟩,
      ih.mark.trans ht.mark, fun id hi => ?_⟩
    · exact (ih.between id hi).2.trans_lt (ht.between i' hi').1
    · rcases List.mem_append.mp hi with hi | hi
      · exact ⟨(ih.between id hi).1, (ih.between id hi).2.trans ht.mark⟩
      · exact ⟨ih.mark.trans_lt (ht.between id hi).1, (ht.between id hi).2⟩

structure Table (s : PrincipalServer) : Prop where
  below : s.Below
  facets : ∀ id facet grant, s.objects.get? id = some (.facet facet grant) →
    ∃ state, s.objects.get? grant = some (.grant state)
  counted : ∀ counted, s.counts counted = s.objects.count fun _ kind => kind.counted = some counted
  capped : ∀ counted, s.counts counted ≤ counted.cap

theorem Table.new (p : PeerCred) (c : ConnectionId) : (PrincipalServer.new p c).Table where
  below := by simp [Below, PrincipalServer.new]
  facets := by simp [PrincipalServer.new]
  counted := by simp [PrincipalServer.new]
  capped := by simp [PrincipalServer.new]

theorem Below.free (h : s.Below) (hi : s.watermark < id) : s.objects.get? id = none := by
  cases hg : s.objects.get? id with
  | none => rfl
  | some kind => exact absurd (h id kind hg) (not_le.mpr hi)

/-- What stood in the table stays there, at most resolved. -/
def Keeps (s s' : PrincipalServer) : Prop :=
  ∀ id kind, s.objects.get? id = some kind → ∃ kind', s'.objects.get? id = some kind' ∧ kind.Ages kind'

theorem Keeps.trans (h : s.Keeps s') (h' : s'.Keeps s'') : s.Keeps s'' := by
  intro id kind hg
  obtain ⟨k', hg', ha⟩ := h id kind hg
  obtain ⟨k'', hg'', ha'⟩ := h' id k' hg'
  exact ⟨k'', hg'', ha.trans ha'⟩

theorem keeps_addObject (hf : s.objects.get? id = none) (kind : ObjectKind) : s.Keeps (s.addObject id kind) := by
  intro i' k' hg
  have hn : i' ≠ id := by
    rintro rfl
    cases hf.symm.trans hg
  exact ⟨k', by simpa [addObject, get?_insert_of_ne hn] using hg, .same k'⟩

variable {g : WireId}

theorem keeps_resolve (r : Option GrantId) (hp : s.objects.get? g = some (.grant .pending)) :
    s.Keeps (s.addObject g (.grant (.resolved r))) := by
  intro id kind hg
  by_cases hi : id = g
  · subst hi
    cases hg.symm.trans hp
    exact ⟨_, get?_insert_self, .resolved r⟩
  · exact ⟨kind, by simpa [addObject, get?_insert_of_ne hi] using hg, .same kind⟩

/-! ### A petition's objects -/

def addObjects (s : PrincipalServer) (l : List (WireId × ObjectKind)) : PrincipalServer :=
  l.foldl (fun s x => s.addObject x.1 x.2) s

def objectsOf (req : RequestGrant) : List (WireId × ObjectKind) :=
  [(req.grant, .grant .pending), (req.consent, .consent), (req.view, .facet .view req.grant),
    (req.pointer, .facet .pointer req.grant), (req.text, .facet .text req.grant)]

theorem addPetition_eq : s.addPetition req = (s.addObjects (objectsOf req)).bump .petitions := rfl

/-- Objects at free ids, no two at one. -/
structure Free (s : PrincipalServer) (l : List (WireId × ObjectKind)) : Prop where
  apart : l.Pairwise fun x y => x.1 ≠ y.1
  free : ∀ x ∈ l, s.objects.get? x.1 = none

variable {l : List (WireId × ObjectKind)}

theorem Free.tail {x : WireId × ObjectKind} (h : s.Free (x :: l)) : (s.addObject x.1 x.2).Free l where
  apart := (List.pairwise_cons.mp h.apart).2
  free y hy := by
    have hn : y.1 ≠ x.1 := ((List.pairwise_cons.mp h.apart).1 y hy).symm
    simpa [addObject, get?_insert_of_ne hn] using h.free y (.tail _ hy)

theorem Free.get? (h : s.Free l) :
    (s.addObjects l).objects.get? id = some kind ↔ s.objects.get? id = some kind ∨ (id, kind) ∈ l := by
  induction l generalizing s with
  | nil => simp [addObjects]
  | cons x l ih =>
    rw [show s.addObjects (x :: l) = (s.addObject x.1 x.2).addObjects l from rfl, ih h.tail, List.mem_cons]
    by_cases hi : id = x.1
    · subst hi
      simp [addObject, h.free x (.head _), Prod.ext_iff, eq_comm]
    · simp [addObject, get?_insert_of_ne hi, Prod.ext_iff, hi]

theorem Free.count (h : s.Free l) (p : WireId → ObjectKind → Bool) :
    (s.addObjects l).objects.count p = s.objects.count p + l.countP fun x => p x.1 x.2 := by
  induction l generalizing s with
  | nil => simp [addObjects]
  | cons x l ih =>
    rw [show s.addObjects (x :: l) = (s.addObject x.1 x.2).addObjects l from rfl, ih h.tail, List.countP_cons,
      addObject, count_insert_fresh (h.free x (.head _))]
    omega

theorem Below.free_petition (h : s.Below) (ha : s.allocateIds req.ids = (s₁, .ok ())) :
    s₁.objects = s.objects ∧ s₁.counts = s.counts ∧ s₁.Free (objectsOf req) := by
  obtain ⟨hp, -, hm⟩ := s.accepted_spec req.ids
  rw [accepted_of_ok ha] at hp hm
  obtain ⟨m, hs⟩ := s.allocateIds_same req.ids
  obtain rfl : s₁ = { s with watermark := m } := by rwa [ha] at hs
  have hk : (objectsOf req).map (·.1) = req.ids := rfl
  refine ⟨rfl, rfl, ?_, fun x hx => h.free (hm x.1 (hk ▸ List.mem_map_of_mem hx)).1⟩
  rw [← hk, List.pairwise_map] at hp
  exact hp.imp fun hl => hl.ne

/-! ### The invariant -/

theorem Edit.keeps (hb : s.Below) (h : Edit s ids s') : s.Keeps s' := by
  cases h with
  | allocate =>
    obtain ⟨m, hs⟩ := s.allocateIds_same _
    rw [hs]
    exact fun id kind hg => ⟨kind, hg, .same kind⟩
  | mint ha hc hk hr =>
    obtain ⟨rfl, hi⟩ := allocateId_eq_ok ha
    exact keeps_addObject (s := { s with watermark := _ }) (hb.free hi) _
  | @petition s₁ req ha hc =>
    obtain ⟨hob, -, hf⟩ := hb.free_petition ha
    exact fun id kind hg => ⟨kind, hf.get?.mpr (.inl (hob ▸ hg)), .same kind⟩
  | resolve r hp => exact keeps_resolve r hp
  | other hob hco hm => exact fun id kind hg => ⟨kind, hob ▸ hg, .same kind⟩

theorem Edit.new (hb : s.Below) (h : Edit s ids s') (hg : s'.objects.get? id = some kind) :
    (∃ kind, s.objects.get? id = some kind) ∨ id ∈ ids := by
  cases h with
  | allocate =>
    obtain ⟨m, hs⟩ := s.allocateIds_same _
    rw [hs] at hg
    exact .inl ⟨kind, hg⟩
  | @mint s₁ i' k' co ha hc hk hr =>
    obtain ⟨rfl, -⟩ := allocateId_eq_ok ha
    by_cases hi : id = i'
    · exact .inr (hi ▸ List.mem_singleton_self _)
    · exact .inl ⟨kind, by simpa [addObject, bump, get?_insert_of_ne hi] using hg⟩
  | @petition s₁ req ha hc =>
    obtain ⟨hob, -, hf⟩ := hb.free_petition ha
    rcases hf.get?.mp hg with hg | hm
    · exact .inl ⟨kind, hob ▸ hg⟩
    · exact .inr (List.mem_map_of_mem (f := (·.1)) hm)
  | @resolve g r hp =>
    by_cases hi : id = g
    · exact .inl ⟨_, hi ▸ hp⟩
    · exact .inl ⟨kind, by simpa [addObject, get?_insert_of_ne hi] using hg⟩
  | other hob hco hma => exact .inl ⟨kind, hob ▸ hg⟩

theorem Edit.below (hb : s.Below) (h : Edit s ids s') : s'.Below := by
  intro id kind hg
  rcases h.new hb hg with ⟨k', hg'⟩ | hm
  · exact (hb id k' hg').trans h.takes.mark
  · exact (h.takes.between id hm).2

theorem Keeps.rests (h : s.Keeps s') (hr : s.Rests kind) : s'.Rests kind := by
  cases kind with
  | facet f g =>
    obtain ⟨st, hg⟩ := hr
    obtain ⟨k', hg', ha⟩ := h g _ hg
    cases ha with
    | same => exact ⟨st, hg'⟩
    | resolved r => exact ⟨_, hg'⟩
  | _ => exact trivial

theorem Edit.facets (ht : s.Table) (h : Edit s ids s') {f : Facet}
    (hg : s'.objects.get? id = some (.facet f g)) : s'.Rests (.facet f g) := by
  have hk := h.keeps ht.below
  have hold : s.objects.get? id = some (.facet f g) → s'.Rests (.facet f g) :=
    fun hg => hk.rests (ht.facets id f g hg)
  cases h with
  | allocate =>
    obtain ⟨m, hs⟩ := s.allocateIds_same _
    rw [hs] at hg
    exact hold hg
  | @mint s₁ i' k' co ha hc hki hr =>
    obtain ⟨rfl, -⟩ := allocateId_eq_ok ha
    by_cases hi : id = i'
    · subst hi
      obtain rfl : k' = .facet f g := by simpa [addObject, bump] using hg
      exact hk.rests hr
    · exact hold (by simpa [addObject, bump, get?_insert_of_ne hi] using hg)
  | @petition s₁ req ha hc =>
    obtain ⟨hob, -, hf⟩ := ht.below.free_petition ha
    rcases hf.get?.mp hg with hg | hm
    · exact hold (hob ▸ hg)
    · have hgr : g = req.grant := by
        simp only [objectsOf, List.mem_cons, Prod.mk.injEq, reduceCtorEq, and_false, ObjectKind.facet.injEq,
          List.not_mem_nil, or_false, false_or] at hm
        rcases hm with ⟨-, -, h⟩ | ⟨-, -, h⟩ | ⟨-, -, h⟩ <;> exact h
      exact ⟨.pending, hgr ▸ hf.get?.mpr (.inr (.head _))⟩
  | @resolve g' r hp =>
    by_cases hi : id = g'
    · subst hi
      simp [addObject] at hg
    · exact hold (by simpa [addObject, get?_insert_of_ne hi] using hg)
  | other hob hco hma => exact hold (hob ▸ hg)

theorem count_resolve (r : Option GrantId) (hp : s.objects.get? g = some (.grant .pending)) (co : Counted) :
    (s.addObject g (.grant (.resolved r))).objects.count (fun _ kind => kind.counted = some co) =
      s.objects.count fun _ kind => kind.counted = some co := by
  have hn : ((s.addObject g (.grant (.resolved r))).objects.get? g) = some (.grant (.resolved r)) := get?_insert_self
  have he : (s.addObject g (.grant (.resolved r))).objects.erase g = s.objects.erase g := by
    refine ext_get? fun id => ?_
    rw [get?_erase, get?_erase]
    split_ifs with hi
    · rfl
    · exact get?_insert_of_ne hi
  have h₁ := count_erase_add hn fun _ kind => kind.counted = some co
  have h₂ := count_erase_add hp fun _ kind => kind.counted = some co
  rw [he] at h₁
  exact h₁.symm.trans h₂

theorem Edit.counted (ht : s.Table) (h : Edit s ids s') (co : Counted) :
    s'.counts co = s'.objects.count (fun _ kind => kind.counted = some co) ∧
      s'.counts co ≤ co.cap := by
  have hco := ht.counted co
  have hc := ht.capped co
  cases h with
  | allocate =>
    obtain ⟨m, hs⟩ := s.allocateIds_same _
    rw [hs]
    exact ⟨hco, hc⟩
  | @mint s₁ id kind c' ha hca hk hr =>
    obtain ⟨rfl, hi⟩ := allocateId_eq_ok ha
    have hcou := count_insert_fresh (ht.below.free hi) kind fun _ kind => kind.counted = some co
    simp only [addObject, bump, hcou, hk, decide_eq_true_eq]
    by_cases hs : c' = co
    · subst hs
      simp only [Function.update_self, if_true]
      omega
    · simpa [Function.update_of_ne (Ne.symm hs), hs] using ⟨hco, hc⟩
  | @petition s₁ req ha hca =>
    obtain ⟨hob, hcoun, hf⟩ := ht.below.free_petition ha
    have hcou := hf.count fun _ kind => kind.counted = some co
    have hs : (s₁.addObjects (objectsOf req)).counts = s.counts := hcoun
    rw [addPetition_eq]
    simp only [bump, hcou, hs, hob, ← hco]
    -- of the five objects a petition adds, one is counted: the handle, as a petition
    cases co with
    | petitions =>
      have hon : (objectsOf req).countP (fun x => x.2.counted = some .petitions) = 1 := rfl
      simp only [Function.update_self, hon]
      exact ⟨trivial, hca⟩
    | _ => exact ⟨rfl, hc⟩
  | resolve r hp => exact ⟨hco.trans (count_resolve r hp co).symm, hc⟩
  | other hob hcoun hm =>
    rw [hob, hcoun]
    exact ⟨hco, hc⟩

theorem Edit.table (ht : s.Table) (h : Edit s ids s') : s'.Table where
  below := h.below ht.below
  facets _ _ _ hg := h.facets ht hg
  counted counted := (h.counted ht counted).1
  capped counted := (h.counted ht counted).2

variable (h : Edits s ids s')

include h

variable (ht : s.Table)

include ht

theorem Edits.table : s'.Table := by
  induction h with
  | refl => exact ht
  | tail _ he ih => exact he.table ih

theorem Edits.keeps : s.Keeps s' := by
  induction h with
  | refl => exact fun id kind hg => ⟨kind, hg, .same kind⟩
  | tail hed he ih => exact ih.trans (he.keeps (hed.table ht).below)

theorem Edits.new (hg : s'.objects.get? id = some kind) : (∃ kind, s.objects.get? id = some kind) ∨ id ∈ ids := by
  induction h generalizing kind with
  | refl => exact .inl ⟨kind, hg⟩
  | tail hed he ih =>
    rcases he.new (hed.table ht).below hg with ⟨k', hg'⟩ | hm
    · exact (ih hg').imp_right (List.mem_append_left _)
    · exact .inr (List.mem_append_right _ hm)

end PrincipalServer

open PrincipalServer

/-! ### What a turn does to the table -/

variable {c : Counted} {decoded : Except PrincipalViolation (WireId × ObjectKind)} {o : WireId}
  {re : PetitionRequest}

namespace Turn

variable {t t' : Turn} {ctx : ServerCtx} {msg : Message}

def Edits (t t' : Turn) : Prop := ∃ ids, t.server.Edits ids t'.server

theorem Edits.refl (t : Turn) : t.Edits t := ⟨[], .refl _⟩

theorem Edits.trans {t t' t'' : Turn} (h : t.Edits t') (h' : t'.Edits t'') : t.Edits t'' := by
  obtain ⟨ids, hi⟩ := h
  obtain ⟨i', hi'⟩ := h'
  exact ⟨ids ++ i', hi.trans hi'⟩

theorem Edits.of_edit (h : Edit t.server ids t'.server) : t.Edits t' := ⟨ids, .single h⟩

theorem Edits.of_same (hob : t'.server.objects = t.server.objects) (hc : t'.server.counts = t.server.counts)
    (hm : t'.server.watermark = t.server.watermark) : t.Edits t' :=
  .of_edit (.other hob hc hm)

theorem edits_allocateId {server : PrincipalServer} (h : t.server.allocateId id = .ok server) :
    t.Edits { t with server } := by
  have he := Edit.allocate t.server [id]
  simp only [allocateIds, h] at he
  exact .of_edit he

theorem mintObject_edits (hk : ∀ id kind, decoded = .ok (id, kind) → kind.counted = some c ∧ t.server.Rests kind) :
    t.Edits (t.mintObject c decoded).1 := by
  cases decoded with
  | error v => exact .refl t
  | ok o =>
    obtain ⟨id, kind⟩ := o
    simp only [mintObject]
    split
    · exact .refl t
    · rename_i hc
      cases ha : t.server.allocateId id with
      | error v => exact .refl t
      | ok se =>
        obtain ⟨hco, hr⟩ := hk id kind rfl
        exact .of_edit (.mint ha (not_le.mp hc) hco hr)

theorem handleGetRealm_edits : t.Edits (t.handleGetRealm msg).1 := by
  refine mintObject_edits fun id kind h => ?_
  cases hr : msg.read .getRealm with
  | error v =>
    rw [hr] at h
    cases h
  | ok a =>
    rw [hr] at h
    cases h
    exact ⟨rfl, trivial⟩

theorem getFacet_edits {f : Facet} {decoded : Except PrincipalViolation WireId}
    (hf : (ObjectKind.facet f msg.objectId).counted = some c) {st : GrantHandleState}
    (hob : t.server.objects.get? msg.objectId = some (.grant st)) :
    t.Edits (t.mintObject c (decoded.map fun id => (id, .facet f msg.objectId))).1 := by
  refine mintObject_edits fun id kind h => ?_
  cases decoded with
  | error v => cases h
  | ok i' =>
    cases h
    exact ⟨hf, st, hob⟩

theorem handleHello_edits : t.Edits (t.handleHello ctx msg).1 := by
  unfold handleHello
  split
  · exact .refl t
  · rename_i hello _
    split
    · exact .refl t
    · split
      · exact .refl t
      · rename_i server ha
        refine (edits_allocateId ha).trans ?_
        simp only
        split
        · unfold bindTo
          split
          · rename_i t' fault hs
            obtain rfl := congrArg Prod.fst hs
            exact .of_same rfl rfl rfl
          · rename_i t' hs
            obtain rfl := congrArg Prod.fst hs
            exact .of_same rfl rfl rfl
        · exact .refl _
        · exact .refl _

theorem deliverResolution_edits (t : Turn) (r : Resolution) (now : Instant) :
    t.Edits (t.deliverResolution r now).1 := by
  rcases t.deliverResolution_cases r now with ⟨p, w, -, he⟩ | ⟨ha, hs⟩
  · rw [he]
    exact .of_same rfl rfl rfl
  · generalize (t.deliverResolution r now).1 = t' at hs
    cases hs with
    | granted | declined => exact .of_edit (.resolve _ ha.pending)

theorem petition_edits {t : Turn} : t.Edits (t.petition ctx o re).1 := by
  unfold petition
  split
  · exact .of_same rfl rfl rfl
  · exact deliverResolution_edits { t with petitions := (t.admitted ctx re).1 } _ ctx.now

theorem handleRequestGrant_edits (r : String) : t.Edits (t.handleRequestGrant ctx msg r).1 := by
  unfold handleRequestGrant
  split
  · exact .refl t
  · rename_i a _
    split
    · exact .refl t
    · split
      · exact .refl t
      · rename_i hc
        have ht : t.Edits { t with server := (t.server.takePetitionToken ctx.now).1 } := .of_same rfl rfl rfl
        simp only
        split
        · exact ht
        · split
          · rename_i se v ha
            obtain rfl : _ = se := congrArg Prod.fst ha
            exact ht.trans (.of_edit (.allocate _ _))
          · rename_i se _ ha
            have had : t.Edits { t with server := se.addPetition a } :=
              ht.trans (.of_edit (.petition ha (not_le.mp hc)))
            split
            · exact had
            · exact had.trans petition_edits

theorem serveFacetUse_edits {f gr : WireId} {kind : UseKind} : t.Edits (t.serveFacetUse ctx f gr kind).1 := by
  unfold serveFacetUse
  split
  · exact .refl t
  · exact .of_same rfl rfl rfl

theorem dispatchObject_edits (hob : t.server.objects.get? msg.objectId = some kind) :
    t.Edits (t.dispatchObject ctx msg kind).1 := by
  cases kind with
  | realm n =>
    simp only [dispatchObject]
    split
    · exact handleRequestGrant_edits n
    · exact .refl t
  | grant st =>
    simp only [dispatchObject]
    split_ifs
    iterate 5 exact getFacet_edits rfl hob
    exact .refl t
  | consent => exact .refl t
  | facet f gr =>
    simp only [dispatchObject]
    split
    · exact .refl t
    · exact serveFacetUse_edits

theorem dispatch_edits : t.Edits (t.dispatch ctx msg).1 := by
  unfold dispatch
  split
  · exact .refl t
  · split
    · exact handleHello_edits
    · exact .refl t
  · split_ifs
    · unfold dispatchHandshake
      split_ifs
      · exact .refl t
      · split
        · exact .refl t
        · exact .of_same rfl rfl rfl
      · exact .refl t
    · exact handleGetRealm_edits
    · exact .refl t
    · split
      · rename_i kind hob
        exact dispatchObject_edits hob
      · exact .refl t

theorem goodbye_objects (t : Turn) (f : PrincipalFault) : (t.goodbye f).server = { t.server with phase := .dead } := by
  cases f with
  | transport e => rfl
  | violation v =>
    simp only [goodbye]
    split <;> rfl

/-- **Serving a message edits the table.** -/
theorem handleMessage_edits : t.Edits (t.handleMessage ctx msg).1 := by
  have hd : t.Edits (t.dispatch ctx msg).1 := dispatch_edits
  unfold handleMessage
  split
  · rename_i t' _ h
    exact congrArg Prod.fst h ▸ hd
  · rename_i t' f h
    have hg := t'.goodbye_objects f
    have hs : t'.Edits (t'.goodbye f) := .of_same (by rw [hg]) (by rw [hg]) (by rw [hg])
    exact (congrArg Prod.fst h ▸ hd).trans hs

/-! ### What a fault leaves behind -/

theorem handleHello_objects : (t.handleHello ctx msg).1.server.objects = t.server.objects := by
  unfold handleHello
  split
  · rfl
  · split
    · rfl
    · split
      · rfl
      · rename_i se ha
        obtain ⟨rfl, -⟩ := allocateId_eq_ok ha
        simp only
        split
        · unfold bindTo
          split
          · rename_i t' f hs
            obtain rfl := congrArg Prod.fst hs
            rfl
          · rename_i t' hs
            obtain rfl := congrArg Prod.fst hs
            rfl
        · rfl
        · rfl

theorem serveFacetUse_objects {f gr : WireId} {kind : UseKind} :
    (t.serveFacetUse ctx f gr kind).1.server.objects = t.server.objects := by
  unfold serveFacetUse
  split <;> rfl

theorem dispatchHandshake_objects : (t.dispatchHandshake msg).1.server.objects = t.server.objects := by
  unfold dispatchHandshake
  split_ifs
  · rfl
  · split <;> rfl
  · rfl

end Turn

/-- The fault is none of the client's making: a frame could not be sent, or the server failed. -/
def PrincipalFault.ServerSide : PrincipalFault → Prop
  | .transport _ => True
  | .violation (.serverError _ _) => True
  | .violation _ => False

/-- The message is a petition whose five ids were accepted, and its five objects are in the table. -/
structure Message.Leaves (msg : Message) (s s' : PrincipalServer) (req : RequestGrant) : Prop where
  decoded : msg.decode .requestGrant = .ok req
  increasing : req.ids.Pairwise (· < ·)
  fresh : ∀ id ∈ req.ids, s.watermark < id
  objects : ∀ id, (s'.objects.get? id).isSome = true ↔ (s.objects.get? id).isSome = true ∨ id ∈ req.ids

namespace Turn

variable {t t' : Turn} {ctx : ServerCtx} {msg : Message}

theorem deliverResolution_present (t : Turn) (r : Resolution) (now : Instant) (id : WireId) :
    ((t.deliverResolution r now).1.server.objects.get? id).isSome = (t.server.objects.get? id).isSome := by
  have ha : ∀ ro, t.server.objects.get? r.grantWireId = some (.grant .pending) →
      ((t.server.addObject r.grantWireId (.grant (.resolved ro))).objects.get? id).isSome =
        (t.server.objects.get? id).isSome := by
    intro ro hp
    by_cases hi : id = r.grantWireId
    · subst hi
      simp [addObject, hp]
    · simp [addObject, get?_insert_of_ne hi]
  rcases t.deliverResolution_cases r now with ⟨p, w, -, he⟩ | ⟨haw, hs⟩
  · rw [he]
  · generalize (t.deliverResolution r now).1 = t' at hs
    cases hs with
    | granted | declined => exact ha _ haw.pending

theorem petition_present {t : Turn} (id : WireId) :
    ((t.petition ctx o re).1.server.objects.get? id).isSome = (t.server.objects.get? id).isSome := by
  unfold petition
  split
  · rfl
  · exact deliverResolution_present { t with petitions := (t.admitted ctx re).1 } _ ctx.now id

theorem petition_fault {f : PrincipalFault} (h : (t.petition ctx o re).2 = .error f) : f.ServerSide := by
  unfold petition at h
  split at h
  · unfold send at h
    cases hs : (emit { t with petitions := (t.admitted ctx re).1 }
        (.consentState re.consentWireId .queued)).2 with
    | ok u => simp [hs, Except.mapError] at h
    | error e =>
      simp only [hs, Except.mapError, Except.error.injEq] at h
      exact h ▸ trivial
  · rename_i r _
    cases hd : (deliverResolution { t with petitions := (t.admitted ctx re).1 } r ctx.now).2 with
    | ok u => simp [hd, Except.mapError] at h
    | error e =>
      simp only [hd, Except.mapError, Except.error.injEq] at h
      cases e <;> exact h ▸ trivial

/-- If the answer is a fault, no object was added, or a petition's five were and the fault is none of the
client's making. -/
def Clean (msg : Message) (s : PrincipalServer) (x : Turn × Except PrincipalFault Unit) : Prop :=
  ∀ fault, x.2 = .error fault →
    x.1.server.objects = s.objects ∨ fault.ServerSide ∧ ∃ req, msg.Leaves s x.1.server req

theorem Clean.of_objects {x : Turn × Except PrincipalFault Unit} (h : x.1.server.objects = s.objects) : Clean msg s x :=
  fun _ _ => .inl h

theorem mintObject_clean : Clean msg t.server (t.mintObject c decoded) := by
  unfold mintObject
  split
  · exact .of_objects rfl
  · split
    · exact .of_objects rfl
    · split
      · exact .of_objects rfl
      · exact fun f h => nomatch h

theorem handleRequestGrant_clean (r : String) : Clean msg t.server (t.handleRequestGrant ctx msg r) := by
  unfold handleRequestGrant
  split
  · exact .of_objects rfl
  · rename_i a hr
    split
    · exact .of_objects rfl
    · split
      · exact .of_objects rfl
      · simp only
        split
        · exact .of_objects rfl
        · split
          · rename_i se v ha
            obtain rfl : _ = se := congrArg Prod.fst ha
            exact .of_objects (allocateIds_objects _ _)
          · rename_i se _ ha
            -- from here on the petition's objects are in the table
            have hl : ∀ {t' : Turn}, (∀ id, (t'.server.objects.get? id).isSome =
                ((se.addPetition a).objects.get? id).isSome) → msg.Leaves t.server t'.server a := by
              intro t' hpr
              have ha' : (t.server.takePetitionToken ctx.now).1.allocateIds (ids a) = (se, .ok ()) := ha
              obtain ⟨hp, -, hf⟩ := (t.server.takePetitionToken ctx.now).1.accepted_spec (ids a)
              have hs := allocateIds_objects (t.server.takePetitionToken ctx.now).1 (ids a)
              rw [accepted_of_ok ha'] at hp hf
              rw [ha'] at hs
              refine ⟨Message.read_eq_ok hr, hp, fun id hi => (hf id hi).1, fun id => ?_⟩
              rw [hpr, present_addPetition, hs]
              exact Iff.rfl
            split
            · exact fun f h => .inr ⟨by cases h; trivial, a, hl fun _ => rfl⟩
            · exact fun f h => .inr ⟨petition_fault h, a, hl fun id => petition_present id⟩

theorem dispatchObject_clean {kind : ObjectKind} : Clean msg t.server (t.dispatchObject ctx msg kind) := by
  cases kind with
  | realm n =>
    simp only [dispatchObject]
    split
    · exact handleRequestGrant_clean n
    · exact .of_objects rfl
  | grant st =>
    simp only [dispatchObject]
    split_ifs
    iterate 5 exact mintObject_clean
    exact .of_objects rfl
  | consent => exact .of_objects rfl
  | facet f gr =>
    simp only [dispatchObject]
    split
    · exact .of_objects rfl
    · exact .of_objects serveFacetUse_objects

theorem dispatch_clean : Clean msg t.server (t.dispatch ctx msg) := by
  unfold dispatch
  split
  · exact .of_objects rfl
  · split
    · exact .of_objects handleHello_objects
    · exact .of_objects rfl
  · split_ifs
    · exact .of_objects dispatchHandshake_objects
    · exact mintObject_clean
    · exact .of_objects rfl
    · split
      · exact dispatchObject_clean
      · exact .of_objects rfl

/-- **A fault leaves a table that has no new object, or all five of a petition.** -/
theorem handleMessage_clean : Clean msg t.server (t.handleMessage ctx msg) := by
  have hd : Clean msg t.server (t.dispatch ctx msg) := dispatch_clean
  unfold handleMessage
  split
  · exact fun f h => nomatch h
  · rename_i t' f h
    intro f' he
    cases he
    have hg : (t'.goodbye f).server.objects = t'.server.objects := by rw [goodbye_objects]
    rw [h] at hd
    rcases hd f rfl with hs | ⟨hsi, req, hl⟩
    · exact .inl (hg.trans hs)
    · exact .inr ⟨hsi, req, { hl with objects := fun id => by rw [hg]; exact hl.objects id }⟩

end Turn

/-! ### The connection -/

/-- What a turn on the connection finds around it: the stores it shares with the others, and the transport. -/
structure Around where
  petitions : PetitionRegistry
  grants : GrantTable
  attention : AttentionSignal
  wire : Wire

def Around.turn (a : Around) (server : PrincipalServer) : Turn :=
  ⟨server, a.petitions, a.grants, a.attention, a.wire, []⟩

/-- Something that happens on one connection. -/
inductive TableOp where
  | message (around : Around) (ctx : ServerCtx) (msg : Message)
  | deliver (around : Around) (resolution : Resolution) (now : Instant)

/-- One connection's server, and the fault a message was answered with. -/
def tableStep : Machine PrincipalServer TableOp (Option PrincipalFault) := fun s op => match op with
  | .message around ctx msg =>
    let served := (around.turn s).handleMessage ctx msg
    (served.1.server, match served.2 with
      | .error fault => some fault
      | .ok _ => none)
  | .deliver around resolution now => (((around.turn s).deliverResolution resolution now).1.server, none)

theorem tableStep_edits (s : PrincipalServer) (op : TableOp) : ∃ ids, s.Edits ids (tableStep s op).1 := by
  cases op with
  | message a ctx msg => exact Turn.handleMessage_edits (t := a.turn s)
  | deliver a r now => exact (a.turn s).deliverResolution_edits r now

theorem table_edits (s : PrincipalServer) (ops : List TableOp) : ∃ ids, s.Edits ids (tableStep.exec s ops) := by
  induction ops generalizing s with
  | nil => exact ⟨[], .refl s⟩
  | cons op ops ih =>
    obtain ⟨ids, hi⟩ := tableStep_edits s op
    obtain ⟨i', hi'⟩ := ih (tableStep s op).1
    exact ⟨ids ++ i', hi.trans hi'⟩

/-- **The object table.** On every connection, after any messages and delivered resolutions:

* the ids `allocate_id` accepted, and those it accepts later, are strictly increasing, and every object stands at
  one of them;
* an object that is there stays what it is, whatever happens later, but that a pending handle is resolved;
* a facet's handle is in the table;
* each count is the number of objects it counts, and within its cap;
* a message that is answered with a fault leaves no new object behind, or it is a petition that was put in order
  and failed on the server's side, and then its five objects are there. -/
theorem object_table (peer : PeerCred) (connection : ConnectionId) (ops more : List TableOp) :
    let start := PrincipalServer.new peer connection
    let s := tableStep.exec start ops
    (∃ ids la, start.Edits ids s ∧ s.Edits la (tableStep.exec s more) ∧ (ids ++ la).Pairwise (· < ·) ∧
      ∀ id kind, s.objects.get? id = some kind → id ∈ ids) ∧
    s.Keeps (tableStep.exec s more) ∧
    (∀ id fa gr, s.objects.get? id = some (.facet fa gr) →
      ∃ st, s.objects.get? gr = some (.grant st)) ∧
    (∀ c, s.counts c = s.objects.count (fun _ kind => kind.counted = some c) ∧
      s.counts c ≤ c.cap) ∧
    (∀ a ctx msg f, (tableStep s (.message a ctx msg)).2 = some f →
      (tableStep s (.message a ctx msg)).1.objects = s.objects ∨
      f.ServerSide ∧ ∃ req, msg.Leaves s (tableStep s (.message a ctx msg)).1 req) := by
  intro start s
  obtain ⟨ids, hi⟩ := table_edits start ops
  obtain ⟨la, hl⟩ := table_edits s more
  have hs : start.Table := .new peer connection
  have ht : s.Table := hi.table hs
  refine ⟨⟨ids, la, hi, hl, (hi.trans hl).takes.increasing, fun id kind hg => ?_⟩,
    hl.keeps ht, ht.facets, fun c => ⟨ht.counted c, ht.capped c⟩,
    fun a ctx msg f hf => ?_⟩
  · rcases hi.new hs hg with ⟨k', hg'⟩ | hm
    · simp [start, PrincipalServer.new] at hg'
    · exact hm
  · have hc : Turn.Clean msg s ((a.turn s).handleMessage ctx msg) := Turn.handleMessage_clean
    simp only [tableStep] at hf ⊢
    split at hf
    · rename_i f' hr
      exact hc f (Option.some.inj hf ▸ hr)
    · cases hf

namespace Sample

/-- The stores as a connection finds them that is alone, and how its sends turn out. -/
def around (script : List (Option TransportError)) : Around where
  petitions := .new .interactive .default
  grants := .new
  attention := .new .super
  wire := ⟨script, []⟩

/-- The sample agent says hello and names its realm. -/
def introduced : PrincipalServer :=
  tableStep.exec (.new ⟨none, 1000, 1000⟩ 1)
    [.message (around []) ctx hello, .message (around []) ctx getRealm]

/-- It petitions, and cannot be told that its petition is queued. -/
def unheard : TableOp := .message (around [some ⟨"broken pipe"⟩]) ctx requestGrant

end Sample

open Sample in
/-- A petition that is answered with a fault, and its objects. -/
theorem petition_left_behind : (tableStep introduced unheard).2 = some (.transport ⟨"broken pipe"⟩) ∧
    introduced.objects.get? 4 = none ∧ introduced.objects.get? 8 = none ∧
    (tableStep introduced unheard).1.objects.get? 4 = some (.grant .pending) ∧
    (tableStep introduced unheard).1.objects.get? 8 = some (.facet .text 4) := by
  decide

open Sample in
/-- The sample agent's handle is the one petition on its connection, and its facets rest on it. -/
theorem object_table_petition : let s := (tableStep introduced unheard).1
    s.counts .petitions = 1 ∧ s.objects.count (fun _ kind => kind.counted = some .petitions) = 1 ∧
    ∃ st, s.objects.get? 4 = some (.grant st) := by
  intro s
  obtain ⟨-, -, hf, hco, -⟩ := object_table ⟨none, 1000, 1000⟩ 1
    [.message (around []) ctx hello, .message (around []) ctx getRealm, unheard] []
  have hc : s.counts .petitions = 1 := by decide
  exact ⟨hc, (hco .petitions).1.symm.trans hc, hf 8 .text 4 (by decide)⟩

end Vitrin
