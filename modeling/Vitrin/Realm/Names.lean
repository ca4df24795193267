import Vitrin.Config.RealmFile
import Vitrin.Realm.Lifecycle

/-!
# Names of realms

Two authorities name realms: the realm file declares templates, and the core numbers the
instances it launches from them. All of them share one flat directory, in which each realm
takes two names and the core two more.

`mintInstance` makes the id of an instance from the declared realm behind its template and
a counter of 64 bits that saturates. An id of this kind exists only if it was made this way,
so the machine `namesStep` remembers those made, and inserts and removes only them.

An instance's name is read back by its last dot (`instanceId_inj`), and the rule for
declared ids refuses whatever would be read as one (`disjoint_instance`). From the two
facts the names of everything that was ever declared or made are pairwise different
(`runtime_names_disjoint`).
-/

namespace Vitrin

open Lib
open Nat (toDigits)

/-! ### Instances -/

def instanceId (root : RealmId) (n : Nat) : RealmId := ⟨root.name ++ "." ++ toString n⟩

namespace RealmBook

/-- The id of a new instance, if the realm it is launched from is known. -/
def mintInstance (b : RealmBook) (template : RealmId) : RealmBook × Option RealmId :=
  match b.realms.get? template with
  | none => (b, none)
  | some realm =>
    ({ b with nextInstance := min (b.nextInstance + 1) (2 ^ 64 - 1) },
      some (instanceId realm.templateRoot b.nextInstance))

def instanceOf (b : RealmBook) (template id : RealmId) : Option BookRealm :=
  (b.realms.get? template).map fun parent => ⟨id, parent.spawn, .configured, some parent.templateRoot⟩

variable {b : RealmBook}

theorem instanceOf_eq_some {t id : RealmId} {r : BookRealm} (h : b.instanceOf t id = some r) :
    r.id = id ∧ ∃ p, b.realms.get? t = some p ∧ r.templateRoot = p.templateRoot := by
  obtain ⟨p, hp, rfl⟩ := Option.map_eq_some_iff.1 h
  exact ⟨rfl, p, hp, rfl⟩

def insertInstance (b : RealmBook) (template id : RealmId) : RealmBook × Bool :=
  match hrealm : b.instanceOf template id with
  | none => (b, false)
  | some realm =>
    ({ b with
        realms := b.realms.insert id realm
        keyed := by
          intro id' r h
          rw [OrdMap.get?_insert] at h
          split at h
          · rename_i hid
            cases h
            exact (instanceOf_eq_some hrealm).1.trans hid.symm
          · exact b.keyed id' r h }, true)

def removeInstance (b : RealmBook) (id : RealmId) : RealmBook :=
  { b with
    realms := b.realms.erase id
    keyed := fun id' r h => b.keyed id' r (OrdMap.get?_erase_eq_some.1 h).2 }

/-- Set a realm's state (`mark_running`, `mark_exited`). -/
def mark (b : RealmBook) (id : RealmId) (state : RealmState) : RealmBook :=
  { b with
    realms := b.realms.modify id fun r => { r with state }
    keyed := by
      intro id' r h
      rw [OrdMap.get?_modify] at h
      split at h
      · obtain ⟨r', hr', rfl⟩ := Option.map_eq_some_iff.1 h
        exact b.keyed id' r' hr'
      · exact b.keyed id' r h }

end RealmBook

/-! ### The machine -/

/-- The registry, and the ids that were made. -/
structure NamesRun where
  book : RealmBook
  minted : List RealmId

/-- An operation on the registry; an id that was made is given by when it was. -/
inductive NamesOp where
  | mintInstance (template : RealmId)
  | insertInstance (template : RealmId) (which : Nat)
  | removeInstance (which : Nat)
  | mark (id : RealmId) (state : RealmState)

def namesStep : Machine NamesRun NamesOp Unit := fun s op => (match op with
  | .mintInstance template =>
    let made := s.book.mintInstance template
    ⟨made.1, s.minted ++ made.2.toList⟩
  | .insertInstance template which => match s.minted[which]? with
    | some id => { s with book := (s.book.insertInstance template id).1 }
    | none => s
  | .removeInstance which => match s.minted[which]? with
    | some id => { s with book := s.book.removeInstance id }
    | none => s
  | .mark id state => { s with book := s.book.mark id state }, ())

/-! ### Reading names -/

theorem chars_instanceId {root : RealmId} {n : Nat} :
    (instanceId root n).chars = root.chars ++ '.' :: toDigits 10 n := by
  simp [instanceId, RealmId.chars]

variable {n : Nat}

theorem isDigit_of_mem_toDigits {c : Char} (h : c ∈ toDigits 10 n) : c.isDigit = true :=
  Nat.isDigit_of_mem_toDigits (by decide) (by decide) h

theorem dot_not_mem_toDigits (n : Nat) : '.' ∉ toDigits 10 n := by
  intro h
  exact absurd (isDigit_of_mem_toDigits h) (by decide)

variable {n' : Nat}

theorem toDigits_inj (h : toDigits 10 n = toDigits 10 n') : n = n' := by
  have hr := congrArg (fun ds => Nat.ofDigitChars 10 ds 0) h
  simpa only [Nat.ofDigitChars_ten_toDigits] using hr

variable {root : RealmId}

theorem instanceId_inj {r' : RealmId} (h : instanceId root n = instanceId r' n') : root = r' ∧ n = n' := by
  have hc := congrArg RealmId.chars h
  rw [chars_instanceId, chars_instanceId] at hc
  obtain ⟨hr, hd⟩ := append_sep_inj (dot_not_mem_toDigits n) (dot_not_mem_toDigits n') hc
  exact ⟨RealmId.chars_injective hr, toDigits_inj hd⟩

theorem chars_instanceId_ne_lock (root : RealmId) (n : Nat) (id : List Char) :
    (instanceId root n).chars ≠ id ++ lockSuffix := by
  rw [chars_instanceId]
  intro h
  obtain ⟨-, hd⟩ := append_sep_inj (dot_not_mem_toDigits n) (by decide) h
  have hl : 'l' ∈ toDigits 10 n := hd ▸ (.head _)
  exact absurd (isDigit_of_mem_toDigits hl) (by decide)

variable {id : List Char}

/-- The rule for declared ids sees an instance's name under an id. -/
theorem looksLikeAnInstanceId_of_stem (hr : root.chars ≠ [])
    (h : (id.dropSuffix? lockSuffix).getD id = (instanceId root n).chars) : looksLikeAnInstanceId id = true := by
  rw [looksLikeAnInstanceId, h, chars_instanceId, rsplitOnce_append _ (dot_not_mem_toDigits n)]
  simp only [Bool.and_eq_true, Bool.not_eq_true', List.isEmpty_eq_false_iff, List.all_eq_true]
  exact ⟨⟨hr, Nat.toDigits_ne_nil⟩, fun c hc => isDigit_of_mem_toDigits hc⟩

theorem looksLikeAnInstanceId_instanceId (hr : root.chars ≠ []) (n : Nat) :
    looksLikeAnInstanceId (instanceId root n).chars = true := by
  refine looksLikeAnInstanceId_of_stem hr (n := n) ?_
  cases hs : (instanceId root n).chars.dropSuffix? lockSuffix with
  | none => rfl
  | some id =>
    obtain ⟨su, hc, hsu⟩ := List.dropSuffix?_eq_some_iff.1 hs
    rw [eq_of_beq hsu] at hc
    exact absurd hc (chars_instanceId_ne_lock root n id)

theorem looksLikeAnInstanceId_lock (hr : root.chars ≠ []) (n : Nat) :
    looksLikeAnInstanceId ((instanceId root n).chars ++ lockSuffix) = true := by
  have hs : ((instanceId root n).chars ++ lockSuffix).dropSuffix? lockSuffix = some (instanceId root n).chars :=
    List.dropSuffix?_eq_some_iff.2 ⟨lockSuffix, rfl, beq_self_eq_true _⟩
  exact looksLikeAnInstanceId_of_stem hr (by rw [hs]; rfl)

theorem disjoint_names {other : List Char} (hi : id ≠ other) (hl : id ≠ other ++ lockSuffix)
    (hot : other ≠ id ++ lockSuffix) : List.Disjoint (runtimeNamesClaimedBy id) (runtimeNamesClaimedBy other) := by
  simp only [runtimeNamesClaimedBy, List.disjoint_left, List.mem_cons, List.not_mem_nil, or_false]
  rintro na (rfl | rfl) (h | h)
  · exact hi h
  · exact hl h
  · exact hot h.symm
  · exact hi (List.append_cancel_right h)

theorem disjoint_instance (hp : looksLikeAnInstanceId id = false) (hr : root.chars ≠ []) (n : Nat) :
    List.Disjoint (runtimeNamesClaimedBy id) (runtimeNamesClaimedBy (instanceId root n).chars) := by
  have hi : id ≠ (instanceId root n).chars := by
    rintro rfl
    exact absurd (looksLikeAnInstanceId_instanceId hr n) (by simp [hp])
  have hl : id ≠ (instanceId root n).chars ++ lockSuffix := by
    rintro rfl
    exact absurd (looksLikeAnInstanceId_lock hr n) (by simp [hp])
  exact disjoint_names hi hl (chars_instanceId_ne_lock root n id)

theorem disjoint_instances {r' : RealmId} (hn : n ≠ n') :
    List.Disjoint (runtimeNamesClaimedBy (instanceId root n).chars)
      (runtimeNamesClaimedBy (instanceId r' n').chars) := by
  have hi : (instanceId root n).chars ≠ (instanceId r' n').chars := fun h =>
    hn (instanceId_inj (RealmId.chars_injective h)).2
  exact disjoint_names hi (chars_instanceId_ne_lock _ _ _) (chars_instanceId_ne_lock _ _ _)

theorem nodup_runtimeNamesClaimedBy (id : List Char) : (runtimeNamesClaimedBy id).Nodup := by
  simp [runtimeNamesClaimedBy, lockSuffix]

/-! ### Lengths -/

theorem byteLength_append {a b : List Char} : byteLength (a ++ b) = byteLength a + byteLength b := by
  simp [byteLength]

theorem byteLength_toDigits : byteLength (toDigits 10 n) = (toDigits 10 n).length := by
  have hon : ∀ c ∈ toDigits 10 n, c.utf8Size = 1 := by
    intro c hc
    have hd := isDigit_of_mem_toDigits hc
    simp only [Char.isDigit, Bool.and_eq_true, decide_eq_true_eq] at hd
    rw [Char.utf8Size, if_pos (UInt32.le_trans hd.2 (by decide))]
  rw [byteLength, List.map_congr_left hon]
  simp

theorem byteLength_le_of_validate (h : validateTransportRealmId id = .ok ()) : byteLength id ≤ 64 := by
  simp only [validateTransportRealmId] at h
  split_ifs at h with hl
  simp only [Bool.and_eq_true, decide_eq_true_eq] at hl
  exact hl.1.1.1.2

theorem validate_instanceId (hr : Declared root.chars) (hn : n < 2 ^ 64) :
    validateTransportRealmId (instanceId root n).chars = .ok () := by
  have hlen : (toDigits 10 n).length ≤ 20 :=
    (Nat.length_toDigits_le_iff (by decide) (by decide)).2 (hn.trans (by decide))
  have hs := hr.short
  have hb : byteLength (instanceId root n).chars ≤ 64 := by
    rw [chars_instanceId, byteLength_append, show '.' :: toDigits 10 n = ['.'] ++ toDigits 10 n from rfl,
      byteLength_append, byteLength_toDigits]
    simp only [maxDeclaredIdBytes, maxInstanceSuffix] at hs
    have hdo : byteLength ['.'] = 1 := by decide
    omega
  have hp : 0 < root.chars.length := List.length_pos_iff.2 hr.nonempty
  have hd := Nat.length_toDigits_pos (b := 10) (n := n)
  have hlo : 3 ≤ (instanceId root n).chars.length := by
    rw [chars_instanceId, List.length_append, List.length_cons]
    omega
  have hle : (instanceId root n).chars.all realmIdChar = true := by
    rw [chars_instanceId, List.all_append, hr.legal, List.all_cons]
    simp only [Bool.true_and, Bool.and_eq_true, List.all_eq_true]
    refine ⟨by decide, fun c hc => ?_⟩
    rw [realmIdChar, Char.isAlphanum, isDigit_of_mem_toDigits hc, Bool.or_true]
    rfl
  have hne : ∀ l : List Char, l.length < 3 → (instanceId root n).chars ≠ l := by
    rintro l hl rfl
    omega
  rw [validateTransportRealmId, if_pos]
  simp only [Bool.and_eq_true, Bool.not_eq_true', decide_eq_true_eq, List.isEmpty_eq_false_iff]
  exact ⟨⟨⟨⟨hne _ (by decide), hb⟩, hne _ (by decide)⟩, hne _ (by decide)⟩, hle⟩

/-! ### Runs -/

/-- The declared realms are behind every realm, and the ids that were made are numbered in their order. -/
structure Numbered (declared : List RealmId) (s : NamesRun) : Prop where
  roots : ∀ id r, s.book.realms.get? id = some r → r.templateRoot ∈ declared
  next : s.book.nextInstance = min (s.minted.length + 1) (2 ^ 64 - 1)
  minted : ∀ i id, s.minted[i]? = some id → ∃ root ∈ declared, id = instanceId root (min (i + 1) (2 ^ 64 - 1))

variable {d : List RealmId} {s : NamesRun}

theorem Numbered.step (h : Numbered d s) (op : NamesOp) : Numbered d (namesStep s op).1 := by
  cases op with
  | mintInstance t =>
    simp only [namesStep, RealmBook.mintInstance]
    split
    · simpa using h
    · rename_i re hre
      have hro := h.roots t re hre
      have hn := h.next
      refine ⟨h.roots, ?_, ?_⟩
      · simp only [Option.toList_some, List.length_append, List.length_singleton]
        omega
      · intro i id hi
        simp only [Option.toList_some] at hi
        obtain hl | hg := Nat.lt_or_ge i s.minted.length
        · rw [List.getElem?_append_left hl] at hi
          exact h.minted i id hi
        · rw [List.getElem?_append_right hg, List.getElem?_singleton] at hi
          split at hi
          · cases hi
            exact ⟨re.templateRoot, hro, by rw [hn, show i = s.minted.length by omega]⟩
          · cases hi
  | insertInstance t w =>
    simp only [namesStep]
    split
    · rename_i id hi
      simp only [RealmBook.insertInstance]
      split
      · exact h
      · rename_i re hre
        obtain ⟨-, p, hp, hro⟩ := RealmBook.instanceOf_eq_some hre
        refine ⟨?_, h.next, h.minted⟩
        intro i' r hr
        rw [OrdMap.get?_insert] at hr
        split at hr
        · cases hr
          exact hro ▸ h.roots t p hp
        · exact h.roots i' r hr
    · exact h
  | removeInstance w =>
    simp only [namesStep]
    split
    · refine ⟨?_, h.next, h.minted⟩
      intro i' r hr
      exact h.roots i' r (OrdMap.get?_erase_eq_some.1 hr).2
    · exact h
  | mark id st =>
    refine ⟨?_, h.next, h.minted⟩
    intro i' r hr
    simp only [namesStep, RealmBook.mark, OrdMap.get?_modify] at hr
    split at hr
    · obtain ⟨r', hr', rfl⟩ := Option.map_eq_some_iff.1 hr
      exact h.roots i' r' hr'
    · exact h.roots i' r hr

/-- With fewer than `2 ^ 64` ids made, the number of each is its place. -/
theorem Numbered.of_mem (h : Numbered d s) (hf : s.minted.length < 2 ^ 64) {i : Nat} {id : RealmId}
    (hid : s.minted[i]? = some id) : i + 1 < 2 ^ 64 ∧ ∃ root ∈ d, id = instanceId root (i + 1) := by
  have hi : i < s.minted.length := (List.getElem?_eq_some_iff.1 hid).1
  obtain ⟨root, hr, hn⟩ := h.minted i id hid
  have hnu : min (i + 1) (2 ^ 64 - 1) = i + 1 := by omega
  exact ⟨by omega, root, hr, hnu ▸ hn⟩

theorem Numbered.nodup_names (h : Numbered d s) (hf : s.minted.length < 2 ^ 64) :
    (s.minted.flatMap fun id => runtimeNamesClaimedBy id.chars).Nodup := by
  refine List.nodup_flatMap.2 ⟨fun id _ => nodup_runtimeNamesClaimedBy id.chars, ?_⟩
  rw [List.pairwise_iff_getElem]
  intro i j hi hj hij
  obtain ⟨-, root, -, hn⟩ := h.of_mem hf (List.getElem?_eq_getElem hi)
  obtain ⟨-, r', -, hn'⟩ := h.of_mem hf (List.getElem?_eq_getElem hj)
  simp only [hn, hn']
  exact disjoint_instances (by omega)

/-- **Runtime names never collide.** For every realm file the loader accepts and every sequence of ids made, entered and
removed, fewer than `2 ^ 64` of them made: each is a legal id of at most 64 bytes, none is a declared one or made twice,
and the names that the core, the declared realms and all ids ever made claim in the runtime directory are pairwise
different. -/
theorem runtime_names_disjoint (text : List Char) (config : ParsedConfig) (b : RealmBook)
    (hparse : parseConfig text = .ok config) (hload : fromSpecs config.specs = .ok b) (ops : List NamesOp) :
    let s := namesStep.exec ⟨b, []⟩ ops
    s.minted.length < 2 ^ 64 →
      (∀ id ∈ s.minted, validateTransportRealmId id.chars = .ok () ∧ byteLength id.chars ≤ 64 ∧ id ∉ b.ids) ∧
      s.minted.Nodup ∧
      (reservedRuntimeNames ++ (b.ids ++ s.minted).flatMap fun id => runtimeNamesClaimedBy id.chars).Nodup := by
  intro s hf
  obtain ⟨hne, hre, hdis⟩ := fromSpecs_names hload
  have hd : ∀ id ∈ b.ids, Declared id.chars := by
    intro id hid
    obtain ⟨⟨i', r⟩, hr, rfl⟩ := List.mem_map.1 hid
    obtain ⟨-, sp, hsp, hch⟩ := hre i' r (OrdMap.mem_entries_iff.1 hr)
    exact hch ▸ parseConfig_declared hparse hsp
  have hnu : Numbered b.ids s := by
    refine Machine.exec_inv (P := Numbered b.ids) (fun _ op h => h.step op) ⟨?_, hne, ?_⟩ ops
    · intro id r hr
      rw [(hre id r hr).1]
      exact List.mem_map.2 ⟨(id, r), OrdMap.mem_entries_iff.2 hr, rfl⟩
    · intro i id hid
      simp at hid
  -- What is declared, and the core's own, is not read as an instance.
  have ha : ∀ id ∈ s.minted, ∀ o, looksLikeAnInstanceId o = false →
      List.Disjoint (runtimeNamesClaimedBy o) (runtimeNamesClaimedBy id.chars) := by
    intro id hid o hp
    obtain ⟨i, hi⟩ := List.mem_iff_getElem?.1 hid
    obtain ⟨-, root, hro, rfl⟩ := hnu.of_mem hf hi
    exact disjoint_instance hp (hd root hro).nonempty _
  have hna := hnu.nodup_names hf
  refine ⟨?_, ?_, ?_⟩
  · intro id hid
    obtain ⟨i, hi⟩ := List.mem_iff_getElem?.1 hid
    obtain ⟨hs, root, hro, hn⟩ := hnu.of_mem hf hi
    have hl : validateTransportRealmId id.chars = .ok () :=
      hn ▸ validate_instanceId (hd root hro) hs
    refine ⟨hl, byteLength_le_of_validate hl, ?_⟩
    intro hde
    exact ha id hid id.chars (hd id hde).plain (.head _) (.head _)
  · refine (List.nodup_flatMap.1 hna).2.imp ?_
    rintro id _ hdi rfl
    exact hdi (.head _) (.head _)
  · rw [List.flatMap_append, ← List.append_assoc]
    refine List.nodup_append.2 ⟨hdis, hna, ?_⟩
    intro na hn na' hn' he
    obtain ⟨id, hid, hc⟩ := List.mem_flatMap.1 hn'
    obtain hres | hde := List.mem_append.1 hn
    · exact ha id hid coreSocketName (by decide) hres (he ▸ hc)
    · obtain ⟨o, hot, hcl⟩ := List.mem_flatMap.1 hde
      exact ha id hid o.chars (hd o hot).plain hcl (he ▸ hc)

namespace Sample

def realmFile : List Char := "[[realm]]\ncommand = \"/usr/bin/app\"\n".toList

def realmConfig : ParsedConfig := ⟨[⟨wellKnownRealmId, ⟨"/usr/bin/app".toList, [], [], []⟩, true⟩], none⟩

def launches : List NamesOp :=
  [.mintInstance ⟨"realm-0"⟩, .insertInstance ⟨"realm-0"⟩ 0, .mintInstance ⟨"realm-0.1"⟩, .removeInstance 0]

end Sample

open Sample in
theorem runtime_names_disjoint_launched :
    ∃ b, fromSpecs realmConfig.specs = .ok b ∧
      (namesStep.exec ⟨b, []⟩ launches).minted = [⟨"realm-0.1"⟩, ⟨"realm-0.2"⟩] ∧
      (namesStep.exec ⟨b, []⟩ launches).minted.Nodup := by
  have hm : (fromSpecs realmConfig.specs).toOption.map (fun b => (namesStep.exec ⟨b, []⟩ launches).minted) =
      some [⟨"realm-0.1"⟩, ⟨"realm-0.2"⟩] := by decide +kernel
  obtain ⟨b, hb, hm⟩ := Option.map_eq_some_iff.1 hm
  have hl : fromSpecs realmConfig.specs = .ok b := by
    cases hs : fromSpecs realmConfig.specs with
    | error e =>
      rw [hs] at hb
      cases hb
    | ok b' =>
      rw [hs] at hb
      cases hb
      rfl
  have hf : (namesStep.exec ⟨b, []⟩ launches).minted.length < 2 ^ 64 := by
    rw [hm]
    decide
  exact ⟨b, hl, hm, (runtime_names_disjoint realmFile realmConfig b rfl hl launches hf).2.1⟩

end Vitrin
