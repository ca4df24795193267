import Vitrin.Lib.Reader
import Vitrin.Protocol.RustCodec

/-!
# The channel to the isolation helper

The frames between the core and the helper that builds a realm. All but one have a fixed
length; a `Config` is a row of length-prefixed fields.

A path or an argument is its bytes. The cursor is what it has not read yet. The code adds
lengths with a check for overflow, whose failure is the same error as running past the end.
A panic is a fault, and so is room set aside for more elements than the blob has bytes.
What `from_utf8_lossy` makes of bytes that are not UTF-8 is a parameter (`replaced`), and
so is the parser of numbers behind `--landlock`.

Each field is read back from the bytes that were written for it (`Consumes`), and so a
`Config` from all of them (`back_config`). `helper_codec` follows.
-/

namespace Vitrin.Isolation

open Lib Protocol

def landlockBuildMaxRung : UInt32 := 9

def configMax : Nat := 64 * 1024

def frameLen : Nat := 32

inductive CodecError where
  | length (got : Nat)
  | tag (t : UInt8)
  | truncated
  | stage (s : UInt8)
  | landlock (tag value : UInt32)
  | tooLarge (n : Nat)
  deriving DecidableEq

inductive LandlockRequest where
  | highest
  | cappedAt (n : UInt32)
  | off
  deriving DecidableEq

/-- The value of `--landlock`; why another is refused is left out. -/
def LandlockRequest.parse (parseU32 : List Char → Option UInt32) (value : List Char) : Option LandlockRequest :=
  if value = "off".toList then some .off
  else if value = "highest".toList then some .highest
  else do
    let n ← "abi:".toList.isPrefixOf? value
    let rung ← parseU32 n
    if rung = 0 then none
    else if landlockBuildMaxRung < rung then none
    else some (.cappedAt rung)

abbrev Path := List UInt8

structure TmpfsCaps where
  root : UInt64
  dev : UInt64
  shm : UInt64
  tmp : UInt64

structure Config where
  schemaVersion : String
  realmId : String
  innerUid : UInt32
  innerGid : UInt32
  runtimeDir : Path
  storageDir : Path
  shimSource : Path
  appDir : Option Path
  renderNodes : List Path
  binds : List Path
  argv : List (List UInt8)
  caps : TmpfsCaps
  landlock : LandlockRequest

inductive Stage where
  | version
  | unshare
  | setgroups
  | mapVerify
  | fork
  | mount
  | pivotRoot
  | exec
  | internal
  | landlock
  | seccomp
  deriving DecidableEq

def Stage.toU8 : Stage → UInt8
  | version => 1
  | unshare => 2
  | setgroups => 3
  | mapVerify => 4
  | fork => 5
  | mount => 6
  | pivotRoot => 7
  | exec => 8
  | internal => 9
  | landlock => 10
  | seccomp => 11

def Stage.fromU8 : UInt8 → Option Stage
  | 1 => some version
  | 2 => some unshare
  | 3 => some setgroups
  | 4 => some mapVerify
  | 5 => some fork
  | 6 => some mount
  | 7 => some pivotRoot
  | 8 => some exec
  | 9 => some internal
  | 10 => some landlock
  | 11 => some seccomp
  | _ => none

inductive Frame where
  | config (cfg : Config)
  | mapDone
  | proceed
  | unshared
  | child (hostPid : Int32)
  | mounted (count : UInt32) (fingerprint : UInt64)
  | landlocked (rung kernelAbi : UInt32)
  | filtered (rows instructions : UInt32)
  | fail (stage : Stage) (errno : Int32)

/-! ### Writing -/

def putU32 (v : UInt32) : List UInt8 := leBytes 4 v.toNat

def putU64 (v : UInt64) : List UInt8 := leBytes 8 v.toNat

def putBytes (v : List UInt8) : List UInt8 := putU32 (.ofNat v.length) ++ v

def putList (vs : List (List UInt8)) : List UInt8 := putU32 (.ofNat vs.length) ++ vs.flatMap putBytes

def putAppDir : Option Path → List UInt8
  | some p => putU32 1 ++ putBytes p
  | none => putU32 0

def LandlockRequest.words : LandlockRequest → UInt32 × UInt32
  | highest => (0, 0)
  | cappedAt n => (1, n)
  | off => (2, 0)

def Config.encodeInto (cfg : Config) : List UInt8 :=
  putBytes (utf8Bytes cfg.schemaVersion) ++ (putBytes (utf8Bytes cfg.realmId) ++ (putU32 cfg.innerUid ++
    (putU32 cfg.innerGid ++ (putBytes cfg.runtimeDir ++ (putBytes cfg.storageDir ++ (putBytes cfg.shimSource ++
      (putAppDir cfg.appDir ++ (putList cfg.renderNodes ++ (putList cfg.binds ++ (putList cfg.argv ++
        (putU64 cfg.caps.root ++ (putU64 cfg.caps.dev ++ (putU64 cfg.caps.shm ++ (putU64 cfg.caps.tmp ++
          (putU32 cfg.landlock.words.1 ++ putU32 cfg.landlock.words.2)))))))))))))))

/-- A frame of fixed length; `a` is cut down to 32 bits. -/
def fixed (tag : UInt8) (a : Int) (b : UInt64) (stage : UInt8) : List UInt8 :=
  [tag, stage, 0, 0] ++ (putU32 (Int32.ofInt a).toUInt32 ++ (putU64 b ++ List.replicate (frameLen - 16) 0))

def Frame.encode : Frame → Except CodecError (List UInt8)
  | config cfg =>
    let buf := 0x10 :: cfg.encodeInto
    if configMax < buf.length then .error (.tooLarge buf.length) else .ok buf
  | mapDone => .ok (fixed 0x11 0 0 0)
  | proceed => .ok (fixed 0x12 0 0 0)
  | unshared => .ok (fixed 0x20 0 0 0)
  | child hostPid => .ok (fixed 0x21 hostPid.toInt 0 0)
  | mounted count fingerprint => .ok (fixed 0x22 count.toNat fingerprint 0)
  | landlocked rung kernelAbi => .ok (fixed 0x24 rung.toNat kernelAbi.toUInt64 0)
  | filtered rows instructions => .ok (fixed 0x25 rows.toNat instructions.toUInt64 0)
  | fail stage errno => .ok (fixed 0x23 errno.toInt 0 stage.toU8)

/-! ### Reading -/

abbrev Cursor := Reader CodecError UInt8

/-- The number in `n` bytes; another count of bytes is a panic. -/
def fromLeBytes (n : Nat) (slice : List UInt8) : Except (Stop CodecError) Nat :=
  if slice.length = n then .ok (leNat slice) else fault

def numberAt (bytes : List UInt8) (pos w : Nat) : Except (Stop CodecError) Nat := do
  let slice ← slice bytes pos (pos + w)
  fromLeBytes w slice

def withCapacity (len n : Nat) : Except (Stop CodecError) Unit := if n ≤ len then .ok () else fault

namespace Cursor

/-- The next number of `w` bytes. -/
def number (w : Nat) : Cursor Nat := do
  let slice ← takeNext .truncated w
  fromLeBytes w slice

def u32 : Cursor UInt32 := do
  let n ← number 4
  return .ofNat n

def u64 : Cursor UInt64 := do
  let n ← number 8
  return .ofNat n

def bytes : Cursor (List UInt8) := do
  let len ← u32
  takeNext .truncated len.toNat

def string (replaced : List UInt8 → String) : Cursor String := do
  let raw ← bytes
  return (String.fromUTF8? raw.toByteArray).getD (replaced raw)

/-- The loop of `paths` and that of the arguments, in a blob of `len` bytes. -/
def list (len : Nat) : Cursor (List (List UInt8)) := do
  let n ← u32
  withCapacity len (min n.toNat len)
  readTimes n.toNat bytes

def appDir : Cursor (Option Path) := do
  let present ← u32
  if present = 0 then return none
  else
    let p ← bytes
    return some p

end Cursor

/-- An unknown tag is refused, and so is a rung this build has no reading for. -/
def LandlockRequest.ofWords (tag value : UInt32) : Except (Stop CodecError) LandlockRequest :=
  if tag = 0 then .ok highest
  else if tag = 1 ∧ 1 ≤ value ∧ value ≤ landlockBuildMaxRung then .ok (cappedAt value)
  else if tag = 2 then .ok off
  else raise (.landlock tag value)

open Cursor

/-- The reads of `Config::decode`, of a blob of `len` bytes. -/
def Config.read (replaced : List UInt8 → String) (len : Nat) : Cursor Config := do
  let schemaVersion ← string replaced
  let realmId ← string replaced
  let innerUid ← u32
  let innerGid ← u32
  let runtimeDir ← bytes
  let storageDir ← bytes
  let shimSource ← bytes
  let appDir ← Cursor.appDir
  let renderNodes ← list len
  let binds ← list len
  let argv ← list len
  let root ← u64
  let dev ← u64
  let shm ← u64
  let tmp ← u64
  let tag ← u32
  let value ← u32
  let landlock ← LandlockRequest.ofWords tag value
  return ⟨schemaVersion, realmId, innerUid, innerGid, runtimeDir, storageDir, shimSource, appDir, renderNodes, binds,
    argv, ⟨root, dev, shm, tmp⟩, landlock⟩

def Config.decode (replaced : List UInt8 → String) (bytes : List UInt8) : Except (Stop CodecError) Config :=
  (Config.read replaced bytes.length).run' bytes

/-- A frame of fixed length, from its bytes, its tag and its two numbers. -/
def Frame.ofFixed (bytes : List UInt8) (tag : UInt8) (a : UInt32) (b : UInt64) : Except (Stop CodecError) Frame :=
  match tag with
  | 0x11 => .ok mapDone
  | 0x12 => .ok proceed
  | 0x20 => .ok unshared
  | 0x21 => .ok (child a.toInt32)
  | 0x22 => .ok (mounted a b)
  | 0x24 => .ok (landlocked a b.toUInt32)
  | 0x25 => .ok (filtered a b.toUInt32)
  | 0x23 => do
    let s ← byteAt bytes 1
    match Stage.fromU8 s with
    | some stage => .ok (fail stage a.toInt32)
    | none => raise (.stage s)
  | other => raise (.tag other)

def Frame.decode (replaced : List UInt8 → String) (bytes : List UInt8) : Except (Stop CodecError) Frame :=
  match bytes with
  | [] => raise (.length 0)
  | tag :: blob =>
    if tag = 0x10 then
      if configMax < bytes.length then raise (.tooLarge bytes.length)
      else do
        let cfg ← Config.decode replaced blob
        return config cfg
    else if bytes.length ≠ frameLen then raise (.length bytes.length)
    else do
      let a ← numberAt bytes 4 4
      let b ← numberAt bytes 8 8
      Frame.ofFixed bytes tag (.ofNat a) (.ofNat b)

/-! ### A field is read back from its bytes -/

variable {replaced : List UInt8 → String} {len : Nat} {raw : List UInt8} {vs : List (List UInt8)}

theorem fromLeBytes_leBytes {w n : Nat} (h : n < 256 ^ w) : fromLeBytes w (leBytes w n) = .ok n := by
  rw [fromLeBytes, if_pos length_leBytes, leNat_leBytes, Nat.mod_eq_of_lt h]

/-- `get` reads `x` from these bytes, and refuses a part of them. -/
abbrev Back {α : Type} (get : Cursor α) (chunk : List UInt8) (x : Except (Stop CodecError) α) : Prop :=
  Consumes .truncated get chunk x

theorem back_then {α γ : Type} {g : Cursor α} {k : α → Cursor γ} {c c' : List UInt8} {a : α}
    {y : Except (Stop CodecError) γ} (hl : (c ++ c').length < 2 ^ 32) (h : c.length < 2 ^ 32 → Back g c (.ok a))
    (hk : c'.length < 2 ^ 32 → Back (k a) c' y) : Back (g >>= k) (c ++ c') y := by
  rw [List.length_append] at hl
  exact (h (by omega)).bind (hk (by omega))

theorem back_number {w n : Nat} (h : n < 256 ^ w) : Back (number w) (leBytes w n) (.ok n) := by
  refine (consumes_takeNext length_leBytes).last ?_
  rw [fromLeBytes_leBytes h]
  exact consumes_lift _

theorem back_u32 (v : UInt32) : Back u32 (putU32 v) (.ok v) := by
  refine (back_number v.toNat_lt).last ?_
  rw [UInt32.ofNat_toNat]
  exact consumes_pure v

theorem back_u64 (v : UInt64) : Back u64 (putU64 v) (.ok v) := by
  refine (back_number v.toNat_lt).last ?_
  rw [UInt64.ofNat_toNat]
  exact consumes_pure v

theorem length_putBytes : (putBytes raw).length = 4 + raw.length := by simp [putBytes, putU32]

theorem back_bytes (h : (putBytes raw).length < 2 ^ 32) : Back bytes (putBytes raw) (.ok raw) := by
  rw [length_putBytes] at h
  exact (back_u32 _).bind (consumes_takeNext (UInt32.toNat_ofNat_of_lt' (Nat.lt_of_add_left_lt h)).symm)

theorem back_string {s : String} (h : (putBytes (utf8Bytes s)).length < 2 ^ 32) :
    Back (string replaced) (putBytes (utf8Bytes s)) (.ok s) := by
  refine (back_bytes h).last ?_
  rw [fromUTF8_utf8Bytes]
  exact consumes_pure s

theorem length_le_flatMap : vs.length ≤ (vs.flatMap putBytes).length := by
  induction vs with
  | nil => exact le_rfl
  | cons v vs ih =>
    rw [List.flatMap_cons, List.length_append, List.length_cons, length_putBytes]
    omega

theorem length_le_of_mem (h : raw ∈ vs) : (putBytes raw).length ≤ (vs.flatMap putBytes).length :=
  (List.sublist_flatten_of_mem (List.mem_map_of_mem h)).length_le

theorem back_list (h : (putList vs).length < 2 ^ 32) : Back (list len) (putList vs) (.ok vs) := by
  have hf : (vs.flatMap putBytes).length < 2 ^ 32 := by
    rw [putList, List.length_append] at h
    omega
  have hl : (UInt32.ofNat vs.length).toNat = vs.length := UInt32.toNat_ofNat_of_lt' (length_le_flatMap.trans_lt hf)
  have hc : Back (withCapacity len (min (UInt32.ofNat vs.length).toNat len)) [] (.ok ()) := by
    rw [withCapacity, if_pos (Nat.min_le_right _ _)]
    exact consumes_lift _
  refine (back_u32 _).bind (hc.bind ?_)
  rw [hl]
  exact consumes_times fun v hm => back_bytes ((length_le_of_mem hm).trans_lt hf)

theorem back_appDir {d : Option Path} (h : (putAppDir d).length < 2 ^ 32) :
    Back Cursor.appDir (putAppDir d) (.ok d) := by
  cases d with
  | none => exact (back_u32 0).last (consumes_pure none)
  | some p => exact back_then h (fun _ => back_u32 1) fun h => (back_bytes h).last (consumes_pure _)

open LandlockRequest (parse ofWords words)

theorem landlock_words {r : LandlockRequest} {parseU32 : List Char → Option UInt32} {v : List Char}
    (h : parse parseU32 v = some r) : ofWords r.words.1 r.words.2 = .ok r := by
  unfold parse at h
  split_ifs at h
  · cases h
    rfl
  · cases h
    rfl
  · obtain ⟨n, -, hn⟩ := Option.bind_eq_some_iff.mp h
    obtain ⟨ru, -, hr⟩ := Option.bind_eq_some_iff.mp hn
    split_ifs at hr with h0 h9
    cases hr
    have h1 : 1 ≤ ru := by grind
    simp [words, ofWords, h1, UInt32.not_lt.mp h9]

variable {cfg : Config}

/-- A `Config` is read back from its bytes, up to what is made of the two words of its Landlock request. -/
theorem back_config (h : cfg.encodeInto.length < 2 ^ 32) :
    Back (Config.read replaced len) cfg.encodeInto ((fun landlock => { cfg with landlock }) <$>
      ofWords cfg.landlock.words.1 cfg.landlock.words.2) := by
  unfold Config.encodeInto at h ⊢
  unfold Config.read
  refine back_then h back_string fun h => back_then h back_string fun h => ?_
  refine back_then h (fun _ => back_u32 _) fun h => back_then h (fun _ => back_u32 _) fun h => ?_
  refine back_then h back_bytes fun h => back_then h back_bytes fun h => back_then h back_bytes fun h => ?_
  refine back_then h back_appDir fun h => ?_
  refine back_then h back_list fun h => back_then h back_list fun h => back_then h back_list fun h => ?_
  refine (back_u64 _).bind ((back_u64 _).bind ((back_u64 _).bind ((back_u64 _).bind ?_)))
  refine (back_u32 _).bind ((back_u32 _).last ?_)
  cases ofWords cfg.landlock.words.1 cfg.landlock.words.2 with
  | ok landlock => exact (consumes_lift (.ok landlock)).last (consumes_pure _)
  | error e => exact consumes_lift (.error e)

/-! ### Nothing leads to a fault -/

theorem fromLeBytes_eq {w : Nat} (h : raw.length = w) : fromLeBytes w raw = .ok (leNat raw) := if_pos h

theorem faultless_number {w : Nat} : Faultless (number w) := by
  intro l
  refine bind_ne_fault (faultless_takeNext l) fun x hx => ?_
  have hw : x.1.length = w := by
    change (if _ then _ else _) = _ at hx
    split at hx
    case isTrue h =>
      cases hx
      exact List.length_take_of_le h
    case isFalse => exact absurd hx raise_ne_ok
  exact faultless_lift (fromLeBytes_eq hw ▸ ok_ne_fault) x.2

theorem faultless_u32 : Faultless u32 := faultless_number.bind fun _ => faultless_pure _

theorem faultless_u64 : Faultless u64 := faultless_number.bind fun _ => faultless_pure _

theorem faultless_bytes : Faultless bytes := faultless_u32.bind fun _ => faultless_takeNext

theorem faultless_string : Faultless (string replaced) := faultless_bytes.bind fun _ => faultless_pure _

theorem faultless_list : Faultless (list len) := by
  refine faultless_u32.bind fun n => (faultless_lift ?_).bind fun _ => faultless_bytes.times _
  rw [withCapacity, if_pos (Nat.min_le_right _ _)]
  exact ok_ne_fault

theorem faultless_appDir : Faultless Cursor.appDir := by
  refine faultless_u32.bind fun p => ?_
  split
  · exact faultless_pure _
  · exact faultless_bytes.bind fun _ => faultless_pure _

theorem ofWords_ne_fault {t v : UInt32} : ofWords t v ≠ fault := by
  unfold ofWords
  split_ifs <;> simp

theorem faultless_config : Faultless (Config.read replaced len) := by
  refine faultless_string.bind fun _ => faultless_string.bind fun _ => ?_
  refine faultless_u32.bind fun _ => faultless_u32.bind fun _ => ?_
  refine faultless_bytes.bind fun _ => faultless_bytes.bind fun _ => faultless_bytes.bind fun _ => ?_
  refine faultless_appDir.bind fun _ => ?_
  refine faultless_list.bind fun _ => faultless_list.bind fun _ => faultless_list.bind fun _ => ?_
  refine faultless_u64.bind fun _ => faultless_u64.bind fun _ => ?_
  refine faultless_u64.bind fun _ => faultless_u64.bind fun _ => ?_
  refine faultless_u32.bind fun _ => faultless_u32.bind fun _ => ?_
  exact (faultless_lift ofWords_ne_fault).bind fun _ => faultless_pure _

theorem config_decode_eq : Config.decode replaced raw = (·.1) <$> (Config.read replaced raw.length).run raw := rfl

theorem config_decode_ne_fault : Config.decode replaced raw ≠ fault := by
  have h : ((Config.read replaced raw.length).run raw >>= fun x => .ok x.1) ≠ fault :=
    bind_ne_fault (faultless_config raw) fun _ _ => ok_ne_fault
  rw [config_decode_eq]
  cases hx : (Config.read replaced raw.length).run raw with
  | ok x => exact ok_ne_fault
  | error e => simpa [hx] using h

theorem ofFixed_ne_fault {t : UInt8} {a : UInt32} {b : UInt64} (h : 1 < raw.length) :
    Frame.ofFixed raw t a b ≠ fault := by
  have hb : byteAt raw 1 = (.ok (raw.get ⟨1, h⟩) : Except (Stop CodecError) UInt8) := by simp [byteAt, h]
  unfold Frame.ofFixed
  rw [hb, ok_bind]
  split <;> try simp
  split <;> simp

theorem numberAt_eq {p w : Nat} (h : p + w ≤ raw.length) :
    numberAt raw p w = .ok (leNat ((raw.drop p).take w)) := by
  have hl : ((raw.drop p).take w).length = w := by
    rw [List.length_take, List.length_drop]
    omega
  rw [numberAt, slice, if_pos ⟨Nat.le_add_right _ _, h⟩, ok_bind, Nat.add_sub_cancel_left, fromLeBytes_eq hl]

theorem decode_ne_fault (bytes : List UInt8) : Frame.decode replaced bytes ≠ fault := by
  cases bytes with
  | nil => exact raise_ne_fault
  | cons t b =>
    simp only [Frame.decode]
    split_ifs with ht hm hl
    · exact raise_ne_fault
    · exact bind_ne_fault config_decode_ne_fault fun _ _ => ok_ne_fault
    · exact raise_ne_fault
    · have hf : (t :: b).length = 32 := not_not.mp hl
      rw [numberAt_eq (by omega), numberAt_eq (by omega)]
      exact ofFixed_ne_fault (by omega)

/-! ### Frames of fixed length -/

theorem decode_fixed {t s : UInt8} {a : Int} {b : UInt64} (h : t ≠ 0x10) :
    Frame.decode replaced (fixed t a b s) =
      Frame.ofFixed (fixed t a b s) t (Int32.ofInt a).toUInt32 b := by
  have hl : (fixed t a b s).length = frameLen := by simp [fixed, putU32, putU64, frameLen]
  have ha : numberAt (fixed t a b s) 4 4 = .ok (Int32.ofInt a).toUInt32.toNat := by
    simp [numberAt, slice, fixed, putU32, putU64, frameLen, fromLeBytes_leBytes (w := 4) (UInt32.toNat_lt _)]
  have hb : numberAt (fixed t a b s) 8 8 = .ok b.toNat := by
    simp [numberAt, slice, fixed, putU32, putU64, frameLen, fromLeBytes_leBytes (w := 8) (UInt64.toNat_lt _)]
  change (if _ then _ else if _ then _ else _) = _
  rw [if_neg h, if_neg (not_not.mpr hl)]
  change (numberAt (fixed t a b s) 4 4 >>= fun a' => numberAt (fixed t a b s) 8 8 >>= fun b' =>
    Frame.ofFixed (fixed t a b s) t (.ofNat a') (.ofNat b')) = _
  rw [ha, ok_bind, hb, ok_bind, UInt32.ofNat_toNat, UInt64.ofNat_toNat]

theorem stage_fromU8 (s : Stage) : Stage.fromU8 s.toU8 = some s := by
  cases s <;> rfl

theorem ofInt_toNat {v : UInt32} : (Int32.ofInt v.toNat).toUInt32 = v :=
  (congrArg UInt32.ofBitVec (BitVec.ofInt_natCast 32 v.toNat)).trans UInt32.ofNat_toNat

/-- A Landlock selection that the command line can make. -/
def Frame.Selectable (parseU32 : List Char → Option UInt32) : Frame → Prop
  | config cfg => ∃ value, LandlockRequest.parse parseU32 value = some cfg.landlock
  | _ => True

variable {parseU32 : List Char → Option UInt32} {frame : Frame} {bytes cut more : List UInt8}

theorem encode_config (h : (Frame.config cfg).encode = .ok bytes) :
    bytes = 0x10 :: cfg.encodeInto ∧ bytes.length ≤ configMax := by
  simp only [Frame.encode] at h
  split at h
  case isTrue => cases h
  case isFalse hm =>
    cases h
    exact ⟨rfl, Nat.not_lt.mp hm⟩

theorem decode_config (h : (0x10 :: raw).length ≤ configMax) :
    Frame.decode replaced (0x10 :: raw) = Config.decode replaced raw >>= fun cfg => .ok (.config cfg) := by
  simp only [Frame.decode, if_true]
  exact if_neg (Nat.not_lt.mpr h)

theorem back_encoded (replaced : List UInt8 → String) (h : (0x10 :: cfg.encodeInto).length ≤ configMax) (len : Nat) :
    Back (Config.read replaced len) cfg.encodeInto ((fun landlock => { cfg with landlock }) <$>
      ofWords cfg.landlock.words.1 cfg.landlock.words.2) := by
  refine back_config ?_
  rw [List.length_cons, configMax] at h
  omega

theorem decode_encode (hs : frame.Selectable parseU32) (h : frame.encode = .ok bytes) :
    Frame.decode replaced bytes = .ok frame := by
  cases frame with
  | config cfg =>
    obtain ⟨v, hv⟩ := hs
    obtain ⟨rfl, hl⟩ := encode_config h
    have hr := (back_encoded replaced hl cfg.encodeInto.length).whole []
    rw [List.append_nil, landlock_words hv] at hr
    rw [decode_config hl, config_decode_eq, hr]
    rfl
  | child | mounted | landlocked | filtered | fail | mapDone | proceed | unshared =>
    cases h
    rw [decode_fixed (by decide)]
    simp [Frame.ofFixed, ofInt_toNat, stage_fromU8, byteAt, fixed]

theorem decode_part (h : (Frame.config cfg).encode = .ok (cut ++ more)) (hm : more ≠ []) :
    ∃ e, Frame.decode replaced cut = raise e := by
  obtain ⟨he, hl⟩ := encode_config h
  cases cut with
  | nil => exact ⟨_, rfl⟩
  | cons t cut =>
    obtain ⟨rfl, ht⟩ : t = 0x10 ∧ cut ++ more = cfg.encodeInto := List.cons_eq_cons.mp he
    rw [List.cons_append, ht] at hl
    have hr := (back_encoded replaced hl cut.length).part cut more ht.symm hm
    have hc : (0x10 :: cut).length ≤ configMax := by
      rw [← ht, List.length_cons, List.length_append] at hl
      rw [List.length_cons]
      omega
    exact ⟨.truncated, by rw [decode_config hc, config_decode_eq, hr]; rfl⟩

/-- The encoding is within the bound on a `Config`. The other frames have a fixed length. -/
def Frame.Bounded : Frame → Prop
  | .config cfg => (0x10 :: cfg.encodeInto).length ≤ configMax
  | _ => True

theorem encode_of_bounded {frame : Frame} (h : frame.Bounded) : ∃ bytes, frame.encode = .ok bytes := by
  cases frame with
  | config cfg => exact ⟨_, if_neg (not_lt.mpr h)⟩
  | _ => exact ⟨_, rfl⟩

/-- **A frame within the bound is encoded, and decoded from it; a `Config` is decoded from no part of it; and no bytes
lead to a panic** or to room being set aside for more elements than there are bytes. -/
theorem helper_codec (replaced : List UInt8 → String) (parseU32 : List Char → Option UInt32) :
    (∀ frame : Frame, frame.Selectable parseU32 → frame.Bounded →
      ∃ bytes, frame.encode = .ok bytes ∧ Frame.decode replaced bytes = .ok frame) ∧
    (∀ cfg cut more, (Frame.config cfg).encode = .ok (cut ++ more) → more ≠ [] →
      ∃ e, Frame.decode replaced cut = raise e) ∧
    ∀ bytes, Frame.decode replaced bytes ≠ fault := by
  refine ⟨?_, fun _ _ _ => decode_part, decode_ne_fault⟩
  intro frame hselectable hbounded
  obtain ⟨bytes, hencode⟩ := encode_of_bounded hbounded
  exact ⟨bytes, hencode, decode_encode hselectable hencode⟩

/-- A realm with one render node, capped at the third rung. -/
def capped : Config :=
  ⟨"1", "r", 1000, 1000, [1], [2], [3], none, [[4, 5]], [], [[6], []], ⟨1, 2, 3, 4⟩, .cappedAt 3⟩

theorem helper_codec_capped : ∃ bytes, (Frame.config capped).encode = .ok bytes ∧
    Frame.decode (fun _ => "") bytes = .ok (.config capped) := by
  have hs : (Frame.config capped).Selectable fun _ => some 3 := ⟨"abi:3".toList, by decide⟩
  exact (helper_codec _ _).1 _ hs (by decide : (0x10 :: capped.encodeInto).length ≤ configMax)

end Vitrin.Isolation
