import Vitrin.Config.Toml
import Vitrin.Core.Petitions
import Vitrin.Lib.Lockstep

/-!
# The realm file

`realm.toml` declares the realms of a session: for each its id, the program it runs, and
what the program may see. It is read line by line into raw tables, each table is validated,
and the set as a whole makes the realm registry.

`parseConfig` and `fromSpecs` follow the source branch by branch. A refusal has the line,
where the source gives one, and the message's pieces: its fixed text, and the values it
quotes. Reading the file and auditing who may write it are not part of the model. A path is
compared as the source's library does, by its components.

`RealmBook` is the registry with what launching reads: the realm an instance was made from,
and the number of the next one.

Every id that gets through is one `validateRealmId` accepts, and the file names the declared
realms claim are pairwise different and none of the core's own (`fromSpecs_names`).
-/

namespace Vitrin

open Lib Toml

theorem mem_of_mapM_eq_ok {α β ε : Type} {f : α → Except ε β} {l : List α} {l' : List β} (h : l.mapM f = .ok l')
    {b : β} (hb : b ∈ l') : ∃ a ∈ l, f a = .ok b := by
  induction l generalizing l' with
  | nil =>
    cases h
    cases hb
  | cons a l ih =>
    rw [List.mapM_cons] at h
    obtain ⟨b', hb', h⟩ := bind_eq_ok.mp h
    obtain ⟨bs, hbs, h⟩ := bind_eq_ok.mp h
    obtain rfl : b' :: bs = l' := Except.ok.inj h
    obtain rfl | hb := List.mem_cons.1 hb
    · exact ⟨a, .head _, hb'⟩
    · obtain ⟨a', ha', hf⟩ := ih hbs hb
      exact ⟨a', .tail _ ha', hf⟩

/-! ### Refusals -/

/-- A part of a message: fixed text, a value in quotes, or a number. -/
inductive Piece where
  | text (s : String)
  | quoted (s : List Char)
  | number (n : Nat)
  deriving DecidableEq

/-- Why a file is refused. -/
inductive ErrorKind where
  | parse (line : Nat) (detail : List Piece)
  | invalid (detail : List Piece)
  deriving DecidableEq

def ErrorKind.ofSubset (e : SubsetError) : ErrorKind := .parse e.line [.text e.detail]

def scanned {α : Type} : Except SubsetError α → Except ErrorKind α
  | .ok a => .ok a
  | .error e => .error (.ofSubset e)

/-! ### Realm ids -/

def wellKnownRealmId : List Char := "realm-0".toList

def lockSuffix : List Char := ".lock".toList

def coreSocketName : List Char := "core.sock".toList

def byteLength (text : List Char) : Nat := (text.map Char.utf8Size).sum

def realmIdChar (c : Char) : Bool := c.isAlphanum || c = '-' || c = '_' || c = '.'

/-- The wire's and the file system's rule for realm ids. -/
def validateTransportRealmId (id : List Char) : Except (List Piece) Unit :=
  if !id.isEmpty && byteLength id ≤ 64 && id ≠ ['.'] && id ≠ ['.', '.'] && id.all realmIdChar then .ok ()
  else .error [.text "`id` ", .quoted id, .text " is not a legal realm id (", .text "invalid realm id: ", .quoted id,
    .text "); it must be at most 64 bytes over [A-Za-z0-9._-] and never `.` or `..`, because it names both the wire ",
        .text "realm and the realm's private runtime directory"]

/-- The most bytes the core appends to a declared id: a dot and the digits of a 64-bit number. -/
def maxInstanceSuffix : Nat := 1 + 20

def maxDeclaredIdBytes : Nat := 64 - maxInstanceSuffix

/-- The id looks like one the core makes, or like the lock file of one. -/
def looksLikeAnInstanceId (id : List Char) : Bool :=
  match rsplitOnce '.' ((id.dropSuffix? lockSuffix).getD id) with
  | none => false
  | some (stem, tail) => !stem.isEmpty && !tail.isEmpty && tail.all Char.isDigit

def validateRealmId (id : List Char) : Except (List Piece) Unit := do
  validateTransportRealmId id
  if looksLikeAnInstanceId id then
    .error [.text "`id` ", .quoted id, .text " has the shape the core mints for LAUNCH INSTANCES ",
        .text "(<template>.<number>, ",
        .text "optionally with this session's .lock suffix beside it), so it could collide with a realm ",
        .text "`vitrin_launcher.launch` creates -- either taking that realm's private runtime directory or its ",
        .text "lock file. ",
        .text "Configuration names templates and the core names instances; rename this one"]
  else if maxDeclaredIdBytes < byteLength id then
    .error [.text "`id` ", .quoted id, .text " is ", .number (byteLength id),
      .text " bytes; a realm declared in this file may be at most ", .number maxDeclaredIdBytes,
      .text " so that the core can append the instance suffix it mints (`.<number>`, up to ",
      .number maxInstanceSuffix,
      .text " bytes) and still produce a realm id the wire can carry (64 bytes, vitrin_realm)"]
  else .ok ()

/-! ### One table -/

/-- A program and what it may see. -/
structure RealmSpawn where
  command : List Char
  args : List (List Char)
  envAllow : List (List Char)
  binds : List (List Char)

structure RealmSpec where
  id : List Char
  spawn : RealmSpawn
  autostart : Bool

/-- A table as it is read; a value that a refusal can name has its line. -/
structure RawRealm where
  id : Option (List Char × Nat)
  command : Option (List Char × Nat)
  args : Option (List (List Char))
  envAllow : Option (List (List Char) × Nat)
  binds : Option (List (List Char) × Nat)
  autostart : Option Bool

def isEnvName : List Char → Bool
  | [] => false
  | c :: rest => (c.isAlpha || c = '_') && rest.all fun c => c.isAlphanum || c = '_'

/-- The variables the core decides, and why. -/
def reservedEnv : List (List Char × String) :=
  [("HOME".toList, "it names a directory that does not exist inside a confined realm; the core injects the " ++
      "realm's own " ++
      "private storage at spawn"),
    ("DISPLAY".toList, "it addresses the host X server, which the core scrubs at spawn"),
    ("WAYLAND_DISPLAY".toList, "it addresses a Wayland server: the core scrubs the host value and injects the " ++
      "realm's " ++
      "own private socket at spawn"),
    ("WAYLAND_SOCKET".toList, "libwayland reads it before WAYLAND_DISPLAY and treats its value as an " ++
      "already-connected " ++
      "file descriptor, so passing it through would hand the app a live connection to the host compositor"),
    ("XAUTHORITY".toList, "it is the credential file authenticating a connection to the host X server"),
    ("XDG_RUNTIME_DIR".toList, "it names the host session's private runtime directory (host compositor socket, " ++
      "session " ++
      "bus, agent sockets); the core injects the realm's own runtime directory at spawn")]

def reservedEnvReason (name : List Char) : Option String := (reservedEnv.find? fun r => r.1 = name).map (·.2)

def isAbsolute : List Char → Bool
  | '/' :: _ => true
  | _ => false

/-- The names on a path from the root, without those that stay in place. -/
def components (path : List Char) : List (List Char) :=
  (path.splitOn '/').filter fun name => name ≠ [] ∧ name ≠ ['.']

def samePath (a b : List Char) : Bool := components a = components b

def allowEnv (line : Nat) (allowed : List (List Char)) (name : List Char) : Except ErrorKind (List (List Char)) :=
  if !isEnvName name then
    .error (.parse line [.text "`env_allow` entry ", .quoted name, .text " is not an environment variable name ",
        .text "(expected ",
        .text "[A-Za-z_][A-Za-z0-9_]*; env_allow carries NAMES passed through from the core's environment, not ",
        .text "name=value ",
        .text "pairs)"])
  else match reservedEnvReason name with
    | some why =>
      .error (.parse line [.text "`env_allow` entry ", .quoted name,
        .text " is decided by the core, not by config: ", .text why,
        .text ". The realm's app is confined to its own display server, and that is not a configurable property"])
    | none =>
      if name ∈ allowed then .error (.parse line [.text "duplicate `env_allow` entry ", .quoted name])
      else .ok (allowed ++ [name])

def addBind (line : Nat) (binds : List (List Char)) (entry : List Char) : Except ErrorKind (List (List Char)) :=
  if !isAbsolute entry then
    .error (.parse line [.text "`binds` entry ", .quoted entry, .text " is not an absolute path; a relative ",
        .text "bind source ",
        .text "would resolve against whatever directory the core happened to be started from"])
  else if samePath entry ['/'] || samePath entry "/home".toList then
    .error (.parse line [.text "`binds` entry ", .quoted entry, .text " would mount the operator's whole ",
        .text "filesystem into ",
        .text "the realm, which is the tree confinement exists to hide. Name the specific directory the app's ",
        .text "runtime closure ",
        .text "needs"])
  else if binds.any (samePath entry) then .error (.parse line [.text "duplicate `binds` entry ", .quoted entry])
  else .ok (binds ++ [entry])

def validatedId : Option (List Char × Nat) → Except ErrorKind (List Char)
  | none => .ok wellKnownRealmId
  | some (text, line) => match validateRealmId text with
    | .ok () => .ok text
    | .error detail => .error (.parse line detail)

def validatedCommand (id : List Char) : Option (List Char × Nat) → Except ErrorKind (List Char)
  | none => .error (.invalid [.text "realm ", .text (String.ofList id),
      .text " is missing `command` (the program the realm launches)"])
  | some (command, line) =>
    if command.isEmpty then
      .error (.parse line [.text "`command` is empty; a realm with no app is not a realm with a default app"])
    else if !isAbsolute command then
      .error (.parse line [.text "`command` ", .quoted command, .text " is not an absolute path; a relative ",
        .text "program would ",
        .text "resolve through the core's own $PATH, which this file cannot show"])
    else .ok command

def validatedEnv : Option (List (List Char) × Nat) → Except ErrorKind (List (List Char))
  | none => .ok []
  | some (names, line) => names.foldlM (allowEnv line) []

def validatedBinds : Option (List (List Char) × Nat) → Except ErrorKind (List (List Char))
  | none => .ok []
  | some (paths, line) => paths.foldlM (addBind line) []

def validateRealm (raw : RawRealm) : Except ErrorKind RealmSpec := do
  let id ← validatedId raw.id
  let command ← validatedCommand id raw.command
  let envAllow ← validatedEnv raw.envAllow
  let binds ← validatedBinds raw.binds
  pure ⟨id, ⟨command, raw.args.getD [], envAllow, binds⟩, raw.autostart.getD true⟩

/-! ### The file -/

inductive Table where
  | none
  | realm
  | picker
  deriving DecidableEq

/-- The picker's table as it is read. -/
structure RawPicker where
  root : Option (List Char × Nat)
  lineNo : Nat

structure Reading where
  raw : List RawRealm
  picker : Option RawPicker
  current : Table

def maxRealms : Nat := 16

def tooManyRealms (found : Nat) : ErrorKind :=
  .invalid [.number found, .text " [[realm]] tables, but this session serves at most ", .number maxRealms,
    .text ": each realm is a shim process, a private runtime tree, a lock and up to 18 descriptors in the core, ",
        .text "so the ",
        .text "cap bounds how much of the trusted core's fd table one configuration file can claim (see ",
        .text "MAX_REALMS in ",
        .text "crates/vitrin-core/src/realm.rs for the accounting)"]

/-- A key's value, if the table has none yet. -/
def setOnce {α : Type} (old : Option α) (key : String) (line : Nat) (value : Except SubsetError α) :
    Except ErrorKind (Option α) :=
  if old.isSome then .error (.parse line [.text ("duplicate `" ++ key ++ "` key")])
  else (scanned value).map some

def located {α : Type} (line : Nat) (value : Except SubsetError α) : Except SubsetError (α × Nat) := value.map (·, line)

def RawRealm.set (r : RawRealm) (key value : List Char) (line : Nat) : Except ErrorKind RawRealm :=
  if key = "id".toList then do
    pure { r with id := ← setOnce r.id "id" line (located line (basicString value line)) }
  else if key = "command".toList then do
    pure { r with command := ← setOnce r.command "command" line (located line (basicString value line)) }
  else if key = "args".toList then do
    pure { r with args := ← setOnce r.args "args" line (stringArray value line) }
  else if key = "env_allow".toList then do
    pure { r with envAllow := ← setOnce r.envAllow "env_allow" line (located line (stringArray value line)) }
  else if key = "binds".toList then do
    pure { r with binds := ← setOnce r.binds "binds" line (located line (stringArray value line)) }
  else if key = "autostart".toList then do
    pure { r with autostart := ← setOnce r.autostart "autostart" line (boolean value line) }
  else .error (.parse line [.text "unknown key ", .quoted key,
    .text " (this schema defines id, command, args, env_allow, binds, autostart)"])

def RawPicker.set (p : RawPicker) (key value : List Char) (line : Nat) : Except ErrorKind RawPicker :=
  if key = "root".toList then do
    pure { p with root := ← setOnce p.root "root" line (located line (basicString value line)) }
  else .error (.parse line [.text "unknown key ", .quoted key, .text " (the [[picker]] schema defines root)"])

def Reading.open (s : Reading) (line : List Char) (lineNo : Nat) : Except ErrorKind Reading :=
  match tableHeader line with
  | none => .error (.parse lineNo [.text "malformed table header"])
  | some (header, rest) =>
    if !onlyBlank rest then .error (.parse lineNo [.text "trailing content after table header"])
    else if header = "[[realm]]".toList then
      .ok { s with raw := s.raw ++ [⟨none, none, none, none, none, none⟩], current := .realm }
    else if header = "[[picker]]".toList then
      if s.picker.isSome then
        .error (.parse lineNo [.text "a second [[picker]] table: this file declares one picker root for the ",
        .text "session, ",
        .text "and two would leave which one is in force to the order they happen to appear in"])
      else .ok { s with picker := some ⟨none, lineNo⟩, current := .picker }
    else .error (.parse lineNo [.text "unknown table ", .text (String.ofList header),
      .text " (this file declares [[realm]] tables and at most one [[picker]] table)"])

def Reading.set (s : Reading) (line : List Char) (lineNo : Nat) : Except ErrorKind Reading :=
  match splitOnce ['='] line with
  | none => .error (.parse lineNo [.text "expected `key = value`"])
  | some (key, value) =>
    match s.current, s.picker, s.raw.getLast? with
    | .picker, some picker, _ => do
      pure { s with picker := some (← picker.set (trim key) (trimStart value) lineNo) }
    | _, _, none => .error (.parse lineNo [.text "key outside any table (top-level keys are not allowed)"])
    | _, _, some realm => do
      pure { s with raw := s.raw.dropLast ++ [← realm.set (trim key) (trimStart value) lineNo] }

def Reading.line (s : Reading) (rawLine : List Char) (lineNo : Nat) : Except ErrorKind Reading :=
  let line := trim rawLine
  match line with
  | [] => .ok s
  | '#' :: _ => .ok s
  | '[' :: _ => s.open line lineNo
  | _ => s.set line lineNo

def pickerRoot : Option RawPicker → Except ErrorKind (Option (List Char))
  | none => .ok none
  | some p => match p.root with
    | none => .error (.parse p.lineNo [.text "a [[picker]] table with no `root` key: declaring the table is how a ",
        .text "deployment says it serves designations, so leaving the directory out is refused rather than ",
        .text "filled in with a ",
        .text "guess"])
    | some (root, lineNo) =>
      if !isAbsolute root then
        .error (.parse lineNo [.text "picker root ", .text (String.ofList root), .text " is relative; it must be an ",
        .text "absolute path, because it is resolved against no working directory and is the boundary every ",
        .text "designation is ",
        .text "contained beneath"])
      else .ok (some root)

structure ParsedConfig where
  specs : List RealmSpec
  pickerRoot : Option (List Char)

def parseConfig (text : List Char) : Except ErrorKind ParsedConfig := do
  let read ← (lines text).zipIdx.foldlM (fun s (line, idx) => s.line line (idx + 1)) (⟨[], none, .none⟩ : Reading)
  if maxRealms < read.raw.length then .error (tooManyRealms read.raw.length)
  else do
    let root ← Vitrin.pickerRoot read.picker
    let specs ← read.raw.mapM validateRealm
    pure ⟨specs, root⟩

/-! ### The registry -/

/-- The names a realm claims in the runtime directory: its own directory, and beside it the lock. -/
def runtimeNamesClaimedBy (id : List Char) : List (List Char) := [id, id ++ lockSuffix]

def reservedRuntimeNames : List (List Char) := [coreSocketName, coreSocketName ++ lockSuffix]

def realmIdOf (id : List Char) : RealmId := ⟨String.ofList id⟩

def RealmId.chars (id : RealmId) : List Char := id.name.toList

variable {id : List Char}

@[simp] theorem chars_realmIdOf : (realmIdOf id).chars = id := String.toList_ofList

theorem RealmId.chars_injective {a b : RealmId} (h : a.chars = b.chars) : a = b := by
  exact congrArg RealmId.mk (String.toList_inj.1 h)

structure BookRealm where
  id : RealmId
  spawn : RealmSpawn
  state : RealmState
  template : Option RealmId

/-- The declared realm behind a realm: itself, if it was declared. -/
def BookRealm.templateRoot (r : BookRealm) : RealmId := r.template.getD r.id

/-- The realm registry with what launching reads. -/
structure RealmBook where
  realms : OrdMap RealmId BookRealm
  keyed : ∀ id r, realms.get? id = some r → r.id = id
  nextInstance : Nat

def RealmSpec.realm (spec : RealmSpec) : BookRealm :=
  ⟨realmIdOf spec.id, spec.spawn, if spec.autostart then .configured else .template, none⟩

def fileSpec (realms : OrdMap RealmId BookRealm) (spec : RealmSpec) : Except ErrorKind (OrdMap RealmId BookRealm) :=
  if (realms.get? (realmIdOf spec.id)).isSome then .error (.invalid [.text "duplicate realm id ", .quoted spec.id])
  else .ok (realms.insert (realmIdOf spec.id) spec.realm)

def claimName (claimed : List (List Char × RealmId)) (x : List Char × RealmId) :
    Except ErrorKind (List (List Char × RealmId)) :=
  match claimed.lookup x.1 with
  | some other =>
    .error (.invalid [.text "realms ", .quoted other.chars, .text " and ", .quoted x.2.chars, .text " would both own ",
      .quoted x.1, .text " in the session's runtime directory ($XDG_RUNTIME_DIR/vitrin-0/): every realm gets a ",
      .text "private directory <id>/ and, beside it, a lock file <id>.lock, so an id ending in .lock names another ",
      .text "realm's lock. Rename one of them"])
  | none => .ok (x :: claimed)

def claims (ids : List RealmId) : List (List Char × RealmId) :=
  ids.flatMap fun id => (runtimeNamesClaimedBy id.chars).map (·, id)

/-- Whether a realm claims a name of the core's; the first that does, by name and by id. -/
def claimedReserved (ids : List RealmId) : Option (List Char × RealmId) :=
  reservedRuntimeNames.findSome? fun reserved =>
    (ids.find? fun id => reserved ∈ runtimeNamesClaimedBy id.chars).map (reserved, ·)

/-- Refuse ids that would fight over a name in the runtime directory. -/
def rejectRuntimeNameCollisions (ids : List RealmId) : Except ErrorKind Unit :=
  match claimedReserved ids with
  | some (reserved, id) =>
    .error (.invalid [.text "realm ", .quoted id.chars, .text " claims ", .quoted reserved,
      .text " in the session's runtime directory, which belongs to the core's own listener ",
      .text "($XDG_RUNTIME_DIR/vitrin-0/", .text (String.ofList reserved), .text "). Rename the realm"])
  | none => ((claims ids).foldlM claimName []).map fun _ => ()

def RealmBook.ids (b : RealmBook) : List RealmId := b.realms.entries.map (·.1)

def fileSpecs (specs : List RealmSpec) : Except ErrorKind (OrdMap RealmId BookRealm) := specs.foldlM fileSpec .empty

variable {spec : RealmSpec}

theorem fileSpec_eq_ok {r r' : OrdMap RealmId BookRealm} (h : fileSpec r spec = .ok r') :
    r.get? (realmIdOf spec.id) = none ∧ r' = r.insert (realmIdOf spec.id) spec.realm := by
  simp only [fileSpec] at h
  split at h
  · cases h
  · rename_i hf
    exact ⟨by simpa using hf, (Except.ok.inj h).symm⟩

variable {s : List RealmSpec}

theorem foldlM_fileSpec {re r' : OrdMap RealmId BookRealm} (h : s.foldlM fileSpec re = .ok r')
    {id : RealmId} {r : BookRealm} (hr : r'.get? id = some r) :
    re.get? id = some r ∨ ∃ spec ∈ s, id = realmIdOf spec.id ∧ r = spec.realm := by
  induction s generalizing re with
  | nil =>
    cases h
    exact .inl hr
  | cons spec s ih =>
    obtain ⟨next, hf, h⟩ := bind_eq_ok.mp h
    obtain ⟨-, rfl⟩ := fileSpec_eq_ok hf
    obtain hn | ⟨s', hs', hi⟩ := ih h
    · rw [OrdMap.get?_insert] at hn
      split at hn
      · rename_i hi
        exact .inr ⟨spec, .head _, hi, (Option.some.inj hn).symm⟩
      · exact .inl hn
    · exact .inr ⟨s', .tail _ hs', hi⟩

theorem fileSpecs_spec {re : OrdMap RealmId BookRealm} (h : fileSpecs s = .ok re) {id : RealmId}
    {r : BookRealm} (hr : re.get? id = some r) : ∃ spec ∈ s, id = realmIdOf spec.id ∧ r = spec.realm := by
  obtain he | hs := foldlM_fileSpec h hr
  · cases he
  · exact hs

/-- Make the registry of a file's tables. -/
def fromSpecs (specs : List RealmSpec) : Except ErrorKind RealmBook :=
  if specs.isEmpty then .error (.invalid [.text "no [[realm]] table: the core has nothing to serve"])
  else if maxRealms < specs.length then .error (tooManyRealms specs.length)
  else match hfiled : fileSpecs specs with
    | .error e => .error e
    | .ok realms =>
      if !realms.entries.any fun x => x.2.state ≠ .template then
        .error (.invalid [.text "every [[realm]] sets `autostart = false`, so this session would come up with no app ",
          .text "running, no realm on the output and nothing for a human to look at. At least one realm must ",
          .text "autostart; a template is something to launch FROM, not a session"])
      else if (realms.get? (realmIdOf wellKnownRealmId)).isNone then
        .error (.invalid [.text "no realm is named ", .quoted wellKnownRealmId,
          .text ", which every configuration must include: the IDL declares it the single well-known realm of version ",
          .text "1 and the wire carries no way to enumerate the others, so it is the one realm name a conformant ",
          .text "client can know without being told. A session without it answers every such client's get_realm(",
          .quoted wellKnownRealmId, .text ") petition `unavailable`, forever. Declared realms: ",
          .text (", ".intercalate (realms.entries.map (·.1.name)))])
      else match rejectRuntimeNameCollisions (realms.entries.map (·.1)) with
        | .error e => .error e
        | .ok () => .ok
          { realms
            keyed := by
              intro id r hr
              obtain ⟨spec, -, rfl, rfl⟩ := fileSpecs_spec hfiled hr
              rfl
            nextInstance := 1 }

/-! ### What gets through -/

structure Declared (id : List Char) : Prop where
  nonempty : id ≠ []
  legal : id.all realmIdChar = true
  short : byteLength id ≤ maxDeclaredIdBytes
  plain : looksLikeAnInstanceId id = false

theorem declared_of_validateRealmId (h : validateRealmId id = .ok ()) : Declared id := by
  obtain ⟨u, ht, h⟩ := bind_eq_ok.mp h
  simp only [validateTransportRealmId] at ht
  split_ifs at ht with hl
  split_ifs at h with hloo hlo
  simp only [Bool.and_eq_true, Bool.not_eq_true', List.isEmpty_eq_false_iff] at hl
  exact ⟨hl.1.1.1.1, hl.2, not_lt.1 hlo, Bool.eq_false_iff.2 hloo⟩

theorem declared_wellKnownRealmId : Declared wellKnownRealmId := declared_of_validateRealmId (by decide)

theorem validatedId_declared {r : Option (List Char × Nat)} (h : validatedId r = .ok id) : Declared id := by
  cases r with
  | none => exact Except.ok.inj h ▸ declared_wellKnownRealmId
  | some x =>
    simp only [validatedId] at h
    split at h
    · rename_i hv
      exact Except.ok.inj h ▸ declared_of_validateRealmId hv
    · cases h

theorem validateRealm_declared {r : RawRealm} (h : validateRealm r = .ok spec) : Declared spec.id := by
  obtain ⟨id, hi, h⟩ := bind_eq_ok.mp h
  obtain ⟨c, -, h⟩ := bind_eq_ok.mp h
  obtain ⟨e, -, h⟩ := bind_eq_ok.mp h
  obtain ⟨b, -, h⟩ := bind_eq_ok.mp h
  cases h
  exact validatedId_declared hi

/-- Every id of an accepted file is one the rule for declared ids accepts. -/
theorem parseConfig_declared {t : List Char} {c : ParsedConfig} (h : parseConfig t = .ok c)
    (hs : spec ∈ c.specs) : Declared spec.id := by
  obtain ⟨r, -, h⟩ := bind_eq_ok.mp h
  split at h
  · cases h
  · obtain ⟨ro, -, h⟩ := bind_eq_ok.mp h
    obtain ⟨s, hsp, h⟩ := bind_eq_ok.mp h
    cases h
    obtain ⟨ra, -, hr⟩ := mem_of_mapM_eq_ok hsp hs
    exact validateRealm_declared hr

/-- What a run of claims leaves: the names are pairwise different, and none was claimed before. -/
theorem foldlM_claimName {l : List (List Char × RealmId)} {c c' : List (List Char × RealmId)}
    (h : l.foldlM claimName c = .ok c') : (l.map (·.1)).Nodup ∧ ∀ n ∈ l.map (·.1), n ∉ c.map (·.1) := by
  induction l generalizing c with
  | nil => exact ⟨List.nodup_nil, fun n hn => nomatch hn⟩
  | cons x l ih =>
    obtain ⟨next, hne, h⟩ := bind_eq_ok.mp h
    obtain ⟨hno, hfr⟩ := ih h
    simp only [claimName] at hne
    split at hne
    · cases hne
    · rename_i hf
      cases hne
      have hx : x.1 ∉ c.map (·.1) := by
        rw [List.lookup_eq_none_iff] at hf
        intro hm
        obtain ⟨y, hy, hxy⟩ := List.mem_map.1 hm
        exact absurd (hf y hy) (by simp [hxy])
      constructor
      · rw [List.map_cons, List.nodup_cons]
        exact ⟨fun hm => hfr _ hm (by simp), hno⟩
      · intro n hn
        obtain rfl | hn := List.mem_cons.1 hn
        · exact hx
        · exact fun hm => hfr n hn (.tail _ hm)

/-- Ids that are not refused claim pairwise different names, and none of the core's. -/
theorem nodup_of_rejectRuntimeNameCollisions {ids : List RealmId} (h : rejectRuntimeNameCollisions ids = .ok ()) :
    (reservedRuntimeNames ++ ids.flatMap fun id => runtimeNamesClaimedBy id.chars).Nodup := by
  simp only [rejectRuntimeNameCollisions] at h
  split at h
  · cases h
  · rename_i hr
    have hna : (claims ids).map (·.1) = ids.flatMap fun id => runtimeNamesClaimedBy id.chars := by
      simp [claims, List.map_flatMap, Function.comp_def]
    obtain ⟨claimed, hc⟩ : ∃ claimed, (claims ids).foldlM claimName [] = .ok claimed := by
      cases hf : (claims ids).foldlM claimName [] with
      | error e =>
        rw [hf] at h
        cases h
      | ok claimed => exact ⟨claimed, rfl⟩
    refine List.nodup_append.2 ⟨by decide, hna ▸ (foldlM_claimName hc).1, ?_⟩
    intro reserved hre name hn he
    obtain ⟨id, hi, hcl⟩ := List.mem_flatMap.1 hn
    simp only [claimedReserved, List.findSome?_eq_none_iff, Option.map_eq_none_iff, List.find?_eq_none,
      decide_eq_true_eq] at hr
    exact hr reserved hre id hi (he ▸ hcl)

/-- The registry of an accepted file: every realm is declared, it is its own root, and no two names clash. -/
theorem fromSpecs_names {b : RealmBook} (h : fromSpecs s = .ok b) :
    b.nextInstance = 1 ∧
    (∀ id r, b.realms.get? id = some r → r.templateRoot = id ∧ ∃ spec ∈ s, id.chars = spec.id) ∧
    (reservedRuntimeNames ++ b.ids.flatMap fun id => runtimeNamesClaimedBy id.chars).Nodup := by
  simp only [fromSpecs] at h
  split_ifs at h
  split at h
  · cases h
  · rename_i re hf
    split_ifs at h
    split at h
    · cases h
    · rename_i hn
      cases h
      refine ⟨rfl, ?_, nodup_of_rejectRuntimeNameCollisions hn⟩
      intro id r hr
      obtain ⟨spec, hs, rfl, rfl⟩ := fileSpecs_spec hf hr
      exact ⟨rfl, spec, hs, chars_realmIdOf⟩

end Vitrin
