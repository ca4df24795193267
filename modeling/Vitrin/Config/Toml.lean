import Vitrin.Lib.Splits

/-!
# The configuration files' subset of TOML

The core reads its configuration with a scanner of its own, over a subset of TOML that has
tables in lists, basic strings with two escapes, arrays of them on one line, and booleans.

A text is the list of its characters. The scanners take what is left of a line and the
line's number, and return what they read; a refusal says the line and why. White space and
control characters are Unicode's, as the source's standard library has them.
-/

namespace Vitrin

open Lib

namespace Toml

/-- Characters of white space (`char::is_whitespace`). -/
def isWhitespace (c : Char) : Bool :=
  let n := c.toNat
  (0x09 ≤ n && n ≤ 0x0d) || n = 0x20 || n = 0x85 || n = 0xa0 || n = 0x1680 || (0x2000 ≤ n && n ≤ 0x200a) ||
    n = 0x2028 || n = 0x2029 || n = 0x202f || n = 0x205f || n = 0x3000

/-- Control characters (`char::is_control`). -/
def isControl (c : Char) : Bool := c.toNat ≤ 0x1f || (0x7f ≤ c.toNat && c.toNat ≤ 0x9f)

def trimStart (text : List Char) : List Char := text.dropWhile isWhitespace

def trim (text : List Char) : List Char := (trimStart text).rdropWhile isWhitespace

/-- The lines of a text; `seen` is the line so far, last character first. -/
def linesFrom (seen : List Char) : List Char → List (List Char)
  | [] => if seen = [] then [] else [seen.reverse]
  | c :: rest =>
    if c = '\n' then
      (match seen with
        | '\r' :: seen => seen.reverse
        | seen => seen.reverse) :: linesFrom [] rest
    else linesFrom (c :: seen) rest

/-- The lines of a text, which end in a line feed or in a carriage return and a line feed (`str::lines`). -/
def lines (text : List Char) : List (List Char) := linesFrom [] text

structure SubsetError where
  line : Nat
  detail : String

def tableHeader (line : List Char) : Option (List Char × List Char) :=
  match line.dropPrefix? ['[', '['] with
  | none => none
  | some rest => match splitOnce [']', ']'] rest with
    | none => none
    | some (name, after) =>
      if name.all (fun c => c.isAlphanum || c = '_') && !name.isEmpty then
        some (['[', '['] ++ name ++ [']', ']'], after)
      else none

/-- Only white space or a comment follows. -/
def onlyBlank (rest : List Char) : Bool := match trimStart rest with
  | [] => true
  | c :: _ => c = '#'

/-- Only white space or a comment may follow. -/
def trailingBlank (rest : List Char) (line : Nat) (what : String) : Except SubsetError Unit :=
  if onlyBlank rest then .ok () else .error ⟨line, "trailing content after " ++ what⟩

/-- The rest of a basic string, after what has been read of it. -/
def scanFrom (line : Nat) (out : List Char) (escaped : Bool) : List Char → Except SubsetError (List Char × List Char)
  | [] => .error ⟨line, "unterminated string value"⟩
  | c :: rest =>
    if escaped then
      if c = '\\' ∨ c = '"' then scanFrom line (out ++ [c]) false rest
      else .error ⟨line, "escape outside the supported subset (only \\\\ and \\\" are allowed)"⟩
    else if c = '\\' then scanFrom line out true rest
    else if c = '"' then .ok (out, rest)
    else if isControl c then .error ⟨line, "control character inside string value"⟩
    else scanFrom line (out ++ [c]) false rest

def scanBasicString (value : List Char) (line : Nat) : Except SubsetError (List Char × List Char) := match value with
  | '"' :: rest => scanFrom line [] false rest
  | _ => .error ⟨line, "expected a double-quoted string value"⟩

variable {x : List Char × List Char} {l : Nat}

theorem scanFrom_length {o : List Char} {e : Bool} {v : List Char}
    (h : scanFrom l o e v = .ok x) : x.2.length < v.length := by
  induction v generalizing o e with
  | nil => cases h
  | cons c r ih =>
    have hr {o : List Char} {e : Bool} (h : scanFrom l o e r = .ok x) :
        x.2.length < (c :: r).length := Nat.lt_succ_of_lt (ih h)
    rw [scanFrom] at h
    split_ifs at h
    · exact hr h
    · exact hr h
    · cases h
      exact Nat.lt_succ_self _
    · exact hr h

theorem scanBasicString_length {v : List Char} (h : scanBasicString v l = .ok x) : x.2.length < v.length := by
  simp only [scanBasicString] at h
  split at h
  · exact Nat.lt_succ_of_lt (scanFrom_length h)
  · cases h

theorem length_trimStart_le (t : List Char) : (trimStart t).length ≤ t.length :=
  (List.dropWhile_sublist isWhitespace).length_le

def basicString (value : List Char) (line : Nat) : Except SubsetError (List Char) := do
  let (parsed, rest) ← scanBasicString value line
  trailingBlank rest line "string value"
  pure parsed

def closeArray (line : Nat) (out : List (List Char)) (after : List Char) : Except SubsetError (List (List Char)) := do
  trailingBlank after line "array value"
  pure out

/-- What stands between the elements of an array; nothing before the first. -/
def separator (line : Nat) (first : Bool) (rest : List Char) : Except SubsetError (List Char) :=
  if first then .ok rest
  else match rest with
    | ',' :: rest => .ok (trimStart rest)
    | _ => .error ⟨line, "expected `,` or `]` in array value"⟩

theorem separator_length {f : Bool} {r r' : List Char} (h : separator l f r = .ok r') : r'.length ≤ r.length := by
  simp only [separator] at h
  split at h
  · cases h
    exact le_rfl
  · split at h
    · cases h
      exact Nat.le_succ_of_le (length_trimStart_le _)
    · cases h

def arrayFrom (line : Nat) (out : List (List Char)) (rest : List Char) : Except SubsetError (List (List Char)) :=
  match rest with
  | ']' :: after => closeArray line out after
  | rest => match _hsep : separator line out.isEmpty rest with
    | .error e => .error e
    | .ok (']' :: after) => closeArray line out after
    | .ok next => match _hscan : scanBasicString next line with
      | .error e => .error e
      | .ok (element, after) => arrayFrom line (out ++ [element]) (trimStart after)
termination_by rest.length
decreasing_by
  have hnext := separator_length _hsep
  have hafter := scanBasicString_length _hscan
  have htrim := length_trimStart_le after
  simp only at hafter
  omega

def stringArray (value : List Char) (line : Nat) : Except SubsetError (List (List Char)) := match value with
  | '[' :: rest => arrayFrom line [] (trimStart rest)
  | _ => .error ⟨line, "expected an array value, e.g. `[\"a\", \"b\"]`"⟩

def boolean (value : List Char) (line : Nat) : Except SubsetError Bool :=
  match value.dropPrefix? "true".toList, value.dropPrefix? "false".toList with
  | some rest, _ => do
    trailingBlank rest line "boolean value"
    pure true
  | none, some rest => do
    trailingBlank rest line "boolean value"
    pure false
  | none, none => .error ⟨line, "expected `true` or `false` (TOML booleans are lowercase and unquoted)"⟩

end Toml

end Vitrin
