import OrderTelemetry.Settings.Environment

/-!
# Files with variables

A file may add variables to the environment, one on a line: a name, an equals sign and a value, with
`export` before the name if one likes.  A variable that the environment already has keeps its value.

A value may be quoted.  Between double quotes and outside of quotes a backslash escapes the
character behind it, and a dollar sign with a name, possibly in braces, stands for the value of
another variable; between single quotes every character stands for itself.  A quoted value may go
over several lines.  Reading stops at the first line that is none of this; what the lines before it
say still holds.
-/

namespace OrderTelemetry.DotEnv

/-! ### Lines -/

/-- Where a reader stands that looks for the end of a line. -/
inductive Scan where
  | complete
  | blank
  | escape
  | single
  | singleEscape
  | double
  | doubleEscape
  deriving DecidableEq, Repr

/-- Where the reader stands after another character.  It is nowhere once a comment begins. -/
def Scan.after (c : Char) : Scan → Option Scan
  | blank =>
    if c = '#' then none
    else if c = '\\' then some escape
    else if c = '"' then some double
    else if c = '\x27' then some single
    else some complete
  | escape => some complete
  | complete =>
    if c = '\\' then some escape
    else if c = '"' then some double
    else if c = '\x27' then some single
    else if Text.isBlank c ∧ c ≠ '\n' ∧ c ≠ '\r' then some blank
    else some complete
  | double =>
    if c = '\\' then some doubleEscape else if c = '"' then some complete else some double
  | doubleEscape => some double
  | single =>
    if c = '\\' then some singleEscape else if c = '\x27' then some complete else some single
  | singleEscape => some single

/-- The characters before a comment, and where the reader stands after all of them if there is
none. -/
def scan : Scan → List Char → List Char × Option Scan
  | state, [] => ([], some state)
  | state, c :: rest => match state.after c with
    | none => ([], none)
    | some next =>
      let (before, last) := scan next rest
      (c :: before, last)

/-- The characters up to the next line feed and with it, and the rest. -/
def physicalLine : List Char → List Char × List Char
  | [] => ([], [])
  | c :: rest =>
    if c = '\n' then ([c], rest)
    else
      let (line, rest) := physicalLine rest
      (c :: line, rest)

/-- The characters without the line feed at their end and a carriage return before it. -/
def withoutNewline (s : List Char) : List Char :=
  match s.reverse with
  | '\n' :: '\r' :: before => before.reverse
  | '\n' :: before => before.reverse
  | _ => s

/-- The next line, which goes on as long as a quote is open, and the rest.  There is none at the end
of the text, nor if the text ends inside a line.  The first argument bounds the number of line
feeds. -/
def nextLine : Nat → Scan → List Char → List Char → Option (List Char × List Char)
  | 0, _, _, _ => none
  | _ + 1, _, _, [] => none
  | n + 1, state, read, s =>
    let (line, rest) := physicalLine s
    let all := read ++ line
    if (Text.trimStart all).head? = some '#' then some ([], rest)
    else match scan state line with
      | (before, none) => some (read ++ before, rest)
      | (_, some .complete) => some (withoutNewline all, rest)
      | (_, some state) => nextLine n state all rest

/-! ### Values -/

/-- Where a reader of a value stands. -/
inductive Place where
  | plain
  | escaped
  | single
  /-- After a dollar sign, with the letters of the name so far, the last one first. -/
  | dollar (name : List Char)
  /-- Inside the braces after a dollar sign. -/
  | braces (name : List Char)
  /-- After the value: nothing but blanks and a comment may come. -/
  | after
  deriving DecidableEq, Repr

/-- What has been read of a value, the last character first. -/
structure ValueReading where
  place : Place
  /-- Whether a double quote is open. -/
  quoted : Bool
  output : List Char

/-- The character that an escape stands for. -/
def escape (c : Char) : Option Char :=
  if c = '\\' ∨ c = '\x27' ∨ c = '"' ∨ c = '$' ∨ c = ' ' then some c
  else if c = 'n' then some '\n'
  else none

/-- The output with the value of a variable whose name is given backwards. -/
def substituted (lookup : String → String) (name output : List Char) : List Char :=
  (lookup (String.ofList name.reverse)).toList.reverse ++ output

/-- Reads another character of a value.  The rest of a comment is passed over by `readValue`. -/
def ValueReading.step (lookup : String → String) (r : ValueReading) (c : Char) :
    Option ValueReading :=
  match r.place with
  | .after => if c = ' ' ∨ c = '\t' then some r else none
  | .escaped => (escape c).map fun d => { r with place := .plain, output := d :: r.output }
  | .single =>
    if c = '\x27' then some { r with place := .plain } else some { r with output := c :: r.output }
  | .dollar name =>
    if c.isAlphanum then some { r with place := .dollar (c :: name) }
    else if c = '{' ∧ name.isEmpty then some { r with place := .braces [] }
    else
      let output := substituted lookup name r.output
      if c = '$' then some { r with place := .dollar [], output }
      else some { r with place := .plain, output := c :: output }
  | .braces name =>
    if c = '}' then some { r with place := .plain, output := substituted lookup name r.output }
    else some { r with place := .braces (c :: name) }
  | .plain =>
    if c = '$' then some { r with place := .dollar [] }
    else if c = '\\' then some { r with place := .escaped }
    else if r.quoted then
      if c = '"' then some { r with quoted := false } else some { r with output := c :: r.output }
    else if c = '\x27' then some { r with place := .single }
    else if c = '"' then some { r with quoted := true }
    else if c = ' ' ∨ c = '\t' then some { r with place := .after }
    else some { r with output := c :: r.output }

/-- The value once all characters have been read. -/
def ValueReading.finish (lookup : String → String) (r : ValueReading) : Option String :=
  if r.quoted then none
  else match r.place with
    | .single => none
    | .braces _ => none
    | .dollar name => some (String.ofList (substituted lookup name r.output).reverse)
    | _ => some (String.ofList r.output.reverse)

/-- Reads a value. -/
def readValue (lookup : String → String) : ValueReading → List Char → Option String
  | r, [] => r.finish lookup
  | r, c :: rest =>
    if r.place = .after ∧ c = '#' then r.finish lookup
    else (r.step lookup c).bind fun r => readValue lookup r rest

/-! ### Assignments -/

/-- The name at the front of a line. -/
def name (s : List Char) : Option (String × List Char) :=
  match s with
  | c :: _ =>
    if c.isAlpha || c = '_' then
      let isPart (c : Char) : Bool := c.isAlphanum || c = '_' || c = '.'
      some (String.ofList (s.takeWhile isPart), s.dropWhile isPart)
    else none
  | [] => none

/-- What remains after an equals sign. -/
def equals : List Char → Option (List Char)
  | '=' :: rest => some rest
  | _ => none

/-- The name at the front of a line and what remains after its equals sign. -/
def target (s : List Char) : Option (String × List Char) := do
  let (first, rest) ← name s
  let rest := Text.trimStart rest
  match first, equals rest with
  | "export", none =>
    let (second, rest) ← name rest
    return (second, ← equals (Text.trimStart rest))
  | _, found => return (first, ← found)

/-- The variable that a line sets, if it sets one.  A line that cannot be read gives none at all. -/
def assignment (lookup : String → String) (line : List Char) : Option (Option (String × String)) :=
  match Text.trimStart (Text.trimEnd line) with
  | [] => some none
  | '#' :: _ => some none
  | s => do
    let (key, rest) ← target s
    match Text.trimStart rest with
    | [] => return some (key, "")
    | '#' :: _ => return some (key, "")
    | rest => return some (key, ← readValue lookup ⟨.plain, false, []⟩ rest)

/-- The environment with the variables of the lines that can be read.  `seen` holds the values of
the lines so far, which another value may refer to.  The first argument bounds the number of
lines. -/
def extend : Nat → Environment → Environment → List Char → Environment
  | 0, env, _, _ => env
  | n + 1, env, seen, s =>
    let lookup (name : String) : String :=
      ((env.value? name).or (seen.value? name)).getD ""
    match nextLine (s.length + 1) .complete [] s with
    | none => env
    | some (line, rest) => match assignment lookup line with
      | none => env
      | some none => extend n env seen rest
      | some (some (key, v)) => extend n (env.withMissing key v) ((key, v) :: seen) rest

/-- The environment with the variables of a file. -/
def load (env : Environment) (text : String) : Environment :=
  let s := match text.toList with
    | c :: rest => if c = '\uFEFF' then rest else c :: rest
    | [] => []
  extend (s.length + 1) env [] s

end OrderTelemetry.DotEnv
