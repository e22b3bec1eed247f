import OrderTelemetry.Settings.Toml.Number
import OrderTelemetry.Settings.Value

/-!
# TOML documents

A document is a list of lines that name tables and give values to keys.  Keys with points open
tables on the way.  A table may be named once, and a key may get a value once: `Entry.within` walks
to a table and opens what is missing, and every entry remembers how it came about.
-/

namespace OrderTelemetry.Toml

/-- How a table came about. -/
inductive Origin where
  /-- Its name stood at the head of a section. -/
  | named
  /-- A table in it was named. -/
  | implied
  /-- A key with points opened it. -/
  | dotted
  deriving DecidableEq, Repr

/-- An entry of a table. -/
inductive Entry where
  | value (v : Setting)
  | table (origin : Origin) (members : List (String × Entry))
  /-- A list of tables that were named one by one. -/
  | tables (items : List (List (String × Entry)))

namespace Entry

/-- The entries of a table. -/
abbrev Members := List (String × Entry)

/-- Replaces the entry with a name, or adds one. -/
def replace (name : String) (e : Entry) : Members → Members
  | [] => [(name, e)]
  | (key, old) :: rest =>
    if key = name then (key, e) :: rest else (key, old) :: replace name e rest

/-- Changes the entries of the table at a path, which starts at a table of some origin.  Missing
tables are opened.  In a list of tables the path leads to the last one.  A key with points must not
enter a table that has been named. -/
def within (byKey : Bool) (change : Origin → Members → Option Members) :
    List String → Origin → Members → Option Members
  | [], origin, ms => change origin ms
  | name :: path, _, ms =>
    match ms.lookup name with
    | none => do
      let origin := if byKey then Origin.dotted else .implied
      let inner ← within byKey change path origin []
      return replace name (table origin inner) ms
    | some (value _) => none
    | some (table origin inner) =>
      if byKey ∧ origin = .named then none
      else do
        let inner ← within byKey change path origin inner
        return replace name (table origin inner) ms
    | some (tables items) => do
      let inner ← within byKey change path .named (← items.getLast?)
      return replace name (tables (items.dropLast ++ [inner])) ms

/-- Gives a key of a table a value.  `path` holds the parts of the key before the last one. -/
def assign (path : List String) (name : String) (e : Entry) (ms : Members) : Option Members :=
  within true (fun origin inner =>
    if !path.isEmpty ∧ origin ≠ .dotted then none
    else if (inner.lookup name).isSome then none
    else some (inner ++ [(name, e)])) path .named ms

/-- Names the table at a path. -/
def define (path : List String) (name : String) (root : Members) : Option Members :=
  within false (fun _ ms => match ms.lookup name with
    | none => some (ms ++ [(name, table .named [])])
    | some (table .implied inner) => some (replace name (table .named inner) ms)
    | some _ => none) path .named root

/-- Adds a table to the list of tables at a path. -/
def append (path : List String) (name : String) (root : Members) : Option Members :=
  within false (fun _ ms => match ms.lookup name with
    | none => some (ms ++ [(name, tables [[]])])
    | some (tables items) => some (replace name (tables (items ++ [[]])) ms)
    | some _ => none) path .named root

mutual

/-- The value of an entry. -/
def toSetting : Entry → Setting
  | value v => v
  | table _ ms => .table (membersToSettings ms)
  | tables items => .list (itemsToSettings items)

/-- The values of the entries of a table. -/
def membersToSettings : Members → List (String × Setting)
  | [] => []
  | (name, e) :: rest => (name, toSetting e) :: membersToSettings rest

/-- The values of a list of tables. -/
def itemsToSettings : List Members → List Setting
  | [] => []
  | ms :: rest => .table (membersToSettings ms) :: itemsToSettings rest

end

end Entry

/-! ### Keys -/

/-- Whether a character can stand in a key without quotes. -/
def isBare (c : Char) : Bool := c.isAlphanum || c = '_' || c = '-'

/-- A part of a key. -/
def keyPart (s : List Char) : Option (String × List Char) :=
  match s with
  | c :: _ =>
    if c = '"' ∨ c = apostrophe then lineText s
    else
      let found := s.takeWhile isBare
      if found.isEmpty then none else some (String.ofList found, s.dropWhile isBare)
  | [] => none

/-- The parts of a key: those before the last one, and the last one.  The first argument bounds
their number. -/
def key : Nat → Reader (List String × String)
  | 0, _ => none
  | n + 1, s => do
    let (part, rest) ← keyPart s
    match skipBlanks rest with
    | '.' :: more =>
      let ((path, name), rest) ← key n (skipBlanks more)
      return ((part :: path, name), rest)
    | _ => return (([], part), rest)

/-! ### Values -/

/-- A number or a time. -/
def scalar (s : List Char) : Option (Setting × List Char) :=
  ((moment s).map fun (t, rest) => (Setting.text t, rest)).or <|
  ((real s).map fun (x, rest) => (Setting.real x, rest)).or <|
  (integer s).map fun (n, rest) => (Setting.integer n, rest)

mutual

/-- A value.  The first argument bounds the number of values, items and members. -/
def value : Nat → Reader Setting
  | 0, _ => none
  | n + 1, s => match s with
    | '[' :: rest => do
      let (items, rest) ← items n (skipLines rest.length rest)
      return (.list items, rest)
    | '{' :: rest => do
      let (ms, rest) ← inlineMembers n [] (skipBlanks rest)
      return (.table (Entry.membersToSettings ms), rest)
    | 't' :: 'r' :: 'u' :: 'e' :: rest => some (.boolean true, rest)
    | 'f' :: 'a' :: 'l' :: 's' :: 'e' :: rest => some (.boolean false, rest)
    | c :: _ =>
      if c = '"' ∨ c = apostrophe then (text s).map fun (t, rest) => (.text t, rest)
      else scalar s
    | [] => none

/-- The items of a list up to its end. -/
def items : Nat → Reader (List Setting)
  | 0, _ => none
  | n + 1, s => match s with
    | ']' :: rest => some ([], rest)
    | _ => do
      let (v, rest) ← value n s
      match skipLines rest.length rest with
      | ',' :: rest =>
        let (more, rest) ← items n (skipLines rest.length rest)
        return (v :: more, rest)
      | ']' :: rest => return ([v], rest)
      | _ => none

/-- The members of a table on one line up to its end, added to those before them. -/
def inlineMembers : Nat → Entry.Members → Reader Entry.Members
  | 0, _, _ => none
  | n + 1, ms, s => match ms, s with
    | [], '}' :: rest => some ([], rest)
    | _, _ => do
      let ((path, name), rest) ← key (s.length + 1) s
      let ((), rest) ← character '=' (skipBlanks rest)
      let (v, rest) ← value n (skipBlanks rest)
      let ms ← Entry.assign path name (.value v) ms
      match skipBlanks rest with
      | ',' :: rest => match skipBlanks rest with
        | '}' :: _ => none
        | rest => inlineMembers n ms rest
      | '}' :: rest => return (ms, rest)
      | _ => none

end

/-! ### Lines -/

/-- What remains after the end of a line. -/
def endOfLine (s : List Char) : Option (List Char) :=
  match skipComment (skipBlanks s) with
  | [] => some []
  | rest => newline? rest

/-- What has been read of a document: its entries, and the path of the table that lines now belong
to. -/
structure Reading where
  root : Entry.Members
  current : List String

/-- The head of a section: the path and the name of a table, up to the brackets that close it. -/
def head (brackets : Nat) (s : List Char) : Option ((List String × String) × List Char) := do
  let (found, rest) ← key (s.length + 1) (skipBlanks s)
  let rest := skipBlanks rest
  if rest.take brackets = List.replicate brackets ']' then return (found, rest.drop brackets)
  else none

/-- A key with its value. -/
def assignment (r : Reading) (s : List Char) : Option (Reading × List Char) := do
  let ((path, name), rest) ← key (s.length + 1) s
  let ((), rest) ← character '=' (skipBlanks rest)
  let (v, rest) ← value (s.length + 1) (skipBlanks rest)
  let root ← Entry.within false (fun _ ms => Entry.assign path name (.value v) ms) r.current .named
    r.root
  return ({ r with root }, rest)

/-- One line that is not blank. -/
def statement (r : Reading) (s : List Char) : Option (Reading × List Char) :=
  match s with
  | '[' :: '[' :: rest => do
    let ((path, name), rest) ← head 2 rest
    return (⟨← Entry.append path name r.root, path ++ [name]⟩, rest)
  | '[' :: rest => do
    let ((path, name), rest) ← head 1 rest
    return (⟨← Entry.define path name r.root, path ++ [name]⟩, rest)
  | _ => assignment r s

/-- The lines of a document.  The first argument bounds their number. -/
def lines : Nat → Reading → List Char → Option Entry.Members
  | 0, _, _ => none
  | n + 1, r, s =>
    match skipLines s.length s with
    | [] => some r.root
    | rest => do
      let (r, rest) ← statement r rest
      lines n r (← endOfLine rest)

/-- The text without the mark that may stand at the beginning of a file. -/
def withoutMark : List Char → List Char
  | c :: rest => if c = '\uFEFF' then rest else c :: rest
  | [] => []

/-- The members of the table that a document describes, if it is one. -/
def parse? (s : String) : Option (List (String × Setting)) :=
  let text := withoutMark s.toList
  (lines (text.length + 1) ⟨[], []⟩ text).map Entry.membersToSettings

end OrderTelemetry.Toml
