import OrderTelemetry.Decimal.Layout
import OrderTelemetry.Json.Lexical

/-!
# JSON values

The values that a JSON text can hold, their compact text (`Json.render`) and a reader for texts
whose kind is not known in advance (`Json.parse`).  Members of an object keep the order in which
they were written.

A real number that is no finite double is written as `null`.  In a string only the quote, the
backslash and the control characters are escaped.
-/

namespace OrderTelemetry

/-- A JSON value. -/
inductive Json where
  | null
  | bool (b : Bool)
  | number (n : Json.Number)
  | text (s : String)
  | list (items : List Json)
  | object (members : List (String × Json))

namespace Json

/-- A whole number as a value. -/
def natural (n : Nat) : Json := number (.natural n)

/-- A whole number with a sign as a value. -/
def integer (n : Int) : Json :=
  number (if n < 0 then .negative n else .natural n.toNat)

/-- A double as a value. -/
def real (x : Float) : Json := number (.real x)

/-- A value that may be missing. -/
def optional {α : Type} (f : α → Json) : Option α → Json
  | some a => f a
  | none => null

/-- The member of an object with a name, the last one if there are several. -/
def member? (name : String) : Json → Option Json
  | object members => (members.reverse.find? fun m => m.1 = name).map Prod.snd
  | _ => none

/-! ### Writing -/

/-- A character in a string. -/
def escaped (c : Char) : List Char :=
  if c = '"' then ['\\', '"']
  else if c = '\\' then ['\\', '\\']
  else if c = '\x08' then ['\\', 'b']
  else if c = '\x0c' then ['\\', 'f']
  else if c = '\n' then ['\\', 'n']
  else if c = '\r' then ['\\', 'r']
  else if c = '\t' then ['\\', 't']
  else if c.toNat < 0x20 then
    ['\\', 'u', '0', '0', (Text.hexDigit (c.toNat / 16)).toLower,
      (Text.hexDigit (c.toNat % 16)).toLower]
  else [c]

/-- A string between quotes. -/
def quoted (s : String) : String := String.ofList ('"' :: s.toList.flatMap escaped ++ ['"'])

/-- A number. -/
def Number.render : Number → String
  | natural n => n.repr
  | negative n => toString n
  | real x => (Decimal.json x).getD "null"

mutual

/-- The compact text of a value. -/
def render : Json → String
  | null => "null"
  | bool true => "true"
  | bool false => "false"
  | number n => n.render
  | text s => quoted s
  | list items => "[" ++ ",".intercalate (renderItems items) ++ "]"
  | object members => "\x7b" ++ ",".intercalate (renderMembers members) ++ "\x7d"

/-- The texts of the items of a list. -/
def renderItems : List Json → List String
  | [] => []
  | x :: rest => render x :: renderItems rest

/-- The texts of the members of an object. -/
def renderMembers : List (String × Json) → List String
  | [] => []
  | (name, x) :: rest => (quoted name ++ ":" ++ render x) :: renderMembers rest

end

/-! ### Reading -/

/-- Steps over one expected character that stands after blanks. -/
def expect (c : Char) (s : List Char) : Except Problem (List Char) :=
  match skipSpace s with
  | [] => .error .truncated
  | d :: rest => if d = c then .ok rest else .error .malformed

/-- Steps to the next entry of a list or an object: `none` if the closing character comes instead.
The character itself is left standing. -/
def nextEntry (closing : Char) (first : Bool) (s : List Char) :
    Except Problem (Option (List Char)) :=
  match skipSpace s with
  | [] => .error .truncated
  | c :: rest =>
    if c = closing then .ok none
    else if first then .ok (some (c :: rest))
    else if c = ',' then
      match skipSpace rest with
      | [] => .error .truncated
      | d :: more => if d = closing then .error .malformed else .ok (some (d :: more))
    else .error .malformed

/-- The name of a member, which stands first in what remains. -/
def readName : Reader String
  | '"' :: rest => stringBody rest
  | _ => .error .malformed

mutual

/-- Reads any value.  The first argument bounds the number of values and entries. -/
def readValue : Nat → Reader Json
  | 0, _ => .error .truncated
  | n + 1, s =>
    match skipSpace s with
    | [] => .error .truncated
    | 'n' :: rest => do .ok (.null, ← word "ull".toList rest)
    | 't' :: rest => do .ok (.bool true, ← word "rue".toList rest)
    | 'f' :: rest => do .ok (.bool false, ← word "alse".toList rest)
    | '"' :: rest => do
      let (t, rest) ← stringBody rest
      .ok (.text t, rest)
    | '[' :: rest => do
      let (items, rest) ← readItems n true rest
      .ok (.list items, rest)
    | '{' :: rest => do
      let (members, rest) ← readMembers n true rest
      .ok (.object members, rest)
    | c :: rest => do
      if c = '-' || Decimal.isDigit c then
        let (x, rest) ← readNumber (c :: rest)
        .ok (.number x, rest)
      else .error .malformed

/-- Reads the items of a list up to its end. -/
def readItems : Nat → Bool → Reader (List Json)
  | 0, _, _ => .error .truncated
  | n + 1, first, s => do
    match ← nextEntry ']' first s with
    | none => .ok ([], ← expect ']' s)
    | some s =>
      let (x, s) ← readValue n s
      let (rest, s) ← readItems n false s
      .ok (x :: rest, s)

/-- Reads the members of an object up to its end. -/
def readMembers : Nat → Bool → Reader (List (String × Json))
  | 0, _, _ => .error .truncated
  | n + 1, first, s => do
    match ← nextEntry '}' first s with
    | none => .ok ([], ← expect '}' s)
    | some s =>
      let (key, s) ← readName s
      let (x, s) ← readValue n (← expect ':' s)
      let (rest, s) ← readMembers n false s
      .ok ((key, x) :: rest, s)

end

/-- Nothing but blanks may remain after the value of a text. -/
def whole {α : Type} (read : Reader α) (s : String) : Except Problem α := do
  let (a, rest) ← read s.toList
  if (skipSpace rest).isEmpty then .ok a else .error .malformed

/-- The value that a text holds. -/
def parse (s : String) : Except Problem Json := whole (readValue (2 * s.length + 2)) s

end Json

end OrderTelemetry
