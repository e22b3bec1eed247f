import OrderTelemetry.Text.Hex

/-!
# Texts in TOML

A text stands between quotes, single ones if nothing in it is escaped, or between three quotes if it
has several lines.  Control characters other than the tab are not allowed, and a line ends with a
line feed whether or not a carriage return comes before it.
-/

namespace OrderTelemetry.Toml

/-- Reads something off the front of the remaining characters. -/
abbrev Reader (α : Type) := List Char → Option (α × List Char)

/-- The single quote. -/
def apostrophe : Char := '\x27'

/-- Whether a character must not stand in a text or a comment. -/
def isControl (c : Char) : Bool := (c.toNat < 0x20 && c != '\t') || c.toNat = 0x7F

/-- Whether a character is a space or a tab. -/
def isBlank (c : Char) : Bool := c = ' ' || c = '\t'

/-- The remaining characters without blanks at their front. -/
def skipBlanks (s : List Char) : List Char := s.dropWhile isBlank

/-- What remains after the end of a line, if it is here. -/
def newline? : List Char → Option (List Char)
  | '\n' :: rest => some rest
  | '\r' :: '\n' :: rest => some rest
  | _ => none

/-- What remains after a comment that may be here; the end of its line still does. -/
def skipComment : List Char → List Char
  | '#' :: rest => rest.dropWhile fun c => !isControl c
  | s => s

/-- What remains after blanks, comments and ends of lines.  The first argument bounds their
number. -/
def skipLines : Nat → List Char → List Char
  | 0, s => s
  | n + 1, s =>
    let s := skipComment (skipBlanks s)
    match newline? s with
    | some rest => skipLines n rest
    | none => s

/-- A number of hexadecimal digits. -/
def hexNumber : Nat → Nat → Reader Nat
  | 0, value, s => some (value, s)
  | _ + 1, _, [] => none
  | n + 1, value, c :: rest => do hexNumber n (16 * value + (← Text.hexValue c)) rest

/-- The character with a code, if there is one. -/
def ofCode (n : Nat) : Option Char := if n.isValidChar then some (Char.ofNat n) else none

/-- The character that an escape stands for, after its backslash. -/
def escape : Reader Char
  | 'b' :: rest => some ('\x08', rest)
  | 't' :: rest => some ('\t', rest)
  | 'n' :: rest => some ('\n', rest)
  | 'f' :: rest => some ('\x0c', rest)
  | 'r' :: rest => some ('\r', rest)
  | '"' :: rest => some ('"', rest)
  | '\\' :: rest => some ('\\', rest)
  | 'u' :: rest => do
    let (n, rest) ← hexNumber 4 0 rest
    return (← ofCode n, rest)
  | 'U' :: rest => do
    let (n, rest) ← hexNumber 8 0 rest
    return (← ofCode n, rest)
  | _ => none

/-- The rest of a text on one line.  The first argument bounds its length, the second holds what has
been read, the last character first. -/
def basic : Nat → List Char → Reader String
  | 0, _, _ => none
  | n + 1, read, s => match s with
    | [] => none
    | '"' :: rest => some (String.ofList read.reverse, rest)
    | '\\' :: rest => do
      let (c, rest) ← escape rest
      basic n (c :: read) rest
    | c :: rest => if isControl c then none else basic n (c :: read) rest

/-- The quotes at the end of a text on several lines, of which the last three close it. -/
def closing (quote : Char) (read : List Char) : List Char → Option (String × List Char)
  | a :: b :: c :: rest =>
    if a = quote ∧ b = quote ∧ c = quote then
      let extra := (rest.take 2).takeWhile (· = quote)
      some (String.ofList (extra ++ read).reverse, rest.drop extra.length)
    else none
  | _ => none

/-- What remains after a line end that a backslash takes away, with the blanks and line ends behind
it. -/
def skipFold (s : List Char) : Option (List Char) :=
  (newline? (skipBlanks s)).map fun rest =>
    rest.dropWhile fun c => isBlank c || c = '\n' || c = '\r'

/-- The rest of a text on several lines. -/
def basicLines : Nat → List Char → Reader String
  | 0, _, _ => none
  | n + 1, read, s => match closing '"' read s, newline? s, s with
    | some found, _, _ => some found
    | none, some rest, _ => basicLines n ('\n' :: read) rest
    | none, none, '\\' :: rest => match skipFold rest with
      | some rest => basicLines n read rest
      | none => do
        let (c, rest) ← escape rest
        basicLines n (c :: read) rest
    | none, none, c :: rest => if isControl c then none else basicLines n (c :: read) rest
    | none, none, [] => none

/-- The rest of a literal text on one line. -/
def literal (s : List Char) : Option (String × List Char) :=
  let read := s.takeWhile fun c => c != apostrophe && !isControl c
  match s.drop read.length with
  | c :: rest => if c = apostrophe then some (String.ofList read, rest) else none
  | [] => none

/-- The rest of a literal text on several lines. -/
def literalLines : Nat → List Char → Reader String
  | 0, _, _ => none
  | n + 1, read, s => match closing apostrophe read s, newline? s, s with
    | some found, _, _ => some found
    | none, some rest, _ => literalLines n ('\n' :: read) rest
    | none, none, c :: rest => if isControl c then none else literalLines n (c :: read) rest
    | none, none, [] => none

/-- The rest after the three quotes that open a text on several lines.  A line end right behind them
does not belong to the text. -/
def opened (s : List Char) : List Char := (newline? s).getD s

/-- A text on one line. -/
def lineText : Reader String
  | '"' :: rest => basic (rest.length + 1) [] rest
  | c :: rest => if c = apostrophe then literal rest else none
  | [] => none

/-- A text. -/
def text (s : List Char) : Option (String × List Char) :=
  match s with
  | '"' :: '"' :: '"' :: rest => basicLines (rest.length + 1) [] (opened rest)
  | a :: b :: c :: rest =>
    if a = apostrophe ∧ b = apostrophe ∧ c = apostrophe then
      literalLines (rest.length + 1) [] (opened rest)
    else lineText s
  | _ => lineText s

end OrderTelemetry.Toml
