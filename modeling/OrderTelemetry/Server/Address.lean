import OrderTelemetry.Decimal.Reader
import OrderTelemetry.Text.Hex

/-!
# Addresses to listen at

The server listens at a numeric address: four numbers below 256 with points between them, or eight
hexadecimal groups with colons between them inside brackets, of which one run of zeros may be left
out.
-/

namespace OrderTelemetry.Server

/-- A numeric address. -/
inductive Address where
  | four (numbers : List Nat)
  | six (groups : List Nat)
  deriving DecidableEq, Repr

namespace Address

/-- The parts of a text between separators. -/
def split (separator : Char) : List Char → List (List Char)
  | [] => [[]]
  | c :: rest =>
    if c = separator then [] :: split separator rest
    else match split separator rest with
      | [] => [[c]]
      | part :: more => (c :: part) :: more

/-- A number below 256 without a leading zero. -/
def octet? (s : List Char) : Option Nat := do
  let n ← Decimal.natural? s
  if n < 256 ∧ (s.length = 1 ∨ s.head? ≠ some '0') then some n else none

/-- Four numbers. -/
def numbers? (s : List Char) : Option (List Nat) := do
  let found ← (split '.' s).mapM octet?
  if found.length = 4 then some found else none

/-- A group of one to four hexadecimal digits. -/
def group? (s : List Char) : Option Nat :=
  if s.isEmpty ∨ 4 < s.length then none
  else (s.mapM Text.hexValue).map fun ds => ds.foldl (fun n d => 16 * n + d) 0

/-- Groups with colons between them, none for no text.  The last two may be written as four
numbers. -/
def groups? (s : List Char) : Option (List Nat) :=
  if s.isEmpty then some []
  else
    let parts := split ':' s
    match parts.getLast?.bind numbers? with
    | some [a, b, c, d] => do
      return (← parts.dropLast.mapM group?) ++ [256 * a + b, 256 * c + d]
    | _ => parts.mapM group?

/-- What stands before and after the first two colons in a row. -/
def splitGap : List Char → Option (List Char × List Char)
  | [] => none
  | ':' :: ':' :: rest => some ([], rest)
  | c :: rest => (splitGap rest).map fun (before, after) => (c :: before, after)

/-- Eight groups. -/
def eightGroups? (s : List Char) : Option (List Nat) :=
  match splitGap s with
  | some (before, after) => do
    let head ← groups? before
    let tail ← groups? after
    let gap := 8 - (head.length + tail.length)
    if 0 < gap ∧ !before.contains '.' then some (head ++ List.replicate gap 0 ++ tail) else none
  | none => do
    let found ← groups? s
    if found.length = 8 then some found else none

/-- The address that a host is written as. -/
def ofHost? (host : String) : Option Address :=
  match host.toList with
  | '[' :: rest =>
    if rest.getLast? = some ']' then (eightGroups? rest.dropLast).map six else none
  | s => (numbers? s).map four

/-- Whether a server of this machine can listen at the address: it belongs to the machine itself, or
stands for all its addresses. -/
def isLocal : Address → Bool
  | four numbers => numbers = [0, 0, 0, 0] || numbers.head? = some 127
  | six groups => groups = List.replicate 8 0 || groups = List.replicate 7 0 ++ [1]

end Address

end OrderTelemetry.Server
