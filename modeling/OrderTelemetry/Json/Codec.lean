import OrderTelemetry.Json.Value

/-!
# Values of a known kind

A `Codec` says how values of one kind are written as JSON and how they are read.  Reading goes over
the text once and stops at the first problem: a part that is no JSON makes the text malformed, a
part of the wrong kind makes it mismatched.  A number or a string of the wrong kind is read first,
so its own problems come before the wrong kind.
-/

namespace OrderTelemetry.Json

/-- How values of one kind are written and read. -/
structure Codec (α : Type) where
  encode : α → Json
  read : Reader α

/-- The problem with a value of another kind than the expected one. -/
def wrongKind (s : List Char) : Problem :=
  let after {α : Type} (r : Except Problem α) : Problem := match r with
    | .error e => e
    | .ok _ => .mismatched
  match skipSpace s with
  | [] => .truncated
  | 'n' :: rest => after (word "ull".toList rest)
  | 't' :: rest => after (word "rue".toList rest)
  | 'f' :: rest => after (word "alse".toList rest)
  | '"' :: rest => after (stringBody rest)
  | '[' :: _ => .mismatched
  | '{' :: _ => .mismatched
  | c :: rest =>
    if c = '-' || Decimal.isDigit c then after (readNumber (c :: rest)) else .malformed

/-- Reads a string. -/
def readText : Reader String := fun s =>
  match skipSpace s with
  | '"' :: rest => stringBody rest
  | _ => .error (wrongKind s)

/-- Reads a number of any kind. -/
def readNumeric : Reader Number := fun s =>
  match skipSpace s with
  | c :: rest =>
    if c = '-' || Decimal.isDigit c then readNumber (c :: rest) else .error (wrongKind s)
  | [] => .error .truncated

/-- Reads a number and keeps what a function makes of it. -/
def readNumberAs {α : Type} (f : Number → Option α) : Reader α := fun s => do
  let (x, rest) ← readNumeric s
  match f x with
  | some a => .ok (a, rest)
  | none => .error .mismatched

/-- The whole number that a number is. -/
def Number.whole? : Number → Option Int
  | natural n => some n
  | negative n => some n
  | real _ => none

/-- The double nearest to a number. -/
def Number.toFloat : Number → Float
  | natural n => Float.ofNat n
  | negative n => -(Float.ofNat n.natAbs)
  | real x => x

namespace Codec

/-- Strings. -/
def text : Codec String := ⟨Json.text, readText⟩

/-- Whole numbers from zero to a bound. -/
def natural (high : Nat) : Codec Nat :=
  ⟨Json.natural, readNumberAs fun x => x.whole?.bind fun n =>
    if 0 ≤ n ∧ n ≤ high then some n.toNat else none⟩

/-- Whole numbers of sixty-four bits without a sign. -/
def uint64 : Codec Nat := natural 0xFFFFFFFFFFFFFFFF

/-- Whole numbers between two bounds. -/
def integer (low high : Int) : Codec Int :=
  ⟨Json.integer, readNumberAs fun x => x.whole?.bind fun n =>
    if low ≤ n ∧ n ≤ high then some n else none⟩

/-- Doubles.  A whole number stands for the nearest one. -/
def real : Codec Float := ⟨Json.real, readNumberAs fun x => some x.toFloat⟩

/-- Values that may be `null`. -/
def optional {α : Type} (c : Codec α) : Codec (Option α) :=
  ⟨Json.optional c.encode, fun s =>
    match skipSpace s with
    | 'n' :: rest => do .ok (none, ← word "ull".toList rest)
    | _ => do
      let (a, rest) ← c.read s
      .ok (some a, rest)⟩

/-- Reads the items of a list up to its end.  The first argument bounds their number. -/
def readItems {α : Type} (item : Reader α) : Nat → Bool → Reader (List α)
  | 0, _, _ => .error .truncated
  | n + 1, first, s => do
    match ← nextEntry ']' first s with
    | none => .ok ([], ← expect ']' s)
    | some s =>
      let (a, s) ← item s
      let (rest, s) ← readItems item n false s
      .ok (a :: rest, s)

/-- Lists. -/
def list {α : Type} (c : Codec α) : Codec (List α) :=
  ⟨fun xs => Json.list (xs.map c.encode), fun s =>
    match skipSpace s with
    | '[' :: rest => readItems c.read (rest.length + 1) true rest
    | _ => .error (wrongKind s)⟩

/-- Steps over `null`. -/
def readNull (s : List Char) : Except Problem (List Char) :=
  match skipSpace s with
  | 'n' :: rest => word "ull".toList rest
  | _ => .error (wrongKind s)

/-- A closed set of names, some of which may have a second spelling.  A name is a string, or the
only member of an object whose value is `null`. -/
def choice {α : Type} (name : α → String) (known : String → Option α) : Codec α :=
  ⟨fun a => Json.text (name a), fun s =>
    let named : Reader α := fun s => do
      let (word, rest) ← readText s
      match known word with
      | some a => .ok (a, rest)
      | none => .error .mismatched
    match skipSpace s with
    | [] => .error .truncated
    | '"' :: rest => named ('"' :: rest)
    | '{' :: rest => do
      let (a, rest) ← named rest
      let rest ← readNull (← expect ':' rest)
      .ok (a, ← expect '}' rest)
    | _ => .error .malformed⟩

/-- The same values under another view. -/
def map {α β : Type} (c : Codec α) (view : α → β) (of : β → α) : Codec β :=
  ⟨fun b => c.encode (of b), fun s => do
    let (a, rest) ← c.read s
    .ok (view a, rest)⟩

/-- The same values under another view that not all of them have. -/
def filterMap {α β : Type} (c : Codec α) (view : α → Option β) (of : β → α) : Codec β :=
  ⟨fun b => c.encode (of b), fun s => do
    let (a, rest) ← c.read s
    match view a with
    | some b => .ok (b, rest)
    | none => .error .mismatched⟩

/-- The compact text of a value. -/
def write {α : Type} (c : Codec α) (a : α) : String := (c.encode a).render

/-- The value that a whole text holds. -/
def parse {α : Type} (c : Codec α) (s : String) : Except Problem α := whole c.read s

/-- The value that a JSON value stands for. -/
def decode {α : Type} (c : Codec α) (x : Json) : Option α := (c.parse x.render).toOption

end Codec

end OrderTelemetry.Json
