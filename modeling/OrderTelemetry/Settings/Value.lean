import OrderTelemetry.Decimal.Layout
import OrderTelemetry.Decimal.Reader
import OrderTelemetry.Text.Blank

/-!
# Written settings

What a file or the environment says about the settings, before it is known which type each of them
has.  Several sources are laid over each other (`Setting.put`): a table is merged into what lies
below it, and any other value takes its place.

A setting is then read as the type it should have.  Texts that stand for numbers or truth values may
be written where those are expected, and the other way round.
-/

namespace OrderTelemetry

/-- A written setting. -/
inductive Setting where
  | boolean (b : Bool)
  | integer (n : Int)
  | real (x : Float)
  | text (s : String)
  | list (items : List Setting)
  | table (members : List (String × Setting))

namespace Setting

/-! ### Layers -/

/-- The members of a table, none for any other value. -/
def members : Setting → List (String × Setting)
  | table ms => ms
  | _ => []

/-- Gives the member with a name another value, which may depend on the one it had. -/
def update (name : String) (f : Option Setting → Setting) :
    List (String × Setting) → List (String × Setting)
  | [] => [(name, f none)]
  | (key, v) :: rest =>
    if key = name then (key, f (some v)) :: rest else (key, v) :: update name f rest

/-- The members of what may lie below a value. -/
def membersBelow (below : Option Setting) : List (String × Setting) :=
  (below.map members).getD []

mutual

/-- A value laid over what may lie below it. -/
def layOn (below : Option Setting) : Setting → Setting
  | table ms => table (layAllOn ms (membersBelow below))
  | boolean b => boolean b
  | integer n => integer n
  | real x => real x
  | text s => text s
  | list items => list items

/-- The members of a table laid over those below it. -/
def layAllOn : List (String × Setting) → List (String × Setting) → List (String × Setting)
  | [], below => below
  | (name, v) :: rest, below => layAllOn rest (update name (fun old => layOn old v) below)

end

/-- Lays a value over the one at a path.  What is no table on the way becomes one. -/
def put (v : Setting) : List String → Option Setting → Setting
  | [], below => layOn below v
  | name :: path, below => table (update name (put v path) (membersBelow below))

/-! ### Paths -/

/-- Whether a character can stand in a part of a path. -/
def isPathChar (c : Char) : Bool := c.isAlphanum || c = '_' || c = '-'

/-- The parts of a text between its points. -/
def parts : List Char → List (List Char)
  | [] => [[]]
  | c :: rest =>
    if c = '.' then [] :: parts rest
    else match parts rest with
      | [] => [[c]]
      | part :: more => (c :: part) :: more

/-- The path that a name stands for: its parts between points, or the name itself if a part is empty
or holds another character than letters, digits, underscores and hyphens. -/
def pathOf (name : String) : List String :=
  let found := parts name.toList
  if found.all fun part => !part.isEmpty && part.all isPathChar then found.map String.ofList
  else [name]

/-- Lays named values over a table, each at the path that its name stands for. -/
def layer (root : Setting) (named : List (String × Setting)) : Setting :=
  named.foldl (fun root (name, v) => put v (pathOf name) (some root)) root

/-! ### Types -/

/-- The truth value that a word stands for. -/
def truth? (s : String) : Option Bool :=
  let word := Text.lower s
  if word = "true" ∨ word = "on" ∨ word = "yes" then some true
  else if word = "false" ∨ word = "off" ∨ word = "no" then some false
  else none

/-- A whole number between two bounds, `read` from a text and rounded from a real number.  Before
the bounds are looked at, a real number is brought between the wider bounds `least` and
`greatest`. -/
def whole? (read : String → Option Int) (least greatest low high : Int) (v : Setting) :
    Option Int :=
  let number : Option Int := match v with
    | boolean b => some (if b then 1 else 0)
    | integer n => some n
    | real x => some (Decimal.saturating least greatest x)
    | text s => match truth? s with
      | some b => some (if b then 1 else 0)
      | none => read s
    | list _ | table _ => none
  number.bind fun n => if low ≤ n ∧ n ≤ high then some n else none

/-- A whole number from zero to a bound. -/
def natural? (high : Nat) (v : Setting) : Option Nat :=
  (whole? (fun s => (Decimal.uint64? s).map Int.ofNat) 0 0xFFFFFFFFFFFFFFFF 0 high v).map Int.toNat

/-- A whole number between two bounds. -/
def integer? (low high : Int) (v : Setting) : Option Int :=
  whole? Decimal.int64? (-0x8000000000000000) 0x7FFFFFFFFFFFFFFF low high v

/-- A real number. -/
def real? : Setting → Option Float
  | boolean b => some (if b then 1.0 else 0.0)
  | integer n => some (if n < 0 then -(Float.ofNat n.natAbs) else Float.ofNat n.toNat)
  | real x => some x
  | text s => match truth? s with
    | some b => some (if b then 1.0 else 0.0)
    | none => Decimal.real? s
  | list _ | table _ => none

/-- A text. -/
def text? : Setting → Option String
  | boolean b => some (if b then "true" else "false")
  | integer n => some (toString n)
  | real x => some (Decimal.plain x)
  | text s => some s
  | list _ | table _ => none

end Setting

end OrderTelemetry
