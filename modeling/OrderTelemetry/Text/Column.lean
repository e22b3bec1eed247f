/-!
# Columns

How a text is laid out in a column of a given width.  Width and precision count characters, so a
column holds as many letters of one script as of another.
-/

namespace OrderTelemetry.Text

/-- On which side of a column the text stands. -/
inductive Align where
  | left
  | centre
  | right
  deriving DecidableEq, Repr

/-- `n` spaces. -/
def spaces (n : Nat) : String := String.ofList (List.replicate n ' ')

/-- A text filled up with spaces to at least `width` characters.  A text that has to stand in the
centre gets the odd space on its right. -/
def fill (align : Align) (width : Nat) (s : String) : String :=
  let gap := width - s.length
  match align with
  | .left => s ++ spaces gap
  | .right => spaces gap ++ s
  | .centre => spaces (gap / 2) ++ s ++ spaces (gap - gap / 2)

/-- At least `width` digits. -/
def zeroPadded (width n : Nat) : String :=
  let digits := n.repr
  String.ofList (List.replicate (width - digits.length) '0') ++ digits

/-- The first `n` characters of a text. -/
def truncate (n : Nat) (s : String) : String := String.ofList (s.toList.take n)

/-- A text in a column: cut to `precision` characters if one is given, then filled up. -/
def column (align : Align) (width : Nat) (precision : Option Nat) (s : String) : String :=
  fill align width (match precision with
    | some n => truncate n s
    | none => s)

end OrderTelemetry.Text
