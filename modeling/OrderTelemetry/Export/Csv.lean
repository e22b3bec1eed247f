/-!
# Comma-separated values

Fields are separated by commas and every row ends with a line feed.  A field that holds a comma, a
quote, a carriage return or a line feed is put between quotes, and a quote inside is written twice.

* `row`: the text of a row.
* `readRows`: the rows of a text, the fields as lists of characters.
-/

namespace OrderTelemetry.Csv

/-- Whether a character can stand in a field only between quotes. -/
def isSpecial (c : Char) : Bool := c = ',' || c = '"' || c = '\r' || c = '\n'

/-- The characters of a field with every quote doubled. -/
def doubled (s : List Char) : List Char := s.flatMap fun c => if c = '"' then ['"', '"'] else [c]

/-- The written characters of a field. -/
def encoded (s : List Char) : List Char :=
  if s.any isSpecial then '"' :: doubled s ++ ['"'] else s

/-- The text of a field. -/
def field (s : String) : String := String.ofList (encoded s.toList)

/-- The text of a row. -/
def row (fields : List String) : String := ",".intercalate (fields.map field) ++ "\n"

/-! ### Reading -/

/-- The rest of a field between quotes after its opening quote, and what remains after it. -/
def readQuoted : List Char → Option (List Char × List Char)
  | [] => none
  | '"' :: '"' :: rest => (readQuoted rest).map fun (s, rest) => ('"' :: s, rest)
  | '"' :: rest => some ([], rest)
  | c :: rest => (readQuoted rest).map fun (s, rest) => (c :: s, rest)

/-- A field and what remains after it. -/
def readField : List Char → Option (List Char × List Char)
  | '"' :: rest => readQuoted rest
  | s => some (s.takeWhile (!isSpecial ·), s.dropWhile (!isSpecial ·))

/-- The rows of a text.  The second argument holds the fields of the row that is being read, and the
first bounds the number of fields. -/
def readFrom : Nat → List (List Char) → List Char → Option (List (List (List Char)))
  | 0, _, _ => none
  | _ + 1, [], [] => some []
  | n + 1, fields, s => do
    match ← readField s with
    | (f, ',' :: rest) => readFrom n (fields ++ [f]) rest
    | (f, '\n' :: rest) =>
      let rows ← readFrom n [] rest
      return (fields ++ [f]) :: rows
    | _ => none

/-- The rows of a text. -/
def readRows (s : List Char) : Option (List (List (List Char))) := readFrom (s.length + 1) [] s

end OrderTelemetry.Csv
