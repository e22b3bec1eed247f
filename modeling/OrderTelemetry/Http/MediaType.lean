/-!
# Media types

The type of a body is a word, a slash and a word, followed by parameters.  The last plus sign of the
second word begins a suffix that names the general form of the body.  `isJson` decides whether a
body is JSON; case does not matter, and a header that is no media type says nothing.
-/

namespace OrderTelemetry.Http.MediaType

/-- Whether a character can stand in a word. -/
def isToken (c : Char) : Bool := c.isAlphanum || "!#$%&'*+-.^_\x60|~".toList.contains c

/-- Whether a character can stand between the quotes of a parameter's value. -/
def isQuotable (c : Char) : Bool := 0x20 ≤ c.toNat && c.toNat < 0x7F

/-- Where a reader of parameters stands. -/
inductive Place where
  /-- Before a name. -/
  | before
  | name
  /-- After the equals sign. -/
  | equals
  | value
  /-- After the opening quote. -/
  | quote
  | quoted
  /-- After the closing quote. -/
  | closed
  deriving DecidableEq, Repr

/-- Where the reader stands after another character, nowhere if the character cannot come. -/
def Place.after (c : Char) : Place → Option Place
  | before => if c = ' ' then some before else if isToken c then some name else none
  | name => if isToken c then some name else if c = '=' then some equals else none
  | equals => if c = '"' then some quote else if isToken c then some value else none
  | value => if isToken c then some value else if c = ';' then some before else none
  | quote => if isQuotable c then some quoted else none
  | quoted => if c = '"' then some closed else if isQuotable c then some quoted else none
  | closed => if c = ';' then some before else if c = ' ' then some closed else none

/-- Whether the parameters can end here. -/
def Place.isEnd : Place → Bool
  | before | equals | value | closed => true
  | name | quote | quoted => false

/-- Whether a text consists of parameters. -/
def areParameters (s : List Char) : Bool :=
  ((s.foldlM (fun (p : Place) c => p.after c) .before).map Place.isEnd).getD false

/-- The second word split at its last plus sign, which must not be its first character. -/
def splitSuffix (s : List Char) : List Char × Option (List Char) :=
  let suffix := (s.reverse.takeWhile (· != '+')).reverse
  let rest := s.take (s.length - suffix.length - 1)
  if suffix.length = s.length ∨ rest.isEmpty then (s, none) else (rest, some suffix)

/-- Whether a header says that the body is JSON. -/
def isJson (header : String) : Bool :=
  let s := header.toList
  let kind := s.takeWhile isToken
  match s.dropWhile isToken with
  | '/' :: rest =>
    let word := rest.takeWhile isToken
    let parameters := rest.dropWhile isToken
    let wellFormed := match parameters with
      | [] => true
      | ';' :: more => !word.isEmpty && areParameters more
      | _ => false
    let (subtype, suffix) := splitSuffix (word.map Char.toLower)
    wellFormed && kind.map Char.toLower == "application".toList &&
      (subtype == "json".toList || suffix == some "json".toList)
  | _ => false

end OrderTelemetry.Http.MediaType
