import OrderTelemetry.Decimal.Reader
import OrderTelemetry.Http.Client

/-!
# Messages on a connection

On a connection a message begins with a head: a first line, then a line for each header, then an
empty line.  The body follows; a header tells the number of its bytes.  A connection carries one
request and the response to it.
-/

namespace OrderTelemetry.Http

/-- The head of a message. -/
structure Head where
  /-- The first line. -/
  start : String
  /-- The headers with names in small letters. -/
  headers : List (String × String)
  deriving DecidableEq, Repr

namespace Head

/-- The end of a line. -/
def newline : String := "\r\n"

/-- The lines of a text, each up to its line feed and without a carriage return. -/
def lines : List Char → List (List Char)
  | [] => [[]]
  | '\r' :: '\n' :: rest => [] :: lines rest
  | '\n' :: rest => [] :: lines rest
  | c :: rest => match lines rest with
    | [] => [[c]]
    | line :: more => (c :: line) :: more

/-- The name and the value of a header. -/
def header? (line : List Char) : Option (String × String) :=
  match line.dropWhile (· != ':') with
  | _ :: value =>
    some (Text.lower (String.ofList (line.takeWhile (· != ':'))), Text.trim (String.ofList value))
  | [] => none

/-- The head with a text. -/
def ofText? (text : String) : Option Head :=
  match (lines text.toList).filter (!·.isEmpty) with
  | [] => none
  | start :: rest => (rest.mapM header?).map fun headers => ⟨String.ofList start, headers⟩

/-- The value of a header. -/
def value? (h : Head) (name : String) : Option String := h.headers.lookup name

/-- The number of bytes of the body, none if it goes on to the end of the connection. -/
def bodyLength? (h : Head) : Option Nat :=
  (h.value? "content-length").bind fun n => Decimal.natural? n.toList

/-- The text of a head. -/
def text (h : Head) : String :=
  let line (header : String × String) : String := header.1 ++ ": " ++ header.2 ++ newline
  h.start ++ newline ++ String.join (h.headers.map line) ++ newline

/-- The words of a line. -/
def words (s : String) : List String :=
  (s.toList.foldr (fun c found => match c, found with
    | ' ', _ => [] :: found
    | c, word :: more => (c :: word) :: more
    | c, [] => [[c]]) [[]]).map String.ofList

/-- The request with a head and a body. -/
def request? (h : Head) (body : String) : Option Request :=
  match words h.start with
  | [method, target, _] => some { method, target, headers := h.headers, body }
  | _ => none

/-- The response with a head and a body. -/
def response? (h : Head) (body : String) : Option Response :=
  match words h.start with
  | _ :: status :: _ => (Decimal.natural? status.toList).map fun status =>
    { status
      contentType := h.value? "content-type"
      disposition := h.value? "content-disposition"
      allow := h.value? "allow"
      body }
  | _ => none

/-- The headers of every message. -/
def common (body : String) : List (String × String) :=
  [("content-length", body.utf8ByteSize.repr), ("connection", "close")]

end Head

/-- A request on a connection to a host. -/
def Request.onConnection (r : Request) (host : String) : String :=
  (Head.mk (r.method ++ " " ++ r.target ++ " HTTP/1.1")
    ([("host", host)] ++ r.headers ++ Head.common r.body)).text ++ r.body

/-- The words for a status. -/
def Response.reason (status : Nat) : String :=
  (([(200, "OK"), (201, "Created"), (400, "Bad Request"), (404, "Not Found"),
    (405, "Method Not Allowed"), (415, "Unsupported Media Type"), (422, "Unprocessable Entity"),
    (500, "Internal Server Error"), (503, "Service Unavailable"), (504, "Gateway Timeout")] :
      List (Nat × String)).lookup status).getD ""

/-- A response on a connection. -/
def Response.onConnection (r : Response) : String :=
  let header (name : String) (value : Option String) : List (String × String) :=
    (value.map fun v => (name, v)).toList
  (Head.mk ("HTTP/1.1 " ++ r.status.repr ++ " " ++ reason r.status)
    (header "content-type" r.contentType ++ header "content-disposition" r.disposition ++
      header "allow" r.allow ++ Head.common r.body)).text ++ r.body

/-- The host and the port of the server of a client.  Only connections without encryption have
one. -/
def Client.endpoint? (c : Client) : Option (String × Nat) := do
  let rest ← Client.dropText "http://".toList c.baseUrl.toList
  let authority := rest.takeWhile (· != '/')
  match authority.dropWhile (· != ':') with
  | [] => some (String.ofList authority, 80)
  | _ :: port => do
    let port ← Decimal.natural? port
    if port < 0x10000 then some (String.ofList (authority.takeWhile (· != ':')), port) else none

end OrderTelemetry.Http
