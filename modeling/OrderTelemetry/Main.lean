import OrderTelemetry.Archive.Wire
import OrderTelemetry.Console.Run
import OrderTelemetry.Http.Head
import OrderTelemetry.Server.Run
import Std.Async.DNS
import Std.Async.Signal
import Std.Async.TCP
import Std.Async.Timer
import Std.Sync.CancellationToken

/-!
# The program

The outer layer: files, the environment, the clock, connections and signals.  What is done with them
is up to the other modules.
-/

namespace OrderTelemetry.Program

open Std.Async Std.Net

/-! ### Files, environment and clock -/

/-- The text of a file if there is one that can be read. -/
def readFile? (path : String) : IO (Option String) := do
  try
    return some (← IO.FS.readFile path)
  catch _ => return none

/-- The text of the file of settings with a name. -/
def readSettings? (path : String) : IO (Option String) := do
  let named ← readFile? path
  let other ← readFile? (path ++ ".toml")
  return Settings.findFile (fun p => if p = path then named else other) path

/-- The variables of the process, which the system keeps as texts that each end with a zero. -/
def processVariables : IO (List (String × String)) := do
  let text ← try IO.FS.readFile "/proc/self/environ" catch _ => pure ""
  let entry (s : String) : Option (String × String) :=
    let (name, rest) := s.toList.span (· != '=')
    rest.tail?.map fun value => (String.ofList name, String.ofList value)
  return (text.splitOn "\x00").filterMap entry

/-- Where the settings come from. -/
def sources (path : String) : IO Settings.Sources := do
  return { file := ← readSettings? path
           environment := .ofVariables (← processVariables)
           dotEnv := ← readFile? ".env" }

/-- The present. -/
def now : IO Instant := do
  let t ← Std.Time.Timestamp.now
  let nanos := t.toNanosecondsSinceUnixEpoch.toInt
  return ⟨Int.fdiv nanos (1000000000), (Int.fmod nanos (1000000000)).toNat⟩

/-- Prints notices that are no mere details. -/
def tell (notices : List Notice) : IO Unit := do
  for n in notices do
    unless n.level = .debug do
      IO.println n.line
  (← IO.getStdout).flush

/-- Ends the program at a fault. -/
def fail (message : String) : IO UInt32 := do
  IO.eprintln ("Error: " ++ message)
  return 1

/-! ### Connections -/

/-- The place of the first empty line after a head, with the bytes of the head and those behind
it. -/
def splitHead (bytes : ByteArray) : Option (ByteArray × ByteArray) :=
  let mark := (Http.Head.newline ++ Http.Head.newline).toUTF8
  ((List.range (bytes.size + 1 - mark.size)).find? fun i =>
    bytes.extract i (i + mark.size) == mark).map fun i =>
      (bytes.extract 0 i, bytes.extract (i + mark.size) bytes.size)

/-- The next bytes of a connection, none at its end or if nothing comes for some seconds. -/
def receive? (socket : TCP.Socket.Client) : Async (Option ByteArray) := do
  let timer ← Selector.sleep 5000
  Selectable.one #[
    .case (socket.recvSelector 65536) fun found => return found,
    .case timer fun _ => return none]

/-- Whether a message is complete as far as its head says. -/
def isComplete (bytes : ByteArray) (untold : Bool) : Bool :=
  match splitHead bytes with
  | none => false
  | some (head, body) =>
    match (String.fromUTF8? head).bind Http.Head.ofText? with
    | none => true
    | some head => match head.bodyLength? with
      | some n => decide (n ≤ body.size)
      | none => untold

/-- All bytes of the message that comes next.  `untold` holds if a message has no body unless it
says so. -/
partial def receiveMessage (socket : TCP.Socket.Client) (untold : Bool) (bytes : ByteArray) :
    Async ByteArray := do
  if isComplete bytes untold then return bytes
  match ← receive? socket with
  | some more => if more.isEmpty then return bytes else receiveMessage socket untold (bytes ++ more)
  | none => return bytes

/-- The head and the body of a message.  A body that is no text becomes one that is no JSON. -/
def messageOf (bytes : ByteArray) : Option (Http.Head × String) := do
  let (head, body) ← splitHead bytes
  let head ← (String.fromUTF8? head).bind Http.Head.ofText?
  let body := match head.bodyLength? with
    | some n => body.extract 0 n
    | none => body
  return (head, (String.fromUTF8? body).getD "\x00")

/-- Ends the sending side of a connection. -/
def close (socket : TCP.Socket.Client) : Async Unit := do
  try
    socket.shutdown
  catch _ => return ()

/-- The address of a socket. -/
def socketAddress (address : Server.Address) (port : Nat) : SocketAddress :=
  let port := UInt16.ofNat port
  match address with
  | .four numbers =>
    let n (i : Nat) : UInt8 := UInt8.ofNat (numbers.getD i 0)
    .v4 ⟨.ofParts (n 0) (n 1) (n 2) (n 3), port⟩
  | .six groups =>
    let n (i : Nat) : UInt16 := UInt16.ofNat (groups.getD i 0)
    .v6 ⟨.ofParts (n 0) (n 1) (n 2) (n 3) (n 4) (n 5) (n 6) (n 7), port⟩

/-! ### Commands for a server -/

/-- The address of a socket at a host. -/
def hostAddress (host : IPAddr) (port : Nat) : SocketAddress :=
  match host with
  | .v4 a => .v4 ⟨a, UInt16.ofNat port⟩
  | .v6 a => .v6 ⟨a, UInt16.ofNat port⟩

/-- A connection to a host. -/
def connect (host : String) (port : Nat) : Async TCP.Socket.Client := do
  let socket ← TCP.Socket.Client.mk
  let addresses ← DNS.getAddrInfo host port.repr
  match addresses.toList with
  | [] => throw (IO.userError "the host has no address")
  | first :: _ =>
    socket.connect (hostAddress first port)
    return socket

/-- Sends a request on a connection of its own. -/
def exchange (host : String) (port : Nat) (request : Http.Request) :
    Async (Except String Http.Response) := do
  let socket ← connect host port
  socket.send (request.onConnection (host ++ ":" ++ port.repr)).toUTF8
  let bytes ← receiveMessage socket false .empty
  close socket
  match (messageOf bytes).bind fun (head, body) => head.response? body with
  | some response => return .ok response
  | none => return .error "the response cannot be read"

/-- Carries requests over the network to the server of a client. -/
def network (c : Http.Client) : Http.Transport IO := fun request => do
  match c.endpoint? with
  | none => return .error "the address of the server cannot be used"
  | some (host, port) =>
    try
      (exchange host port request).block
    catch e => return .error (toString e)

/-! ### The server -/

/-- What the server waits for. -/
inductive Event where
  | connection (socket : TCP.Socket.Client)
  | interrupt
  | sweep
  | feed

/-- When the server does what it does from time to time, in milliseconds of the process. -/
structure Timetable where
  nextSweep : Nat
  nextFeed : Option Nat

/-- What is cancelled by the first interrupt, which somebody waits for. -/
def untilInterrupt (interrupts : Signal.Waiter) : IO Std.CancellationToken := do
  let token ← Std.CancellationToken.new
  discard <| AsyncTask.mapIO (fun _ => token.cancel) (← interrupts.wait)
  return token

/-- Waits for the next event. -/
def nextEvent (server : TCP.Socket.Server) (uninterrupted : Std.CancellationToken) (t : Timetable) :
    Async Event := do
  let present ← IO.monoMsNow
  let delay (time : Nat) : Std.Time.Millisecond.Offset := .ofNat (time - present)
  let sweep ← Selector.sleep (delay t.nextSweep)
  let feed ← t.nextFeed.mapM fun time => Selector.sleep (delay time)
  Selectable.one <|
    #[.case server.acceptSelector fun socket => return .connection socket,
      .case uninterrupted.selector fun _ => return .interrupt,
      .case sweep fun _ => return .sweep] ++
    (feed.map fun s => Selectable.case s fun _ => return Event.feed).toArray

/-- Writes archives into their files. -/
def writeDisk (disk : Server.Disk) : IO Unit := do
  for (path, database) in disk do
    IO.FS.writeFile path database.text

/-- Keeps the archive of a run in its file. -/
def save (r : Server.Running) : IO Unit := do
  writeDisk (Server.Disk.saveOpened [] r.opened)

/-- Answers the request of a connection. -/
def serveConnection (r : Server.Running) (socket : TCP.Socket.Client) :
    Async (Server.Running × List Notice) := do
  let bytes ← receiveMessage socket true .empty
  match (messageOf bytes).bind fun (head, body) => head.request? body with
  | none =>
    socket.send (Http.Response.onConnection { status := 400 }).toUTF8
    close socket
    return (r, [])
  | some request =>
    let step := r.answer request (← now)
    if let .ok response := step.answer then
      socket.send response.onConnection.toUTF8
    close socket
    return (step.state, step.notices)

/-- Serves until the run is interrupted. -/
partial def serveFor (server : TCP.Socket.Server) (uninterrupted : Std.CancellationToken)
    (settings : Settings) (r : Server.Running) (t : Timetable) : Async Server.Running := do
  let event ← nextEvent server uninterrupted t
  let r := { r with settled := r.settled || !(event matches .interrupt) }
  match event with
  | .interrupt => return r
  | .connection socket =>
    let (r, notices) ←
      try
        serveConnection r socket
      catch _ => pure (r, [])
    next r notices t
  | .sweep =>
    let (r, notices) := r.sweep (← now)
    next r notices
      { t with nextSweep := t.nextSweep + 1000 * max 1 settings.retention.sweepIntervalSecs }
  | .feed =>
    let (r, notices) := r.feedNext (← now)
    next r notices { t with nextFeed := t.nextFeed.map (· + Server.feedInterval.nanos / 1000000) }
where
  /-- Archives what waits and goes on. -/
  next (r : Server.Running) (notices : List Notice) (t : Timetable) : Async Server.Running := do
    let (r, archived) := r.write
    tell (notices ++ archived)
    save r
    serveFor server uninterrupted settings r t

/-- The settings with the path of the archive as the file system knows it. -/
def expanded (s : Settings) : IO Settings := do
  let home := (← IO.getEnv "HOME").getD "~"
  let expand (path : String) : String := match path.toList with
    | ['~'] => home
    | '~' :: '/' :: rest => home ++ "/" ++ String.ofList rest
    | _ => path
  return { s with storage := s.storage.map fun t => { t with path := expand t.path } }

/-- The archives that the settings name, as far as their files exist. -/
def diskOf (s : Settings) : IO Server.Disk := do
  match s.storage with
  | none => return []
  | some t =>
    let folder := String.ofList ((t.path.toList.reverse.dropWhile (· != '/')).drop 1).reverse
    unless folder.isEmpty do
      IO.FS.createDirAll folder
    match ← readFile? t.path with
    | none => return []
    | some text => match Database.ofText? t.timeoutMs text with
      | some d => return [(t.path, d)]
      | none => throw (IO.userError "the file is not an archive")

/-- A feed of made-up submissions. -/
def freshFeed : IO DemoFeed := do
  return .seeded (← IO.rand 0 (0x3FFFFFFFFFFFFFFF)) Server.demoFailureRate

/-- Runs the server. -/
def serve (settings : Settings) (demo : Bool) : IO UInt32 := do
  let settings ← expanded settings
  let feed ← if demo then some <$> freshFeed else pure none
  let begun := Server.start settings feed (← diskOf settings) (← now)
  writeDisk begun.disk
  match begun.running, Server.Address.ofHost? settings.server.host with
  | some r, some address =>
    let server ← TCP.Socket.Server.mk
    server.bind (socketAddress address settings.server.port)
    server.listen 128
    let interrupts ← Signal.Waiter.mk .sigint false
    let uninterrupted ← untilInterrupt interrupts
    tell begun.notices
    let present ← IO.monoMsNow
    let t : Timetable :=
      { nextSweep := present + 1000 * max 1 settings.retention.sweepIntervalSecs
        nextFeed := feed.map fun _ => present + Server.feedInterval.nanos / 1000000 }
    let last ← (serveFor server uninterrupted settings r t).block
    interrupts.stop
    let ended := last.interrupt begun.disk
    tell ended.notices
    writeDisk ended.disk
    return UInt32.ofNat (ended.code.getD 130)
  | _, _ =>
    tell begun.notices
    fail "the server cannot listen at the address of the settings"

/-- Runs the program. -/
def run (args : List String) : IO UInt32 := do
  let path := match Console.Invocation.parse args with
    | .ok i => i.config
    | .error _ => ""
  let found ← sources path
  match Console.plan args fun _ => found with
  | .stop outcome => finish outcome
  | .serve settings demo =>
    try
      serve settings demo
    catch e => fail (toString e)
  | .ask client command => finish (.ofAnswer (← Console.ask (network client) client command))
where
  /-- Prints the outcome and ends the program. -/
  finish (outcome : Console.Outcome) : IO UInt32 := do
    IO.print outcome.output
    if let some f := outcome.fault then
      IO.eprintln ("Error: " ++ f.message)
    if outcome.code = Console.Refusal.usage.code then
      IO.eprint Console.Refusal.manual
    return UInt32.ofNat outcome.code

end OrderTelemetry.Program

/-- The program. -/
def main (args : List String) : IO UInt32 := OrderTelemetry.Program.run args
