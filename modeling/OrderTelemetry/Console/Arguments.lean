import OrderTelemetry.Decimal.Reader
import OrderTelemetry.Record

/-!
# Arguments of the command line

The first word that is no option names a command; options before it hold for all commands, and those
after it belong to it.  The value of an option is the next word, or stands behind an equals sign;
after a short option it may follow at once.  A word that begins with a hyphen is no value unless it
stands behind an equals sign, and after two hyphens every word is taken as it is.

Words are read from left to right, and the first that asks for help or cannot be read decides.
-/

namespace OrderTelemetry.Console

/-- Why no command is carried out. -/
inductive Refusal where
  /-- Help has been asked for. -/
  | help
  /-- The arguments cannot be read. -/
  | usage
  deriving DecidableEq, Repr

namespace Refusal

/-- The code with which the program ends. -/
def code : Refusal → Nat
  | help => 0
  | usage => 2

/-- What the program can do. -/
def manual : String := "\n".intercalate
  ["Order execution latency telemetry server", "",
   "Usage: latency-monitor [OPTIONS] <COMMAND>", "",
   "Commands:",
   "  serve   Run the telemetry server [--demo]",
   "  stats   Show current latency statistics [--detailed]",
   "  logs    Show recent latency logs [--order-id <ORDER_ID>] [--limit <LIMIT>]",
   "  record  Record a latency measurement on a running server",
   "            <ORDER_ID> --broker <BROKER> --symbol <SYMBOL> --rtt-ms <MS> --total-ms <MS>",
   "            [--order-type <TYPE>] [--validation-ms <MS>] [--response-ms <MS>]",
   "            [--overhead-ms <MS>] [--error <ERROR>] [--failed]",
   "  help    Print this message", "",
   "Options:",
   "  -c, --config <CONFIG>  Config file path [default: config.toml]",
   "      --url <URL>        Server URL for client commands (defaults to the configured server)",
   "  -h, --help             Print help", ""]

/-- What the program prints. -/
def output : Refusal → String
  | help => manual
  | usage => ""

end Refusal

/-- An option. -/
structure Opt where
  name : String
  short : Option Char := none
  /-- Which values it takes, if it takes one. -/
  accepts : Option (String → Bool) := none

/-- What has been read. -/
structure Found where
  flags : List String := []
  values : List (String × String) := []
  words : List String := []

namespace Found

/-- Whether an option has been given. -/
def has (f : Found) (name : String) : Bool := f.flags.contains name

/-- The value of an option. -/
def value? (f : Found) (name : String) : Option String := f.values.lookup name

/-- Takes an option without a value.  It must not be given twice. -/
def addFlag (f : Found) (o : Opt) : Except Refusal Found :=
  if f.has o.name then .error .usage else .ok { f with flags := o.name :: f.flags }

/-- Takes an option with a value.  It must not be given twice. -/
def addValue (f : Found) (o : Opt) (accepts : String → Bool) (v : String) : Except Refusal Found :=
  if (f.value? o.name).isSome ∨ !accepts v then .error .usage
  else .ok { f with values := (o.name, v) :: f.values }

end Found

/-- An argument by its form. -/
inductive Argument where
  /-- Two hyphens alone. -/
  | separator
  /-- A name after two hyphens, with what stands behind an equals sign. -/
  | long (name : String) (value : Option String)
  /-- A letter after one hyphen, with what follows it. -/
  | short (letter : Char) (rest : String)
  | word (s : String)

/-- What stands behind an equals sign, and what before it. -/
def splitEquals (s : List Char) : String × Option String :=
  match s.dropWhile (· != '=') with
  | _ :: v => (String.ofList (s.takeWhile (· != '=')), some (String.ofList v))
  | [] => (String.ofList s, none)

/-- The form of an argument. -/
def Argument.of (s : String) : Argument :=
  match s.toList with
  | ['-', '-'] => separator
  | '-' :: '-' :: rest => let (name, v) := splitEquals rest; long name v
  | '-' :: c :: rest => short c (String.ofList rest)
  | _ => word s

/-- The value of an option that is written behind it: without an equals sign before it. -/
def attached (rest : String) : Option String :=
  match rest.toList with
  | [] => none
  | '=' :: v => some (String.ofList v)
  | _ => some rest

/-- An option that waits for its value. -/
structure Waiting where
  option : Opt
  accepts : String → Bool

/-- Takes an option at which its value may stand.  Answers what has been found and whether the
option waits for the next word. -/
def Found.addOption (f : Found) (o : Opt) (v : Option String) :
    Except Refusal (Found × Option Waiting) :=
  match o.accepts, v with
  | none, none => (f.addFlag o).map (·, none)
  | none, some _ => .error .usage
  | some accepts, none => .ok (f, some ⟨o, accepts⟩)
  | some accepts, some v => (f.addValue o accepts v).map (·, none)

/-- What may stand in a list of arguments. -/
structure Grammar where
  options : List Opt
  /-- A word names a command. -/
  commands : Bool := false
  /-- The greatest number of words if none names a command. -/
  words : Nat := 0

namespace Grammar

/-- Takes a word. -/
def addWord (g : Grammar) (f : Found) (s : String) : Except Refusal Found :=
  if f.words.length < g.words then .ok { f with words := f.words ++ [s] } else .error .usage

/-- Takes an option with two hyphens. -/
def addLong (g : Grammar) (f : Found) (name : String) (v : Option String) :
    Except Refusal (Found × Option Waiting) :=
  if name = "help" ∧ v.isNone then .error .help
  else match g.options.find? fun o => o.name = name with
    | some o => f.addOption o v
    | none => .error .usage

/-- Takes an option with one hyphen. -/
def addShort (g : Grammar) (f : Found) (letter : Char) (rest : String) :
    Except Refusal (Found × Option Waiting) :=
  if letter = 'h' then .error .help
  else match g.options.find? fun o => o.short = some letter with
    | some o => f.addOption o (attached rest)
    | none => .error .usage

/-- What a list of arguments says, up to the name of a command, while an option may wait for its
value.  Answers what has been found, and the name of the command with the arguments behind it. -/
def scan (g : Grammar) :
    Option Waiting → Found → List String → Except Refusal (Found × List String)
  | none, f, [] => .ok (f, [])
  | some _, _, [] => .error .usage
  | some w, f, arg :: rest => match Argument.of arg with
    | .word v => do g.scan none (← f.addValue w.option w.accepts v) rest
    | _ => .error .usage
  | none, f, arg :: rest => match Argument.of arg with
    | .separator =>
      if g.commands ∧ !rest.isEmpty then .error .usage
      else (rest.foldlM g.addWord f).map (·, [])
    | .long name v => do
      let (f, waiting) ← g.addLong f name v
      g.scan waiting f rest
    | .short letter more => do
      let (f, waiting) ← g.addShort f letter more
      g.scan waiting f rest
    | .word s => do if g.commands then .ok (f, s :: rest) else g.scan none (← g.addWord f s) rest

/-- What all arguments of a command say. -/
def read (g : Grammar) (args : List String) : Except Refusal Found :=
  (g.scan none {} args).map Prod.fst

end Grammar

/-! ### Commands -/

/-- A command. -/
inductive Command where
  | serve (demo : Bool)
  | stats (detailed : Bool)
  | logs (orderId : Option String) (limit : Option Nat)
  | record (s : Submission)
  deriving DecidableEq, Repr

/-- A command with the options that hold for all commands. -/
structure Invocation where
  config : String
  url : Option String
  command : Command
  deriving DecidableEq, Repr

/-- An option with a value of any form. -/
def textOption (name : String) (short : Option Char := none) : Opt :=
  ⟨name, short, some fun _ => true⟩

/-- An option with a real number. -/
def realOption (name : String) : Opt := ⟨name, none, some fun v => (Decimal.real? v).isSome⟩

/-- The options that hold for all commands. -/
def commonOptions : List Opt := [textOption "config" (some 'c'), textOption "url"]

/-- The options of the command that lists records. -/
def logsOptions : List Opt :=
  [textOption "order-id", ⟨"limit", some 'l', some fun v => (Decimal.uint64? v).isSome⟩]

/-- The options of the command that sends a submission. -/
def recordOptions : List Opt :=
  [textOption "broker", textOption "symbol", textOption "order-type", realOption "rtt-ms",
   realOption "total-ms", realOption "validation-ms", realOption "response-ms",
   realOption "overhead-ms", textOption "error", { name := "failed" }]

/-- What has to be given, or else the arguments cannot be read. -/
def need {α : Type} : Option α → Except Refusal α
  | some a => .ok a
  | none => .error .usage

/-- The submission that the arguments describe.  An error makes it a failure. -/
def submissionOf (f : Found) : Except Refusal Submission := do
  let orderId ← need f.words.head?
  let broker ← need (f.value? "broker")
  let symbol ← need (f.value? "symbol")
  let rtt ← need ((f.value? "rtt-ms").bind Decimal.real?)
  let total ← need ((f.value? "total-ms").bind Decimal.real?)
  let phase (name : String) : Float := ((f.value? name).bind Decimal.real?).getD 0.0
  let error := f.value? "error"
  .ok { orderId, broker, symbol
        orderType := (f.value? "order-type").getD "MARKET"
        timestamp := none
        latencies :=
          { rtt, total
            validation := phase "validation-ms"
            response := phase "response-ms"
            overhead := phase "overhead-ms" }
        status := if f.has "failed" || error.isSome then .failure else .success
        error }

/-- The names of the commands. -/
def commandNames : List String := ["serve", "stats", "logs", "record", "help"]

/-- The command with a name. -/
def commandOf (name : String) (args : List String) : Except Refusal Command := do
  if name = "serve" then
    .ok (.serve ((← Grammar.read { options := [{ name := "demo" }] } args).has "demo"))
  else if name = "stats" then
    .ok (.stats ((← Grammar.read { options := [{ name := "detailed" }] } args).has "detailed"))
  else if name = "logs" then
    let f ← Grammar.read { options := logsOptions } args
    .ok (.logs (f.value? "order-id") ((f.value? "limit").bind Decimal.uint64?))
  else if name = "record" then
    .ok (.record (← submissionOf (← Grammar.read { options := recordOptions, words := 1 } args)))
  else if name = "help" then
    match args with
    | [] => .error .help
    | [about] => .error (if commandNames.contains about then .help else .usage)
    | _ => .error .usage
  else .error .usage

/-- What a list of arguments asks for. -/
def Invocation.parse (args : List String) : Except Refusal Invocation := do
  let (f, rest) ← Grammar.scan { options := commonOptions, commands := true } none {} args
  match rest with
  | [] => .error .usage
  | name :: args =>
    let command ← commandOf name args
    .ok ⟨(f.value? "config").getD "config.toml", f.value? "url", command⟩

end OrderTelemetry.Console
