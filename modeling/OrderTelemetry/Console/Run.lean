import OrderTelemetry.Console.Arguments
import OrderTelemetry.Console.Report
import OrderTelemetry.Http.Client
import OrderTelemetry.Settings.Load

/-!
# Carrying out commands

A list of arguments either is refused, or asks to run the server, or asks a running server for
something.  Settings that cannot be loaded end the program whatever the command is.
-/

namespace OrderTelemetry.Console

/-- How the program ends. -/
structure Outcome where
  code : Nat
  output : String := ""
  /-- The fault that ended it. -/
  fault : Option Fault := none
  deriving DecidableEq, Repr

/-- The end of the program at a fault. -/
def Outcome.ofFault (f : Fault) : Outcome := { code := 1, fault := some f }

/-- What the arguments and the settings amount to. -/
inductive Plan where
  /-- Nothing is left to do. -/
  | stop (outcome : Outcome)
  | serve (settings : Settings) (demo : Bool)
  /-- A command for the server at an address. -/
  | ask (client : Http.Client) (command : Command)

/-- What the arguments amount to, with the settings from the file that they name. -/
def plan (args : List String) (sources : String → Settings.Sources) : Plan :=
  match Invocation.parse args with
  | .error r => .stop { code := r.code, output := r.output }
  | .ok i => match Settings.load (sources i.config) with
    | .error f => .stop (.ofFault f)
    | .ok settings => match i.command with
      | .serve demo => .serve settings demo
      | command => .ask (.ofUrl (i.url.getD settings.server.baseUrl)) command

/-- Asks a server and reports what it answers. -/
def ask {m : Type → Type} [Monad m] (t : Http.Transport m) (c : Http.Client) :
    Command → m (Except Fault String)
  | .stats false => return (← c.stats t).map statsReport
  | .stats true => return (← c.detailedStats t).map detailedReport
  | .logs (some orderId) _ => return (← c.logsForOrder t orderId).map logsReport
  | .logs none limit => return (← c.recentLogs t limit).map logsReport
  | .record submission => return (← c.record t submission).map (recordedReport submission.orderId)
  | .serve _ => return .ok ""

/-- The end of the program after a server has been asked. -/
def Outcome.ofAnswer : Except Fault String → Outcome
  | .ok output => { code := 0, output }
  | .error f => .ofFault f

end OrderTelemetry.Console
