import OrderTelemetry.Settings.Value

/-!
# Settings in the environment

A variable whose name begins with `LATENCY_`, in any case, is a setting.  The rest of the name is
the name of the setting in small letters, with a point for every two underscores:
`LATENCY_SERVER__PORT` stands for `server.port`.  Its text is a truth value or a number if it can be
read as one.
-/

namespace OrderTelemetry

/-- The variables of the environment, the later ones over the earlier. -/
abbrev Environment := List (String × String)

namespace Environment

/-- The environment of a program that is started with some variables: they come in ascending order
of their names. -/
def ofVariables (vars : List (String × String)) : Environment :=
  vars.mergeSort fun a b => decide (a.1 ≤ b.1)

/-- The value of a variable. -/
def value? (e : Environment) (name : String) : Option String := e.lookup name

/-- The environment with another variable, unless there is one with its name. -/
def withMissing (e : Environment) (name value : String) : Environment :=
  if (e.value? name).isSome then e else e ++ [(name, value)]

/-- What the names of all settings begin with. -/
def mark : List Char := "latency_".toList

/-- A point for every two underscores. -/
def withPoints : List Char → List Char
  | '_' :: '_' :: rest => '.' :: withPoints rest
  | c :: rest => c :: withPoints rest
  | [] => []

/-- The name of the setting that a variable stands for. -/
def settingName? (name : String) : Option String :=
  let letters := name.toList.map Text.lowerChar
  if mark.isPrefixOf letters then some (String.ofList (withPoints (letters.drop mark.length)))
  else none

/-- The setting that the text of a variable stands for. -/
def settingOf (text : String) : Setting :=
  let word := Text.lower text
  if word = "true" then .boolean true
  else if word = "false" then .boolean false
  else match Decimal.int64? text, Decimal.real? text with
    | some n, _ => .integer n
    | none, some x => .real x
    | none, none => .text text

/-- The settings of an environment with their names. -/
def settings (e : Environment) : List (String × Setting) :=
  e.filterMap fun (name, text) => (settingName? name).map fun key => (key, settingOf text)

end Environment

end OrderTelemetry
