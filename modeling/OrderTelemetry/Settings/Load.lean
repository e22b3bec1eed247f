import OrderTelemetry.Settings.DotEnv
import OrderTelemetry.Settings.Sections
import OrderTelemetry.Settings.Toml.Document

/-!
# Loading the settings

The settings come from three sources: a file in TOML, the environment, and a file with variables for
the environment.  The environment lies over the file, and a variable of the environment over one of
the file with variables.  None of the sources has to be there.
-/

namespace OrderTelemetry

namespace Settings

/-- Where settings come from. -/
structure Sources where
  /-- The text of the file in TOML. -/
  file : Option String
  environment : Environment
  /-- The text of the file with variables. -/
  dotEnv : Option String

/-- The environment with the variables of the file for them. -/
def Sources.fullEnvironment (s : Sources) : Environment :=
  match s.dotEnv with
  | some text => DotEnv.load s.environment text
  | none => s.environment

/-- Everything that is written, the environment over the file. -/
def Sources.written (s : Sources) : Except Fault Setting :=
  let file := match s.file with
    | none => some []
    | some text => Toml.parse? text
  match file with
  | none => .error (.config "the configuration file is not a TOML document")
  | some members =>
    .ok (((Setting.table []).layer members).layer s.fullEnvironment.settings)

/-- The settings that the sources give. -/
def load (s : Sources) : Except Fault Settings := do
  match ofSetting? (← s.written) with
  | none => .error (.config "a configuration value has the wrong type or is missing")
  | some settings => settings.validated

/-- The text of the file with a name, or else of the one with the ending of TOML files. -/
def findFile (read : String → Option String) (path : String) : Option String :=
  (read path).or (read (path ++ ".toml"))

end Settings

end OrderTelemetry
