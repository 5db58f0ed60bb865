import ProxyPlane.Settings.Validation
import ProxyPlane.Toml.Reader

/-!
# Where settings come from

The settings are those of a TOML file, if there is one, changed by variables of the environment, and
then they must obey the rules.

## What is here

* `Settings.override`, the settings changed by variables of the environment.
* `Settings.load`, the settings that a run of the program uses.
* `SettingsError`, why there are none.
-/

set_option autoImplicit false
namespace ProxyPlane

/-- Why there are no settings. -/
inductive SettingsError
  | io (path : String) (source : IoError)
  | parse (source : Toml.Error)
  | badVariable (name value : String)
  | invalid (problems : List SettingsProblem)
deriving DecidableEq, Repr, Inhabited

/-- One line for people. -/
def SettingsError.message : SettingsError → String
  | io path source => s!"IO error reading {path}: {source.message}"
  | parse source => s!"Parse error: {source.message}"
  | badVariable name value => s!"Invalid value for {name}: '{value}'"
  | invalid problems =>
    "Validation failed: " ++ ", ".intercalate (problems.map SettingsProblem.message)

namespace Settings

/-- What the names of all variables begin with. -/
def variableStart : String := "PROXY_SYNC_"

/-- The variables of all settings, in the order in which they are looked at. -/
def overrides : List (String × (String → Settings → Option Settings)) :=
  sections.flatMap (·.overrides)

/-- The settings changed by the variables of the environment.  A variable whose text does not fit
its setting is refused. -/
def override (s : Settings) (lookup : String → Option String) : Except SettingsError Settings :=
  overrides.foldlM (fun s (v : String × (String → Settings → Option Settings)) =>
    let name := variableStart ++ v.1
    match lookup name with
    | none => .ok s
    | some text =>
      match v.2 text s with
      | some s => .ok s
      | none => .error (.badVariable name text)) s

/-- The settings if nothing is wrong with them. -/
def checked (s : Settings) : Except SettingsError Settings :=
  if s.problems.isEmpty then .ok s else .error (.invalid s.problems)

/-- The settings of a text. -/
def ofText (text : String) : Except SettingsError Settings :=
  match Toml.read text with
  | .error e => .error (.parse e)
  | .ok v =>
    match ofToml v with
    | .error e => .error (.parse e)
    | .ok s => .ok s

/-- The settings of a file, or the defaults if no file is given. -/
def ofFile : Option String → FileProgram (Except SettingsError Settings)
  | none => return .ok default
  | some path => do
    return match ← Files.readText path with
      | .error e => .error (.io path e)
      | .ok text => ofText text

/-- The settings that a run of the program uses. -/
def load (path : Option String) (lookup : String → Option String) :
    FileProgram (Except SettingsError Settings) := do
  return ((← ofFile path).bind fun s => s.override lookup).bind checked

end Settings
end ProxyPlane
