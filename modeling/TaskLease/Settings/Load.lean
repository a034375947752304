import TaskLease.Json.Reader
import TaskLease.Settings.Decode
import TaskLease.Settings.EnvironmentFile
import TaskLease.Settings.Layering
import TaskLease.Settings.Toml
import TaskLease.Settings.Yaml

/-!
# Loading settings

Settings are put together from a default file, the file of a profile, and the environment, each laid over
the ones before; what none of them gives has its default. An environment file, if there is one, sets
variables beforehand. A file that is missing says nothing, but one that can not be read as what its name
promises spoils the whole.
-/

namespace TaskLease

/-- Why there are no settings. -/
inductive LoadFault where
  /-- A file, or what a setting says, can not be read. -/
  | unreadable
  /-- The settings could not work. -/
  | refused (fault : SettingFault)
deriving DecidableEq, Repr

/-- The formats of files with settings. -/
inductive SettingFormat where
  | toml
  | json
  | yaml
deriving DecidableEq, Repr

namespace SettingFormat

/-- The endings of file names and their formats, in the order in which files are looked for. -/
def endings : List (String × SettingFormat) :=
  [("toml", .toml), ("json", .json), ("yaml", .yaml), ("yml", .yaml)]

/-- The text without the mark that some editors put at its start. -/
def dropMark (text : String) : String :=
  match text.toList with
  | '\uFEFF' :: rest => String.ofList rest
  | _ => text

/-- The settings in a text. -/
def read (format : SettingFormat) (text : String) : Option (List (String × SettingValue)) :=
  let text := dropMark text
  match format with
  | .toml => Toml.read text
  | .yaml => Yaml.read text
  | .json =>
    match (Json.read text).map fun value => (SettingValue.ofJson value).lastOnly with
    | some (.table entries) => some entries
    | _ => none

end SettingFormat

namespace Settings

/-- Where files are read from, by their paths as texts. -/
abbrev Files := String → Option ByteArray

/-- The text of a file that is there. -/
def textAt (files : Files) (path : String) : Option String := (files path).bind String.fromUTF8?

/-- The name of a file without the slashes and dots at its end that stay where it leads. The characters
come in reverse order. -/
def trimmed : List Char → List Char
  | '/' :: cs => trimmed cs
  | '.' :: '/' :: cs => trimmed cs
  | cs => cs

/-- The path of a file with an ending added to its name, if it has a name. -/
def withEnding? (path ending : String) : Option String :=
  match trimmed path.toList.reverse with
  | '.' :: '.' :: '/' :: _ => none
  | cs => some (String.ofList cs.reverse ++ "." ++ ending)

/-- The ending of a file's name: what follows its last dot, unless the name begins with that. -/
def ending? (path : String) : Option String :=
  match ((path.splitOn "/").getLastD "").splitOn "." with
  | [_] | ["", _] => none
  | parts => parts.getLast?

/-- The file that a name without ending stands for, and its format: a file of that very name, whose
ending has to be known, or else the first one with a known ending added. -/
def fileOf (files : Files) (path : String) : Option (String × SettingFormat) :=
  if (files path).isSome then do
    return (path, ← SettingFormat.endings.lookup (← ending? path))
  else
    SettingFormat.endings.findSome? fun (ending, format) => do
      let path ← withEnding? path ending
      if (files path).isSome then some (path, format) else none

/-- The files that are looked for under a name. -/
def candidates (path : String) : List String :=
  path :: SettingFormat.endings.filterMap fun e => withEnding? path e.1

/-- The name of the files with defaults. -/
def defaultsName : String := "config/default"

/-- The name of the files of a profile. -/
def profileName (profile : String) : String := s!"config/{profile}"

/-- The path of the environment file. -/
def environmentFile : String := ".env"

/-- The settings in the file that a name stands for; none, if there is no such file. -/
def sourceAt (files : Files) (name : String) : Except LoadFault (List (String × SettingValue)) :=
  match fileOf files name with
  | none => .ok []
  | some (path, format) =>
    match textAt files path with
    | none => .ok []
    | some text =>
      match format.read text with
      | some entries => .ok entries
      | none => .error .unreadable

/-- The variables, with those of the environment file. -/
def bindings (files : Files) (given : Environment.Bindings) : Environment.Bindings :=
  match textAt files environmentFile with
  | some content => Environment.addFile given content
  | none => given

/-- The settings in a value, read leniently and checked. -/
def ofSources (value : SettingValue) : Except LoadFault Settings :=
  match Settings.ofValue? .lenient value with
  | none => .error .unreadable
  | some settings =>
    match settings.check with
    | .ok () => .ok settings
    | .error fault => .error (.refused fault)

/-- Loads the settings. -/
def load (files : Files) (given : Environment.Bindings) : Except LoadFault Settings := do
  let bindings := bindings files given
  let defaults ← sourceAt files defaultsName
  let profile ← sourceAt files (profileName (Environment.profile bindings))
  let sources := [defaults, profile, Environment.settings bindings]
  ofSources (sources.foldl SettingValue.addSource (.table []))

end Settings

end TaskLease
