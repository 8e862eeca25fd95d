import TagLedger.Config.Basic
import TagLedger.Yaml.Printer
import TagLedger.Yaml.Value

/-!
# The settings file

Settings are kept in one file of an installation. Without a file the defaults hold; an empty file is
an empty mapping.

    load dir (.text (save c)) = .ok c'   with c'.agrees c       for settings that were read
-/

namespace TagLedger

open Schema

/-- What stands at the place of the settings file. -/
inductive SettingsFile where
  | absent
  | folder
  | text (content : String)

inductive SettingsFault where
  | missing (path : String)
  | cannotRead (path : String)
  | malformed (path : String)
  | notMapping (path : String)
  | invalid (path : String) (issues : List Issue)
  | cannotSave (path : String)
  /-- A value that cannot be made out, which no message tells of. -/
  | badValue (fault : Yaml.Fault)

/-- A place in a document, with points between its steps. -/
def dotted (path : List Step) : String :=
  ".".intercalate (path.map fun
    | .key k => k
    | .index i => Text.natText i)

def SettingsFault.message : SettingsFault → String
  | .missing path => "Configuration file not found: " ++ path
  | .cannotRead path => "Cannot read " ++ path
  | .malformed path => "Invalid YAML in " ++ path
  | .notMapping path => "Expected a mapping at the top of " ++ path
  | .invalid path issues =>
    let line (i : Issue) : String := "  • " ++ dotted i.path ++ ": " ++ i.kind.message
    "\n".intercalate (("Invalid settings in " ++ path ++ ":") :: issues.map line)
  | .cannotSave path => "Failed to save system config to " ++ path
  | .badValue _ => ""

namespace Config

/-- The place of the settings within an installation. -/
def filePath : String := "config/system.yaml"

/-- The mapping in the settings file. -/
def readMapping (path : String) : SettingsFile → Except SettingsFault (List (String × Json))
  | .absent => .error (.missing path)
  | .folder => .error (.cannotRead path)
  | .text content =>
    match Yaml.parse content with
    | .error .malformed => .error (.malformed path)
    | .error fault => .error (.badValue fault)
    | .ok .null => .ok []
    | .ok (.obj fields) => .ok fields
    | .ok _ => .error (.notMapping path)

/-- The settings of an installation. -/
def load (path : String) (file : SettingsFile) : Except SettingsFault Config :=
  match file with
  | .absent => .ok .standard
  | file =>
    (readMapping path file).bind fun fields =>
      match Config.decode ⟨0, false⟩ (.obj fields) with
      | .valid c => .ok c
      | .invalid issues => .error (.invalid path issues)

/-- The text of the settings file. -/
def save (c : Config) : String := Yaml.print c.fields

/-- The same settings, where numbers are compared as numbers. -/
def agrees (c d : Config) : Bool :=
  let plain (c : Config) : Config :=
    { c with
      completion := { c.completion with temperature := .zero false }
      storage := { c.storage with debounceSeconds := .zero false } }
  decide (plain c = plain d) && c.completion.temperature.same d.completion.temperature &&
    c.storage.debounceSeconds.same d.storage.debounceSeconds

/-- The settings can be read back from the text they are saved as. -/
def survives (c : Config) : Bool :=
  match load filePath (.text c.save) with
  | .ok d => c.agrees d
  | .error _ => false

end Config

end TagLedger
