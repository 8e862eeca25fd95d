import TagLedger.Config.File

/-!
# Starting with the settings of an installation

A service starts also when its settings cannot be taken: then the defaults hold and a warning says
why. While debugging, the log is more detailed and is also kept in a file.

    (ofFile path file).config = c           when the file holds the settings `c`
-/

namespace TagLedger

structure Startup where
  config : Config
  /-- Why the settings of the installation do not hold. -/
  warning : Option String

/-- How much a log tells; less is told from a higher level on. -/
inductive LogLevel where
  | detail
  | info
  | warning
  deriving DecidableEq

def LogLevel.value : LogLevel → Nat
  | .detail => 10
  | .info => 20
  | .warning => 30

namespace Startup

/-- Fails only where a value cannot be made out at all. -/
def ofFile (path : String) (file : SettingsFile) : Except Yaml.Fault Startup :=
  match Config.load path file with
  | .ok c => .ok ⟨c, none⟩
  | .error (.badValue fault) => .error fault
  | .error fault => .ok ⟨.standard, some fault.message⟩

/-- The level of the service's own log. -/
def level (s : Startup) : LogLevel := if s.config.debug then .detail else .info

/-- Whether the log is also kept in a file. -/
def keepsLog (s : Startup) : Bool := s.config.debug

theorem config_ofFile {path : String} {file : SettingsFile} {c : Config}
    (h : Config.load path file = .ok c) : ofFile path file = .ok ⟨c, none⟩ := by
  simp [ofFile, h]

end Startup

end TagLedger
