import TagLedger.Schema.Issue
import TagLedger.Store.Migration
import TagLedger.Template.Reference
import TagLedger.Text.Lines

/-!
# Failures of operations

An operation may fail because a document cannot be kept, because an input does not fit its schema,
because the model cannot be asked, or because a text asks for something that its values do not have.
Failures that a user is told about have a message.
-/

namespace TagLedger

open Schema

/-- Why a document could not be read, written or removed. -/
inductive StorageFault where
  | cannotRead (name : String)
  | cannotWrite (name : String)
  | cannotDelete (name : String)
  /-- The root was not readable in this session, so it is not written over. -/
  | rootUnreadable (name : String)
  /-- The values of a chat were not readable, so they are not written over. -/
  | chatUnreadable (chat : String)
  deriving DecidableEq

def StorageFault.message : StorageFault → String
  | .cannotRead name => "cannot read " ++ name
  | .cannotWrite name => "cannot write " ++ name
  | .cannotDelete name => "cannot delete " ++ name
  | .rootUnreadable name =>
    "Root document " ++ name ++ " failed to load; refusing to overwrite it"
  | .chatUnreadable chat =>
    "Values for chat " ++ chat ++ " failed to load; refusing to overwrite them"

/-- Why the model gave no reply. -/
inductive CompletionFault where
  /-- The model's own words. -/
  | reported (text : String)
  | unreachable (text : String)
  | status (code : Int) (reason url : String)
  | badReply (sender : String)
  deriving DecidableEq

/-- The class of a status that is no success. -/
def statusClass (code : Int) : String :=
  if code < 200 then "Informational response"
  else if code < 400 then "Redirect response"
  else if code < 500 then "Client error"
  else "Server error"

def CompletionFault.message : CompletionFault → String
  | .reported text => text
  | .unreachable text => "HTTP error during LLM generation: " ++ Text.firstLine text
  | .status code reason url =>
    "HTTP error during LLM generation: " ++ statusClass code ++ " '" ++ Text.intText code ++ " " ++
      reason ++ "' for url '" ++ url ++ "'"
  | .badReply sender => "Invalid JSON from " ++ sender

inductive Failure where
  | storage (fault : StorageFault)
  /-- A root document of a version that is not supported. -/
  | version (found : String)
  | invalid (issues : List Issue)
  | completion (fault : CompletionFault)
  /-- A number, a numeral or a format that cannot be used. -/
  | badValue
  | unknownField
  | noPosition
  | noFields
  | wrongKind
  | tooLarge
  | cancelled
  deriving DecidableEq

/-- A root document was written by something newer. -/
def versionMessage (found : String) : String :=
  "Storage document version " ++ found ++ " is newer than the supported version " ++
    Text.intText Root.currentVersion

namespace Failure

def ofNumeral : Text.NumeralTooLong → Failure := fun _ => .badValue

def ofFormat : FloorFormat.Fault → Failure
  | .badTemplate => .badValue
  | .unknownField _ => .unknownField
  | .noPosition => .noPosition
  | .noAttribute => .noFields
  | .noPart => .wrongKind
  | .tooLarge => .tooLarge

def ofTemplate : Template.Fault → Failure
  | .numeralTooLong => .badValue
  | .format f => ofFormat f

def ofScript : ScriptError → Failure
  | .hugeCount => .tooLarge
  | .numeralTooLong => .badValue
  | .mixedClasses => .badValue

def ofRender : RenderFault → Failure
  | .format f => ofFormat f
  | .script e => ofScript e

def ofMigration : Migration.Fault → Failure
  | .version v => .version v
  | .noFields => .noFields
  | .wrongKind => .wrongKind
  | .badNumber => .badValue
  | .infinite => .tooLarge
  | .invalid is => .invalid is

end Failure

end TagLedger
