import TagLedger.Failure
import TagLedger.Tag.Reply

/-!
# Results of analyses

An analysis asks the model for the contents of a suite's variables. It ends with what the reply
tags, or with the reason why there is no reply to read.
-/

namespace TagLedger

/-- Why an analysis gave nothing. -/
inductive AnalysisFault where
  /-- Another one is under way. -/
  | busy
  | noSuite
  | noItems
  | noVariables
  | noReply (fault : CompletionFault)
  deriving DecidableEq

def AnalysisFault.message : AnalysisFault → String
  | .busy => "Analysis already in progress"
  | .noSuite => "Suite not found"
  | .noItems => "Suite has no visible prompt items"
  | .noVariables => "Suite has no enabled variables"
  | .noReply fault => fault.message

structure AnalysisResult where
  fault : Option AnalysisFault
  results : List Tagged
  /-- The floors of the chat that the prompt covered. -/
  floors : String
  response : Option String
  /-- Tags that were asked for and not given. -/
  missing : List String
  /-- How many results were stored. -/
  assigned : Nat
  deriving DecidableEq

namespace AnalysisResult

def failed (fault : AnalysisFault) (floors : String) : AnalysisResult :=
  ⟨some fault, [], floors, none, [], 0⟩

def succeeded (r : AnalysisResult) : Bool := r.fault.isNone

def document (r : AnalysisResult) : Json :=
  .obj [("success", .bool r.succeeded), ("results", .arr (r.results.map Tagged.document)),
    ("error", Json.ofOption (fun f : AnalysisFault => .str f.message) r.fault),
    ("floor_range", .str r.floors), ("response", Json.ofOption .str r.response),
    ("missing_tags", .arr (r.missing.map .str)), ("assigned", .int r.assigned)]

end AnalysisResult

/-- What came of storing a reply that was given by hand. -/
abbrev Application := Except AnalysisFault Nat

def Application.document : Application → Json
  | .ok n => .obj [("success", .bool true), ("applied", .int n), ("error", .null)]
  | .error f => .obj [("success", .bool false), ("applied", .int 0), ("error", .str f.message)]

end TagLedger
