import Std.Time.DateTime.Timestamp
import TagLedger.Config.Startup
import TagLedger.Service.Server

/-!
# The command line

The service starts with the settings of the current directory and answers requests from standard
input until it ends. A request is a line with a document that holds the method, the path and, if
there is one, the text of the body; the answer is a line with a document that holds the status and
the body. Documents and the replies of the model live as long as the program.
-/

namespace TagLedger.CommandLine

/-- The settings file of the current directory. -/
def settingsHere : IO SettingsFile := do
  try
    return .text (← IO.FS.readFile Config.filePath)
  catch
    | .noFileOrDirectory .. => return .absent
    | _ => return .folder

def textField (j : Json) (key : String) : Option String :=
  match j.field? key with
  | some (.str s) => some s
  | _ => none

/-- The request that a line writes. -/
def requestOf (line : String) : Option Service.Request :=
  match Json.parseText line with
  | .ok j => do return ⟨← textField j "method", ← textField j "path", textField j "body"⟩
  | .error _ => none

/-- The answer to a line, and what happens then. -/
def answerLine (line : String) (w : Schedule Service.Response) :
    Json × Schedule Service.Response :=
  match requestOf line with
  | none => (Service.Problem.badBody.response.document, w)
  | some r =>
    match w.call [Service.answer r] with
    | ([some (.ok a)], w) => (a.document, w)
    | (_, w) => ((⟨500, .text "Internal Server Error"⟩ : Service.Response).document, w)

/-- The time in milliseconds. -/
def timeNow : IO Int := do
  return (← Std.Time.Timestamp.now).toMillisecondsSinceUnixEpoch.val

/-- The session with its clock set. -/
def atTime (now : Int) (s : Session) : Session :=
  { s with storage := { s.storage with clock := { s.storage.clock with now := now } } }

partial def serve (input output : IO.FS.Stream) (w : Schedule Service.Response) : IO Unit := do
  let line ← input.getLine
  if !line.isEmpty then
    let now ← timeNow
    let (answer, w) := answerLine line (w.change (atTime now))
    output.putStrLn (Json.render .wideLine answer)
    output.flush
    serve input output w

end TagLedger.CommandLine

open TagLedger in
/-- Starts the service and answers what is asked. -/
def main : IO UInt32 := do
  match Startup.ofFile Config.filePath (← CommandLine.settingsHere) with
  | .error _ =>
    IO.eprintln ("A value in " ++ Config.filePath ++ " cannot be made out")
    return 1
  | .ok s =>
    if let some warning := s.warning then
      IO.eprintln ("Could not load the settings, using defaults: " ++ warning)
    let now ← CommandLine.timeNow
    let session := Session.ofConfig s.config (.ofDocuments []) now (.ofReplies [])
    let (_, w) := (Schedule.ofSession session).call [do Service.start; return ⟨200, .text ""⟩]
    CommandLine.serve (← IO.getStdin) (← IO.getStdout) w
    return 0
