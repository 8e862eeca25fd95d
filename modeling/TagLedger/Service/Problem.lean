import TagLedger.Session.Schedule
import TagLedger.Text.Percent

/-!
# Answers of the service

A request is answered with a status and a document. A request that cannot be served is answered with
the reason, and a request that does not fit the endpoint with every issue it has.

    (Problem.noSuite id).status = 404
-/

namespace TagLedger.Service

open Schema

/-- Why a request that fits its endpoint is not served. -/
inductive Problem where
  | noEndpoint
  /-- The path has endpoints, but none for the method. -/
  | noMethod
  /-- The body cannot be read as a document at all. -/
  | badBody
  | noVariable (id : String)
  | noSuite (id : String)
  | noItem (id : String)
  | noTask (id : String)
  | wrongMode (name : String) (mode : Mode)
  | refused (why : Refusal)
  | needsVariable
  | needsCharacter
  /-- An item of a kind was not added. -/
  | notAdded (kind : String)
  | badRange (why : RangeRule.Problem)
  | badOrder
  | otherChat
  | needsLength
  | notPausable (id : String)
  | notPaused (id : String)
  | analysis (why : AnalysisFault)
  /-- New values do not fit their fields. -/
  | badFields (issues : List Issue)

def Problem.detail : Problem → String
  | .noEndpoint => "Not Found"
  | .noMethod => "Method Not Allowed"
  | .badBody => "There was an error parsing the body"
  | .noVariable id => "Variable not found: " ++ id
  | .noSuite id => "Suite not found: " ++ id
  | .noItem id => "Item not found: " ++ id
  | .noTask id => "Task not found: " ++ id
  | .wrongMode name mode => "Variable '" ++ name ++ "' is not in " ++ mode.text ++ " mode"
  | .refused why => why.message
  | .needsVariable => "variableId is required"
  | .needsCharacter => "charId and subType are required"
  | .notAdded kind => "Could not add " ++ kind ++ " item (duplicate or invalid)"
  | .badRange why => why.message
  | .badOrder => "Order must contain every item id exactly once"
  | .otherChat => "Chat id in body does not match the path"
  | .needsLength => "chatLength or the chatId of a known chat is required"
  | .notPausable id => "Task cannot be paused: " ++ id
  | .notPaused id => "Task is not paused: " ++ id
  | .analysis why => why.message
  | .badFields issues => String.intercalate "\n" (issues.map fun i => i.kind.message)

/-- The status of an answer; a refusal counts as missing when its words say "not found". -/
def Problem.status : Problem → Nat
  | .noEndpoint | .noVariable _ | .noSuite _ | .noItem _ | .noTask _ => 404
  | .noMethod => 405
  | .refused why =>
    if containsText "not found".toList (Text.lower why.message).toList then 404 else 400
  | .analysis .busy => 409
  | _ => 400

inductive Payload where
  | document (j : Json)
  | text (s : String)
  /-- What is wrong with a request, place by place. -/
  | issues (is : List Issue)
  /-- What is wrong with new values, in words. -/
  | rejected (is : List Issue)

/-- The body of an answer as a document. -/
def Payload.body : Payload → Json
  | .document j => j
  | .text s => .str s
  | .issues is => .obj [("detail", .arr (is.map Issue.document))]
  | .rejected is => .obj [("detail", .str (String.intercalate "\n" (is.map (·.kind.message))))]

structure Response where
  status : Nat
  payload : Payload

def Response.document (r : Response) : Json :=
  .obj [("status", .int r.status), ("body", r.payload.body)]

def told (text : String) : Payload := .document (.obj [("detail", .str text)])

def Problem.response (p : Problem) : Response :=
  ⟨p.status, match p with
    | .badFields is => .rejected is
    | _ => told p.detail⟩

/-- A request that does not fit its endpoint. -/
def unfit (is : List Issue) : Response := ⟨422, .issues is⟩

/-- What an endpoint does. -/
abbrev Serving := ExceptT Problem (Activity Session)

variable {α β : Type}

def stored (x : Activity Storage α) : Serving α := ExceptT.lift (Session.stored x)

def served (x : Activity Session α) : Serving α := ExceptT.lift x

/-- The value of an operation that may be refused. -/
def unwrap (x : Activity Storage (Outcome α)) : Serving α := do
  match ← stored x with
  | .ok a => return a
  | .error why => throw (.refused why)

/-- Fails with a problem if nothing is there. -/
def require (p : Problem) (x : Activity Storage (Option α)) : Serving α := do
  match ← stored x with
  | some a => return a
  | none => throw p

/-- Fails with a problem unless something holds. -/
def ensure (p : Problem) (x : Serving Bool) : Serving Unit := do
  if !(← x) then throw p

/-- The response of what an endpoint does. -/
def respond (status : Nat) (x : Serving Json) : Activity Session Response :=
  tryCatch
    (do
      match ← x.run with
      | .ok j => return ⟨status, .document j⟩
      | .error p => return p.response)
    fun
      | .storage fault => return ⟨503, told fault.message⟩
      | .version found => return ⟨503, told (versionMessage found)⟩
      | _ => return ⟨500, .text "Internal Server Error"⟩

end TagLedger.Service
