import TagLedger.Session.Basic
import TagLedger.Suite.Operation

/-!
# Analyses

An analysis renders the visible items of a suite, adds what the enabled variables ask for, sends it
to the model and reads the tags of the reply. One analysis runs at a time. A run also stores what it
read: a stack gets another entry, a slot another current content.

    (assign chat floors rs).finish yields as many as the tags of `rs` that a variable has
-/

namespace TagLedger.Session

/-! ## Prompts -/

/-- The text that an item gives for a chat, if any, and the floors it covers. -/
def itemText (c : Chat) : Item → Activity Session (Option Rendered)
  | .prompt p => do return some ⟨← resolve c.id c.messages p.content, []⟩
  | .chat item => do
    let format := (← get).templates.floorFormat
    let r ← Activity.ofExcept .ofRender (item.render format c.messages)
    return if r.text = "" then none else some r
  | .character item => do
    if c.characterId ≠ some item.characterId then return none
    return ((← get).host.characterText? item c).bind fun t =>
      if t = "" then none else some ⟨t, []⟩
  | .variable _ => return none

/-- The texts of items in order. -/
def itemTexts (c : Chat) : List Item → Activity Session (List Rendered)
  | [] => return []
  | i :: r => do
    let text ← itemText c i
    return text.toList ++ (← itemTexts c r)

/-- Floors in words: from the least to the greatest, or the last floor of the chat if there is
none. -/
def spanText (last : Nat) : List Int → String
  | [] => Text.intText last
  | f :: r =>
    let low := r.foldl min f
    let high := r.foldl max f
    if low = high then Text.intText low else Text.intText low ++ "-" ++ Text.intText high

/-- The prompt of a suite for a chat, and the floors it covers. -/
def prompt (suiteId : String) (c : Chat) : Activity Session (String × String) := do
  let items ← stored (Suites.visibleItems suiteId)
  let texts ← itemTexts c items
  return (String.intercalate "\n" (texts.map (·.text)),
    spanText c.length (texts.flatMap (·.floors)))

/-- Definitions of the variables with these identifiers, unknown ones left out. -/
def definitionsOf : List String → Activity Storage (List Definition)
  | [] => return []
  | id :: r => do
    let d ← Variables.find? id
    return d.toList ++ (← definitionsOf r)

/-- The definitions of the enabled variables of a suite. -/
def enabledDefinitions (suiteId : String) : Activity Session (List Definition) :=
  stored do definitionsOf (← Suites.enabledVariables suiteId)

/-! ## Asking -/

/-- What the model said, and its name. -/
structure Answered where
  model : String
  reply : Except Failure String

/-- Asks for a prepared reply, waiting while replies are held back. -/
def askRehearsal (text : String) : Activity Session Answered := do
  modify fun s => { s with model := s.model.hear text }
  if !(← get).model.gateOpen then .pause .gate
  let reply ← modifyGet fun s =>
    let (r, m) := s.model.reply
    (r, { s with model := m })
  return ⟨Completion.Rehearsal.model, match reply with
    | .text t => .ok t
    | .failure words => .error (.completion (.reported words))⟩

/-- Asks an endpoint. -/
def askEndpoint (client : Completion.Client) (text : String) : Activity Session Answered := do
  let messages := Completion.promptMessages none text
  let reply ← modifyGet fun s =>
    let (r, line) := s.line.ask client messages .none
    (r, { s with line := line })
  return match reply with
    | .ok r => ⟨r.model, .ok r.content⟩
    | .error e => ⟨client.model, .error e⟩

/-- The endpoint that was set in place of the model, if there is one. -/
def otherEndpoint? : Activity Session (Option Completion.Client) := do
  match (← get).endpoint with
  | none => return none
  | some client =>
    let api := (← stored Storage.settings).api
    return if Completion.ApiOverride.applies api then some (client.forAnalysis api) else none

/-- Asks the model and notes the call. -/
def ask (suite : Suite) (chat floors text : String) : Activity Session String := do
  let answered ← match ← otherEndpoint? with
    | some client => askEndpoint client text
    | none => askRehearsal text
  let note (response error : Option String) : Action Session Unit :=
    let record : CallRecord :=
      ⟨"analysis", suite.id, suite.name, answered.model, floors, text, response, error⟩
    modify fun s => { s with log := s.log.map (·.note chat record) }
  match answered.reply with
  | .ok t =>
    note (some t) none
    return t
  | .error (.completion fault) =>
    note none (some fault.message)
    throw (.completion fault)
  | .error e => throw e

/-! ## Analyses -/

/-- Reads a reply that was given for a suite. -/
def readReply (ds : List Definition) (floors response : String) :
    Activity Session AnalysisResult := do
  let results := parseReply response ds
  onAnalyzer fun a => { a with lastResponse := some response, lastResults := some results }
  return ⟨none, results, floors, some response, missingTags results ds, 0⟩

/-- An analysis, whether another one is under way or not. -/
def analyzeNow (suiteId : String) (c : Chat) : Activity Session AnalysisResult := do
  match ← stored (Suites.find? suiteId) with
  | none => return .failed .noSuite ""
  | some suite =>
    stored (Variables.warm c.id)
    let (text, floors) ← prompt suite.id c
    if text = "" then return .failed .noItems ""
    onAnalyzer fun a => { a with lastFloors := some floors }
    let ds ← enabledDefinitions suiteId
    if ds.isEmpty then return .failed .noVariables floors
    let reply ← tryCatch (Except.ok <$> ask suite c.id floors (text ++ "\n\n" ++ instructions ds))
      fun
        | .completion fault => pure (.error fault)
        | e => throw e
    match reply with
    | .error fault => return .failed (.noReply fault) floors
    | .ok response => readReply ds floors response

/-- Has the model fill the variables of a suite; nothing is stored. -/
def analyze (suiteId : String) (c : Chat) : Activity Session AnalysisResult := do
  if (← get).analyzer.busy then return .failed .busy ""
  onAnalyzer fun a => { a with busy := true }
  (analyzeNow suiteId c).ensuring (onAnalyzer fun a => { a with busy := false })

/-! ## Storing -/

/-- Stores a content under the variable of its tag; whether there is one. -/
def assignOne (chat floors : String) (r : Tagged) : Activity Storage Bool := do
  match ← Variables.findByTag? r.tag with
  | none => return false
  | some d =>
    match d.mode with
    | .stack =>
      let _ ← Variables.addEntry d.id chat r.content floors
      return true
    | .replace =>
      let _ ← Variables.put d.id chat r.content floors
      return true

/-- Stores contents one by one; how many were stored. -/
def assign (chat floors : String) : List Tagged → Activity Session Nat
  | [] => return 0
  | t :: r => do
    let here ← stored (assignOne chat floors t)
    return (if here then 1 else 0) + (← assign chat floors r)

/-- An analysis whose results are stored. -/
def run (suiteId : String) (c : Chat) : Activity Session AnalysisResult := do
  let r ← analyze suiteId c
  if !r.succeeded || r.results.isEmpty then return r
  let floors := if r.floors = "" then Text.intText c.length else r.floors
  return { r with assigned := ← assign c.id floors r.results }

/-- Stores a reply that was given by hand, under the floors of the last analysis. -/
def apply (content suiteId chat : String) (length : Int) : Activity Session Application := do
  let ds ← enabledDefinitions suiteId
  if ds.isEmpty then return .error .noVariables
  let results := parseReply content ds
  if results.isEmpty then return .ok 0
  let floors := match (← get).analyzer.lastFloors with
    | some f => if f = "" then Text.intText length else f
    | none => Text.intText length
  let n ← assign chat floors results
  onAnalyzer fun a => { a with lastResponse := some content, lastResults := some results }
  return .ok n

end TagLedger.Session
