import TagLedger.Service.Suites

/-!
# Analyses and the queue

The endpoints that run a suite, store a reply given by hand, show the log of calls, try out rules
and templates, tell of new messages, and look after the queue. Whatever chat comes with a request is
remembered as the chat's latest state.

    (analyzeSuite id c texts b) answers 409 while an analysis is under way
-/

namespace TagLedger.Service

open Schema

/-! ## Chats -/

/-- Remembers the latest state of a chat, and texts for items about characters if any are given. -/
def remember (c : Chat) (texts : Option (List (String × String))) : Serving Unit :=
  served (modify fun s =>
    let host := s.host.remember c
    { s with host := match texts with
      | some ts => { host with itemTexts := Json.insert host.itemTexts c.id ts }
      | none => host })

/-- A chat in a body, and texts for items about characters. -/
def chatBody {α : Type} (r : Fields)
    (serve : Checked (Chat → Option (List (String × String)) → α)) : Checked α :=
  serve <*> r.required "chat" Chat.decode
    <*> r.optional ⟨"charPrompts", "char_prompts"⟩ none (nullable (mapping text))

def newMessage (id : String) (c : Chat) (texts : Option (List (String × String))) :
    Serving Json := do
  if c.id ≠ id then throw .otherChat
  remember c texts
  let tasks ← served (Session.newMessage c)
  return .obj [("queued", .arr (tasks.map Task.document))]

/-! ## Analyses -/

def analysisDocument (r : AnalysisResult) : Json :=
  .obj [("floorRange", .str r.floors), ("response", Json.ofOption .str r.response),
    ("results", .arr (r.results.map fun t =>
      .obj [("tag", .str t.tag), ("content", .str t.content)])),
    ("missingTags", .arr (r.missing.map .str)), ("assigned", .int r.assigned)]

def analyzeSuite (id : String) (assign : Bool) (c : Chat)
    (texts : Option (List (String × String))) : Serving Json := do
  let _ ← suiteOf id
  remember c texts
  let r ← served (if assign then Session.run id c else Session.analyze id c)
  match r.fault with
  | some why => throw (.analysis why)
  | none => return analysisDocument r

def applyReply (id chat content : String) (length : Int) : Serving Json := do
  let _ ← suiteOf id
  match ← served (Session.apply content id chat length) with
  | .error why => throw (.analysis why)
  | .ok n => return .obj [("applied", .int n)]

def showLog (chat : String) : Serving Json := do
  let records := match (← served get).log with
    | some l => l.read chat
    | none => []
  return .obj [("entries", .arr (records.map CallRecord.document))]

def clearLog (chat : String) : Serving Json := do
  match (← served get).log with
  | none => return .obj [("cleared", .bool false)]
  | some l =>
    let (r, l) := l.clear chat
    served (modify fun s => { s with log := some l })
    match r with
    | .ok b => return .obj [("cleared", .bool b)]
    | .error _ => served (throw .wrongKind)

/-! ## Trying out -/

def previewRange (rule : RangeRule) (chat : Option String) (length : Option Int)
    (excludeUser : Bool) : Serving Json := do
  let host := (← served get).host
  let known := chat.bind fun id => if id = "" then none else host.chat? id
  match length.orElse fun _ => known.map fun c => (c.length : Int) with
  | none => throw .needsLength
  | some n =>
    checkRange (some rule) (some n)
    let floors := rule.select n excludeUser ((known.map (·.messages)).getD [])
    return .obj [("floors", .arr (floors.map .int)), ("preview", .str (preview floors))]

def previewTemplate (chat template : String) (messages : List Message) : Serving Json := do
  stored (Variables.warm chat)
  return .obj [("text", .str (← served (Session.resolve chat messages template)))]

/-! ## The queue -/

def showQueue : Serving Json := do
  let q := (← served get).queue
  return .obj [("snapshotMode", .bool q.snapshotMode), ("tasks", .arr (q.tasks.map Task.document))]

def enqueueSuite (id : String) (c : Chat) (texts : Option (List (String × String))) :
    Serving Json := do
  remember c texts
  match ← served (Session.trigger id c .manual) with
  | some t => return t.document
  | none => throw (.noSuite id)

/-- A change of the queue. -/
def onTasks {α : Type} (f : Queue → α × Queue) : Serving α :=
  served (Session.askQueue f : Action Session α)

/-- A change of the queue for one task, told under a key. -/
def onTask (p : Problem) (key id : String) (f : Queue → Bool × Queue) : Serving Json := do
  ensure p (onTasks f)
  return .obj [(key, .str id)]

/-! ## Settings -/

def showSettings : Serving Json := do return (← stored Storage.settings).document

def setOverride (api : ApiOverride) : Serving Json := do
  let settings ← stored Storage.settings
  stored (Storage.saveSettings { settings with api := api })
  return api.document

def setEnabled (enabled : Bool) : Serving Json := do
  let settings ← stored Storage.settings
  stored (Storage.saveSettings { settings with enabled := enabled })
  return .obj [("enabled", .bool enabled)]

def showHealth : Serving Json := do
  let healthy := (← served get).model.healthy
  let definitions ← stored Variables.list
  let suites ← stored Suites.list
  return .obj [("status", .str "ok"), ("llm_available", .bool healthy),
    ("variables", .int definitions.length), ("suites", .int suites.length)]

/-! ## Endpoints -/

def healthEndpoints : List Endpoint := [plain "GET" "/health" fun _ => showHealth]

def messageEndpoints : List Endpoint :=
  [reading "POST" "/chats/*/messages" fun a => record "NewMessageRequest" fun r =>
    chatBody r (.valid (newMessage (a.param 0)))]

def analysisEndpoints : List Endpoint :=
  [reading "POST" "/suites/*/analyze" fun a => record "AnalyzeRequest" fun r =>
      (fun c assign texts => analyzeSuite (a.param 0) assign c texts)
        <$> r.required "chat" Chat.decode
        <*> r.optional "assign" true truth
        <*> r.optional ⟨"charPrompts", "char_prompts"⟩ none (nullable (mapping text)),
   reading "POST" "/suites/*/apply" fun a => record "ApplyRequest" fun r =>
      applyReply (a.param 0) <$> r.required ⟨"chatId", "chat_id"⟩ text
        <*> r.required "content" text
        <*> r.optional ⟨"chatLength", "chat_length"⟩ 0 integer,
   plain "GET" "/chats/*/analysis-log" fun a => showLog (a.param 0),
   plain "DELETE" "/chats/*/analysis-log" fun a => clearLog (a.param 0),
   reading "POST" "/ranges/preview" fun _ => record "RangePreviewRequest" fun r =>
      previewRange <$> r.required ⟨"rangeConfig", "range_config"⟩ RangeRule.decode
        <*> r.optional ⟨"chatId", "chat_id"⟩ none (nullable text)
        <*> r.optional ⟨"chatLength", "chat_length"⟩ none (nullable integer)
        <*> r.optional ⟨"excludeUser", "exclude_user"⟩ false truth,
   reading "POST" "/macros/preview" fun _ => record "MacroPreviewRequest" fun r =>
      previewTemplate <$> r.required ⟨"chatId", "chat_id"⟩ text
        <*> r.required "template" text
        <*> r.optional "messages" [] (list Message.decode)]

def settingsEndpoints : List Endpoint :=
  [plain "GET" "/settings" fun _ => showSettings,
   taking "PUT" "/settings/api" fun a => setOverride <$> a.read ApiOverride.decode,
   reading "PUT" "/settings/enabled" fun _ => record "EnabledRequest" fun r =>
      setEnabled <$> r.required "enabled" truth]

def queueEndpoints : List Endpoint :=
  [plain "GET" "/queue" fun _ => showQueue,
   (reading "POST" "/queue" fun _ => record "EnqueueRequest" fun r =>
      chatBody r (enqueueSuite <$> r.required ⟨"suiteId", "suite_id"⟩ text)).creates,
   plain "DELETE" "/queue/*" fun a =>
      onTask (.noTask (a.param 0)) "deleted" (a.param 0) (·.remove (a.param 0)),
   plain "POST" "/queue/*/pause" fun a =>
      onTask (.notPausable (a.param 0)) "paused" (a.param 0) (·.pause (a.param 0)),
   plain "POST" "/queue/*/resume" fun a =>
      onTask (.notPaused (a.param 0)) "resumed" (a.param 0) (·.resume (a.param 0)),
   plain "POST" "/queue/abort" fun _ => do
      return .obj [("aborted", .bool (← onTasks (·.abort)))],
   plain "DELETE" "/queue" fun _ => do
      onTasks fun q => ((), q.clear)
      return .obj [("cleared", .bool true)]]

end TagLedger.Service
