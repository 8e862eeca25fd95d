import TagLedger.Service.Variables

/-!
# Suites and items

The endpoints that list, create, change, activate and remove suites, and those for the items in
them. A rule for the floors of a chat is checked before it is put into an item, against the length
of the chat if that is known.

    checkRange none n = pure ()
-/

namespace TagLedger.Service

open Schema

/-! ## Suites -/

def suiteOf (id : String) : Serving Suite := require (.noSuite id) (Suites.find? id)

def listSuites : Serving Json := do
  let active ← stored Suites.active
  let suites ← stored Suites.list
  return .obj [("activeSuiteId", Json.ofOption (fun s : Suite => .str s.id) active),
    ("suites", .arr (suites.map Suite.document))]

def createSuite (name : Option String) (enabled : Bool) (trigger : Option Trigger)
    (useSnapshot : Option Bool) : Serving Json := do
  return (← stored (Suites.create name enabled trigger useSnapshot)).document

def showSuite (id : String) : Serving Json := do
  let s ← suiteOf id
  let standing := (← served get).queue.standing id
  return .obj (s.fields ++ [("status", standing.document)])

/-- New values that do not fit are the request's fault. -/
def fitting {α : Type} (x : Activity Storage α) : Serving α := do
  let r ← stored (tryCatch (Except.ok <$> x) fun
    | .invalid is => pure (.error (.badFields is))
    | e => throw e)
  match r with
  | .ok a => return a
  | .error p => throw p

def updateSuite (id : String) (updates : List (String × Json)) : Serving Json := do
  let _ ← suiteOf id
  ensure (.noSuite id) (fitting (Suites.update id updates))
  return (← suiteOf id).document

def deleteSuite (id : String) : Serving Json := do
  ensure (.noSuite id) (stored (Suites.delete id))
  return deleted (.str id)

def activateSuite (id : String) : Serving Json := do
  ensure (.noSuite id) (stored (Suites.activate id))
  return .obj [("activeSuiteId", .str id)]

/-! ## Items -/

/-- Fails if a rule for floors is no use. -/
def checkRange (rule : Option RangeRule) (length : Option ChatLength) : Serving Unit :=
  match rule.bind (·.problem? length) with
  | some why => throw (.badRange why)
  | none => pure ()

/-- What a new item of some kind may be made of. -/
structure ItemForm where
  place : Option Int
  name : String
  content : String
  variableId : Option String
  range : Option RangeRule
  excludeUser : Bool
  scripts : Option ScriptSet
  characterId : Option String
  part : Option CharacterPart
  label : String
  entryUid : Option Int
  /-- The length of the chat that the rule is meant for. -/
  chatLength : Option Int

/-- The kinds of items. -/
inductive ItemKind where
  | prompt
  | variable
  | chat
  | character

def ItemKind.named : List (String × ItemKind) :=
  [("prompt", .prompt), ("variable", .variable), ("chat-content", .chat),
   ("char-prompt", .character)]

def ItemKind.text : ItemKind → String
  | .prompt => "prompt"
  | .variable => "variable"
  | .chat => "chat-content"
  | .character => "char-prompt"

def ItemForm.decode (r : Fields) : Checked ItemForm :=
  ItemForm.mk <$> r.optional "index" none (nullable integer)
    <*> r.optional "name" "" text
    <*> r.optional "content" "" text
    <*> r.optional ⟨"variableId", "variable_id"⟩ none (nullable text)
    <*> r.optional ⟨"rangeConfig", "range_config"⟩ none (nullable RangeRule.decode)
    <*> r.optional ⟨"excludeUser", "exclude_user"⟩ false truth
    <*> r.optional ⟨"regexConfig", "regex_config"⟩ none (nullable ScriptSet.decode)
    <*> r.optional ⟨"charId", "char_id"⟩ none (nullable text)
    <*> r.optional ⟨"subType", "sub_type"⟩ none (nullable (oneOf CharacterPart.named))
    <*> r.optional "label" "" text
    <*> r.optional ⟨"entryUid", "entry_uid"⟩ none (nullable integer)
    <*> r.optional ⟨"chatLength", "chat_length"⟩ none (nullable integer)

/-- Makes an item of a kind; `none` if the suite does not take it. -/
def makeItem (id : String) (f : ItemForm) : ItemKind → Serving (Option Item)
  | .prompt => stored (Suites.addPrompt id f.content f.name f.place)
  | .variable => do
    let variableId := f.variableId.getD ""
    if variableId = "" then throw .needsVariable
    let _ ← variableOf variableId
    stored (Suites.addSlot id variableId f.place)
  | .chat => do
    checkRange f.range (f.chatLength.map .whole)
    stored (Suites.addChat id f.name f.range f.excludeUser f.scripts f.place)
  | .character => do
    let characterId := f.characterId.getD ""
    match f.part with
    | none => throw .needsCharacter
    | some part =>
      if characterId = "" then throw .needsCharacter
      stored (Suites.addCharacter id characterId part.text f.label f.entryUid)

def addItem (id : String) (kind : ItemKind) (f : ItemForm) : Serving Json := do
  let _ ← suiteOf id
  match ← makeItem id f kind with
  | none => throw (.notAdded kind.text)
  | some item => return item.document

/-- The length that a value tells, if any; texts and collections cannot be compared with floors. -/
def lengthOf : Json → Serving (Option ChatLength)
  | .null => return none
  | .int n => return some (.whole n)
  | .bool b => return some (.truth b)
  | .float x => return some (.number x)
  | _ => served (throw .wrongKind)

/-- Checks the rule among new values of an item. -/
def checkUpdates (updates : List (String × Json)) (length : Json) : Serving Unit := do
  match (Json.find? updates "rangeConfig").getD .null with
  | .null => pure ()
  | j =>
    let ctx ← stored Storage.context
    let rule ← fitting (Suites.valid (RangeRule.decode ctx j))
    checkRange (some rule) (← lengthOf length)

def updateItem (id itemId : String) (updates : List (String × Json)) : Serving Json := do
  let _ ← suiteOf id
  let length := (Json.find? updates "chatLength").getD .null
  let updates := updates.filter (·.1 != "chatLength")
  checkUpdates updates length
  ensure (.noItem itemId) (fitting (Suites.updateItem id itemId updates))
  match (← suiteOf id).find? itemId with
  | some item => return item.document
  | none => throw (.noItem itemId)

def deleteItem (id itemId : String) : Serving Json := do
  let _ ← suiteOf id
  ensure (.noItem itemId) (stored (Suites.removeItem id itemId))
  return deleted (.str itemId)

def reorderItems (id : String) (order : List String) : Serving Json := do
  let _ ← suiteOf id
  ensure .badOrder (stored (Suites.reorderItems id order))
  return .obj [("itemIds", .arr (order.map .str))]

/-! ## Endpoints -/

def suiteEndpoints : List Endpoint :=
  [plain "GET" "/suites" fun _ => listSuites,
   (reading "POST" "/suites" fun _ => record "SuiteCreateRequest" fun r =>
      createSuite <$> r.optional "name" none (nullable text)
        <*> r.optional "enabled" true truth
        <*> r.optional "trigger" none (nullable Trigger.decode)
        <*> r.optional ⟨"useSnapshotMode", "use_snapshot_mode"⟩ none (nullable truth)).creates,
   plain "GET" "/suites/*" fun a => showSuite (a.param 0),
   taking "PATCH" "/suites/*" fun a => updateSuite (a.param 0) <$> a.read anyMapping,
   plain "DELETE" "/suites/*" fun a => deleteSuite (a.param 0),
   plain "POST" "/suites/*/activate" fun a => activateSuite (a.param 0),
   (reading "POST" "/suites/*/items" fun a => record "ItemCreateRequest" fun r =>
      addItem (a.param 0) <$> r.required "type" (oneOf ItemKind.named)
        <*> ItemForm.decode r).creates,
   taking "PATCH" "/suites/*/items/*" fun a =>
      updateItem (a.param 0) (a.param 1) <$> a.read anyMapping,
   plain "DELETE" "/suites/*/items/*" fun a => deleteItem (a.param 0) (a.param 1),
   reading "PUT" "/suites/*/items/order" fun a => record "ItemOrderRequest" fun r =>
      reorderItems (a.param 0) <$> r.required ⟨"itemIds", "item_ids"⟩ (list text)]

end TagLedger.Service
