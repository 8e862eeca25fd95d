import TagLedger.Service.Endpoint

/-!
# Variables and values

The endpoints that list, create, rename and remove variables, and those that show and change what a
chat holds under one: entries of a stack, the content and the history of a slot.

    a value can be changed only in the mode of its variable          (`ofMode`)
-/

namespace TagLedger.Service

open Schema

/-! ## Lookup -/

/-- The variable with an identifier. -/
def variableOf (id : String) : Serving Definition := require (.noVariable id) (Variables.find? id)

/-- The variable with an identifier, which has to be in a mode. -/
def ofMode (mode : Mode) (id : String) : Serving Definition := do
  let d ← variableOf id
  if d.mode ≠ mode then throw (.wrongMode d.name mode)
  return d

def deleted (id : Json) : Json := .obj [("deleted", id)]

/-! ## Variables -/

def listVariables : Serving Json := do
  return .arr ((← stored Variables.list).map Definition.document)

def createVariable (name tag mode : String) : Serving Json := do
  let d ← unwrap (Variables.create (some name) (some tag) (Json.find? Mode.named mode))
  return d.document

def renameVariable (id : String) (name : Option String) : Serving Json := do
  return (← unwrap (Variables.rename id name)).document

def deleteVariable (id : String) : Serving Json := do
  let linked := (← served get).linked
  return deleted (.str (← unwrap (Variables.delete linked id)).id)

def variableEndpoints : List Endpoint :=
  [plain "GET" "/variables" fun _ => listVariables,
   (reading "POST" "/variables" fun _ => record "VariableCreateRequest" fun r =>
      createVariable <$> r.required "name" text <*> r.required "tag" text
        <*> r.required "mode" text).creates,
   plain "GET" "/variables/*" fun a => Definition.document <$> variableOf (a.param 0),
   reading "PATCH" "/variables/*" fun a => record "VariableUpdateRequest" fun r =>
      renameVariable (a.param 0) <$> r.optional "name" none (nullable text),
   plain "DELETE" "/variables/*" fun a => deleteVariable (a.param 0)]

/-! ## Values -/

def showValue (chat id : String) : Serving Json := do
  let _ ← variableOf id
  let value ← stored (Storage.getValue id chat)
  let shown ← stored (Variables.text id chat)
  return .obj [("value", Json.ofOption Value.document value), ("text", .str shown)]

def addEntry (chat id content floors : String) : Serving Json := do
  let _ ← ofMode .stack id
  return (← stored (Variables.addEntry id chat content floors)).document

def updateEntry (chat id : String) (entry : Int) (content : String) : Serving Json := do
  return (← unwrap (Variables.updateEntry id chat entry content)).document

def deleteEntry (chat id : String) (entry : Int) : Serving Json := do
  return deleted (.int (← unwrap (Variables.deleteEntry id chat entry)).id)

def toggleEntry (chat id : String) (entry : Int) : Serving Json := do
  return .obj [("hidden", .bool (← unwrap (Variables.toggleEntry id chat entry)))]

def reorderEntries (chat id : String) (order : List Int) : Serving Json := do
  unwrap (Variables.reorderEntries id chat order)
  return .obj [("order", .arr (order.map .int))]

def putContent (chat id content floors : String) : Serving Json := do
  let _ ← ofMode .replace id
  return (← stored (Variables.put id chat content floors)).fullDocument

def navigate (chat id direction : String) : Serving Json := do
  let _ ← ofMode .replace id
  let (place, total) ← unwrap (Variables.navigate id chat direction)
  let shown ← stored (Variables.shown id chat)
  return .obj [("index", .int place), ("total", .int total), ("content", .str shown.content),
    ("floorRange", .str shown.floors), ("isHistory", .bool shown.isHistory)]

def restore (chat id : String) (version : Int) : Serving Json := do
  let _ ← ofMode .replace id
  return (← unwrap (Variables.restore id chat version)).fullDocument

def inherit (source target : String) (floor : Option Int) (chosen : Bool) (ids : List String) :
    Serving Json := do
  let only := if chosen then some ids else none
  let copied ← unwrap (Variables.inherit source target floor only)
  return .obj [("inherited", .arr (copied.map .str))]

/-- A content with the floors that it came from. -/
def contentBody (serve : String → String → Serving Json) : Decoder (Serving Json) :=
  record "EntryCreateRequest" fun r =>
    serve <$> r.required "content" text
      <*> r.optional ⟨"floorRange", "floor_range"⟩ "" text

def valueEndpoints : List Endpoint :=
  [plain "GET" "/chats/*/values/*" fun a => showValue (a.param 0) (a.param 1),
   (reading "POST" "/chats/*/values/*/entries" fun a =>
      contentBody (addEntry (a.param 0) (a.param 1))).creates,
   taking "PATCH" "/chats/*/values/*/entries/*" fun a =>
      updateEntry (a.param 0) (a.param 1) <$> a.number 2 "entry_id"
        <*> a.read (record "EntryUpdateRequest" fun r => r.required "content" text),
   checked "DELETE" "/chats/*/values/*/entries/*" fun a =>
      deleteEntry (a.param 0) (a.param 1) <$> a.number 2 "entry_id",
   checked "POST" "/chats/*/values/*/entries/*/toggle" fun a =>
      toggleEntry (a.param 0) (a.param 1) <$> a.number 2 "entry_id",
   reading "PUT" "/chats/*/values/*/entries/order" fun a => record "EntryOrderRequest" fun r =>
      reorderEntries (a.param 0) (a.param 1) <$> r.required "order" (list integer),
   reading "PUT" "/chats/*/values/*/current" fun a =>
      contentBody (putContent (a.param 0) (a.param 1)),
   reading "POST" "/chats/*/values/*/history/navigate" fun a => record "NavigateRequest" fun r =>
      navigate (a.param 0) (a.param 1)
        <$> r.required "direction" (oneOf [("prev", "prev"), ("next", "next")]),
   checked "POST" "/chats/*/values/*/history/*/apply" fun a =>
      restore (a.param 0) (a.param 1) <$> a.number 2 "history_index",
   reading "POST" "/chats/*/inherit" fun a => record "InheritRequest" fun r =>
      inherit (a.param 0) <$> r.required ⟨"targetChatId", "target_chat_id"⟩ text
        <*> r.optional ⟨"branchFloor", "branch_floor"⟩ none (nullable integer)
        <*> r.optional "mode" false (oneOf [("all", false), ("custom", true)])
        <*> r.optional ⟨"variableIds", "variable_ids"⟩ [] (list text)]

end TagLedger.Service
