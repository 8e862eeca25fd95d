import TagLedger.Schema.Record
import TagLedger.Variable.Basic

/-!
# Documents of variables

A stack value is recognised by its entries, a replace value by its current value or its history;
anything else is no value.

    readValue ctx v.document = some (.valid v)
-/

namespace TagLedger

open Schema

/-! ## Writing -/

def Mode.text : Mode → String
  | .stack => "stack"
  | .replace => "replace"

def Mode.named : List (String × Mode) := [("stack", .stack), ("replace", .replace)]

/-- An absent text or number is `null`. -/
def Json.ofOption {α : Type} (f : α → Json) : Option α → Json
  | some a => f a
  | none => .null

def Definition.document (d : Definition) : Json :=
  .obj [("id", .str d.id), ("name", .str d.name), ("tag", .str d.tag),
    ("mode", .str d.mode.text), ("createdAt", .int d.createdAt), ("updatedAt", .int d.updatedAt)]

def Entry.document (e : Entry) : Json :=
  .obj [("id", .int e.id), ("content", .str e.content), ("floorRange", .str e.floors),
    ("timestamp", .int e.timestamp), ("hidden", .bool e.hidden)]

def Slot.Shown.document (s : Slot.Shown) : Json :=
  .obj [("content", .str s.content), ("floor_range", .str s.floors),
    ("is_history", .bool s.isHistory)]

def Stack.document (s : Stack) : Json :=
  .obj [("entries", .arr (s.entries.map Entry.document)), ("nextEntryId", .int s.nextId)]

/-- The floor of older documents as a field, which may be left out when it is absent. -/
def Slot.floorField (s : Slot) (keepNull : Bool) : List (String × Json) :=
  match s.floor with
  | some n => [("currentFloor", .int n)]
  | none => if keepNull then [("currentFloor", .null)] else []

def Slot.fieldsWith (s : Slot) (keepNull : Bool) : Json :=
  .obj ([("currentValue", .str s.current), ("currentFloorRange", Json.ofOption .str s.floors)] ++
    s.floorField keepNull ++
    [("history", .arr (s.history.map Entry.document)), ("historyIndex", .int s.cursor)])

/-- With every field. -/
def Slot.fullDocument (s : Slot) : Json := s.fieldsWith true

/-- As it is stored: an absent floor is left out. -/
def Slot.document (s : Slot) : Json := s.fieldsWith false

def Value.document : Value → Json
  | .stack s => s.document
  | .slot s => s.document

/-! ## Reading -/

def Mode.decode : Decoder Mode
  | _, .str s =>
    match Json.find? Mode.named s with
    | some m => .valid m
    | none => .issue .notMember
  | _, _ => .issue .notMember

def Definition.decode : Decoder Definition :=
  record "VariableDefinition" fun r =>
    Definition.mk <$> r.required "id" text <*> r.required "name" text <*> r.required "tag" text
      <*> r.required "mode" Mode.decode
      <*> r.optional ⟨"createdAt", "created_at"⟩ r.context.now integer
      <*> r.optional ⟨"updatedAt", "updated_at"⟩ r.context.now integer

def Entry.decode : Decoder Entry :=
  record "VariableEntry" fun r =>
    Entry.mk <$> r.required "id" integer <*> r.required "content" text
      <*> r.optional ⟨"floorRange", "floor_range"⟩ "" text
      <*> r.optional "timestamp" r.context.now integer
      <*> r.optional "hidden" false truth

def Stack.decode : Decoder Stack :=
  record "StackValue" fun r =>
    Stack.mk <$> r.optional "entries" [] (list Entry.decode)
      <*> r.optional ⟨"nextEntryId", "next_entry_id"⟩ 1 integer

def Slot.decode : Decoder Slot :=
  record "ReplaceValue" fun r =>
    Slot.mk <$> r.optional ⟨"currentValue", "current_value"⟩ "" text
      <*> r.optional ⟨"currentFloorRange", "current_floor_range"⟩ none (nullable text)
      <*> r.optional ⟨"currentFloor", "current_floor"⟩ none (nullable integer)
      <*> r.optional "history" [] (list Entry.decode)
      <*> r.optional ⟨"historyIndex", "history_index"⟩ (-1) integer

/-- The value a document writes, its issues, or `none` if it has the shape of no value. -/
def Value.read (ctx : Context) (j : Json) : Option (Checked Value) :=
  match j with
  | .obj fields =>
    let has (key : String) : Bool := (Json.find? fields key).isSome
    if has "entries" then some ((Stack.decode ctx j).map .stack)
    else if has "currentValue" || has "current_value" || has "history" then
      some ((Slot.decode ctx j).map .slot)
    else none
  | _ => none

end TagLedger
