import TagLedger.Store.Load
import TagLedger.Suite.Slots
import TagLedger.Text.Case

/-!
# Operations on suites

Suites are created, changed field by field and removed; one of them may be active. Items are put
into a suite, changed in the fields that their kind lets be changed, moved and removed.
-/

namespace TagLedger.Suites

open Schema

/-! ## Suites -/

def list : Activity Storage (List Suite) := return (← Storage.suites).map (·.2)

def find? (id : String) : Activity Storage (Option Suite) :=
  return Json.find? (← Storage.suites) id

/-- The active suite, if there is one. -/
def active : Activity Storage (Option Suite) := do
  match (← Storage.settings).activeSuite with
  | some id => if id = "" then return none else find? id
  | none => return none

/-- Makes another suite active. -/
def setActive (id : Option String) : Activity Storage Unit := do
  let settings ← Storage.settings
  Storage.saveSettings { settings with activeSuite := id }

/-- Makes a suite active if there is one with this identifier. -/
def activate (id : String) : Activity Storage Bool := do
  match ← find? id with
  | none => return false
  | some _ =>
    setActive (some id)
    return true

/-- Creates a suite; the first one becomes active. -/
def create (name : Option String) (enabled : Bool) (trigger : Option Trigger)
    (useSnapshot : Option Bool) : Activity Storage Suite := do
  let suites ← Storage.suites
  let id ← Storage.newId "suite" 5
  let now ← Storage.now
  let name := match name with
    | some n => if n = "" then "New suite" else n
    | none => "New suite"
  let suite : Suite :=
    ⟨id, name, enabled, trigger.getD .manual, [], useSnapshot, now, now⟩
  let suites := Json.insert suites id suite
  Storage.saveSuites suites
  if suites.length = 1 then setActive (some id)
  return suite

/-- Removes a suite; if it was active, the first that is left becomes active. -/
def delete (id : String) : Activity Storage Bool := do
  let suites ← Storage.suites
  match Json.find? suites id with
  | none => return false
  | some _ =>
    let suites := suites.filter (·.1 != id)
    Storage.saveSuites suites
    if (← Storage.settings).activeSuite = some id then setActive (suites.head?.map (·.1))
    return true

/-! ## Changing fields -/

/-- A key in the plain spelling of fields: a low line and the lower-case letter for each capital. -/
def plainKey (key : String) : String :=
  String.ofList (key.toList.flatMap fun c =>
    if Text.isUpper c then '_' :: (Text.lower (String.singleton c)).toList else [c])

/-- The new values by plain key, of which the last counts. -/
def updatesByKey (updates : List (String × Json)) : List (String × Json) :=
  updates.foldl (fun m u => Json.insert m (plainKey u.1) u.2) []

/-- A field that keeps its value unless a new one is given. -/
def changed {α : Type} (r : Fields) (key : String) (old : α) (d : Decoder α) : Checked α :=
  r.optional key old d

/-- The suite with new values of its editable fields. -/
def edit (s : Suite) (updates : List (String × Json)) (ctx : Context) : Checked Suite :=
  let r : Fields := ⟨updatesByKey updates, ctx⟩
  (fun name enabled trigger items useSnapshot =>
    ⟨s.id, name, enabled, trigger, items, useSnapshot, s.createdAt, ctx.now⟩) <$>
    changed r "name" s.name text <*> changed r "enabled" s.enabled truth
      <*> changed r "trigger" s.trigger Trigger.decode
      <*> changed r "items" s.items (Schema.list Item.decode)
      <*> changed r "use_snapshot_mode" s.useSnapshot (nullable truth)

/-- The item with new values of the fields that its kind lets be changed. -/
def editItem (item : Item) (updates : List (String × Json)) (ctx : Context) : Checked Item :=
  let r : Fields := ⟨updatesByKey updates, ctx⟩
  match item with
  | .prompt p =>
    (fun name content enabled => .prompt ⟨p.id, name, content, enabled⟩) <$>
      changed r "name" p.name text <*> changed r "content" p.content text
        <*> changed r "enabled" p.enabled truth
  | .variable v => (fun enabled => .variable ⟨v.id, enabled⟩) <$>
      changed r "enabled" v.enabled truth
  | .chat c =>
    (fun name enabled range excludeUser scripts =>
      .chat ⟨c.id, name, enabled, range, excludeUser, scripts⟩) <$>
      changed r "name" c.name text <*> changed r "enabled" c.enabled truth
        <*> changed r "range_config" c.range RangeRule.decode
        <*> changed r "exclude_user" c.excludeUser truth
        <*> changed r "regex_config" c.scripts ScriptSet.decode
  | .character c => (fun enabled => .character { c with enabled := enabled }) <$>
      changed r "enabled" c.enabled truth

def valid {α : Type} (c : Checked α) : Activity Storage α :=
  match c with
  | .valid a => pure a
  | .invalid is => throw (.invalid is)

/-- Changes the editable fields of a suite. -/
def update (id : String) (updates : List (String × Json)) : Activity Storage Bool := do
  let suites ← Storage.suites
  match Json.find? suites id with
  | none => return false
  | some s =>
    let s ← valid (edit s updates (← Storage.context))
    Storage.saveSuites (Json.insert suites id s)
    return true

/-! ## Items -/

/-- Gives a suite other items. -/
def setItems (id : String) (items : List Item) : Activity Storage Unit := do
  let suites ← Storage.suites
  let now ← Storage.now
  Storage.saveSuites (suites.map fun s =>
    if s.1 == id then (s.1, { s.2 with items := items, updatedAt := now }) else s)

/-- Puts an item at a place of a list, or at its end if the place is not in it. -/
def insertAt (items : List Item) (item : Item) (place : Option Int) : List Item :=
  match place with
  | some n =>
    if 0 ≤ n ∧ n ≤ items.length then items.take n.toNat ++ item :: items.drop n.toNat
    else items ++ [item]
  | none => items ++ [item]

/-- Puts a new item into a suite. -/
def addItem (id : String) (place : Option Int)
    (make : Suite → Activity Storage (Option Item)) : Activity Storage (Option Item) := do
  match ← find? id with
  | none => return none
  | some s =>
    match ← make s with
    | none => return none
    | some item =>
      setItems id (insertAt s.items item place)
      return some item

def addPrompt (id content name : String) (place : Option Int) : Activity Storage (Option Item) :=
  addItem id place fun _ => do
    return some (.prompt ⟨← Storage.newId "item" 5, name, content, true⟩)

/-- Adds a slot for a variable, which a suite can have only one of. -/
def addSlot (id variableId : String) (place : Option Int) : Activity Storage (Option Item) :=
  addItem id place fun s =>
    if hasSlot variableId s then return none else return some (.variable ⟨variableId, true⟩)

def addChat (id name : String) (range : Option RangeRule) (excludeUser : Bool)
    (scripts : Option ScriptSet) (place : Option Int) : Activity Storage (Option Item) :=
  addItem id place fun _ => do
    return some (.chat ⟨← Storage.newId "item" 5, name, true, range.getD .standard, excludeUser,
      scripts.getD .empty⟩)

/-- The suite has an item for this part of a character, for an entry of a book also this entry. -/
def hasCharacterPart (s : Suite) (characterId part : String) (entryUid : Option Int) : Bool :=
  s.items.any fun
    | .character c =>
      c.characterId == characterId && c.part.text == part &&
        (part != "worldbook" || c.entryUid == entryUid)
    | _ => false

/-- Adds a text about a character, each part once. -/
def addCharacter (id characterId part label : String) (entryUid : Option Int) :
    Activity Storage (Option Item) :=
  addItem id none fun s => do
    if hasCharacterPart s characterId part entryUid then return none
    let itemId ← Storage.newId "item" 5
    let label := if label = "" then "[" ++ part ++ "]" else label
    let kind ← valid ((oneOf CharacterPart.named (← Storage.context) (.str part)).below
      (.key "sub_type"))
    return some (.character ⟨itemId, characterId, kind, label, entryUid, true⟩)

/-- Replaces the first item with this identifier. -/
def replaceItem (id : String) (new : Item) : List Item → List Item
  | [] => []
  | i :: r => if i.id == id then new :: r else i :: replaceItem id new r

def updateItem (id itemId : String) (updates : List (String × Json)) : Activity Storage Bool := do
  match ← find? id with
  | none => return false
  | some s =>
    match s.find? itemId with
    | none => return false
    | some item =>
      let new ← valid (editItem item updates (← Storage.context))
      setItems id (replaceItem itemId new s.items)
      return true

def removeItem (id itemId : String) : Activity Storage Bool := do
  match ← find? id with
  | none => return false
  | some s =>
    match s.find? itemId with
    | none => return false
    | some _ =>
      setItems id (s.items.eraseP fun i => i.id == itemId)
      return true

/-- The items by the first appearance of their identifiers. -/
def itemsInOrder (s : Suite) (ids : List String) : List Item :=
  ids.foldl (fun out id =>
    match s.find? id with
    | some i => if out.contains i then out else out ++ [i]
    | none => out) []

/-- Puts the items in another order, which has to keep every item. -/
def reorderItems (id : String) (ids : List String) : Activity Storage Bool := do
  match ← find? id with
  | none => return false
  | some s =>
    let items := itemsInOrder s ids
    if items.length ≠ s.items.length then return false
    setItems id items
    return true

/-! ## Questions -/

def enabledVariables (id : String) : Activity Storage (List String) := do
  return ((← find? id).map (·.enabledVariables)).getD []

def visibleItems (id : String) : Activity Storage (List Item) := do
  return ((← find? id).map (·.visibleItems)).getD []

end TagLedger.Suites
