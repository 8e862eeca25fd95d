import TagLedger.Store.Basic

/-!
# Loading documents

Each document is read once and then served from memory, by one activity at a time. A missing root is
created; an older one is brought to the current version, and its values go to documents of their
own. A chat whose document cannot be read is read again by the next activity that needs it.
-/

namespace TagLedger.Storage

open Schema

/-! ## Locks -/

/-- The first entry of a lock and the others. -/
def waitersOf? (held : List (Lock × Nat)) (key : Lock) : Option Nat :=
  (held.find? (·.1 == key)).map (·.2)

def setWaiters (held : List (Lock × Nat)) (key : Lock) (n : Nat) : List (Lock × Nat) :=
  held.map fun h => if h.1 == key then (key, n) else h

/-- Hands the lock to the first that waits for it, or gives it up. -/
def release (key : Lock) : Action Storage Unit :=
  onStore fun s =>
    match waitersOf? s.held key with
    | some (n + 1) => { s with held := setWaiters s.held key n, granted := s.granted ++ [key] }
    | _ => { s with held := s.held.filter (·.1 != key) }

/-- One fewer waits for the lock. -/
def leaveLine (key : Lock) (s : Store) : Store :=
  match waitersOf? s.held key with
  | some (n + 1) => { s with held := setWaiters s.held key n }
  | _ => s

/-- Takes the lock, waiting for it if it is held. -/
def acquire (key : Lock) : Activity Storage Unit := do
  match waitersOf? (← get).store.held key with
  | none => onStore fun s => { s with held := s.held ++ [(key, 0)] }
  | some n =>
    onStore fun s => { s with held := setWaiters s.held key (n + 1) }
    tryCatch (.pause (.lock key)) fun e => do
      onStore (leaveLine key)
      throw e

/-- Does `x` while holding the lock. -/
def holding {α : Type} (key : Lock) (x : Activity Storage α) : Activity Storage α := do
  acquire key
  x.ensuring (release key)

/-! ## The root -/

/-- Reads a document, which takes a turn. -/
def readDocument (name : String) : Activity Storage (Except StorageFault (Option String)) := do
  .pause .turn
  onShelf (·.read name)

/-- What the text of a root document gives. -/
inductive RootReading where
  /-- A root, and the values that an older document held besides. -/
  | root (r : Root) (moved : Option (List (String × ChatValues)))
  /-- The text is of no use. -/
  | unusable
  | failed (e : Failure)

def RootReading.ofText (ctx : Context) (text : String) : RootReading :=
  match Json.parseText text with
  | .ok (.obj fields) =>
    match Migration.migrate ctx (.obj fields) with
    | .ok m =>
      match Root.decode ctx m.root with
      | .valid r => .root r (m.source.map fun _ => m.chats)
      | .invalid _ => .unusable
    | .error .badNumber => .unusable
    | .error (.invalid _) => .unusable
    | .error e => .failed (.ofMigration e)
  | _ => .unusable

/-- Serves defaults in place of a root that cannot be read. -/
def degradeRoot : Action Storage Root := do
  onStore fun s => { s with root := some .standard, rootDegraded := true }
  return .standard

/-- Takes over the values that an older root document held. -/
def adopt (chats : List (String × ChatValues)) : Action Storage Unit :=
  onStore fun s => chats.foldl (fun s c => (s.setValues c.1 c.2).markDirty c.1) s

/-- The root in memory, or `default`. -/
def rootOr (default : Root) : Action Storage Root :=
  return (← get).store.root.getD default

/-- Takes over what reading the root document gave. -/
def takeRoot (answer : Except StorageFault (Option String)) : Action Storage Root := do
  match answer with
  | .error _ => degradeRoot
  | .ok none =>
    onStore fun s => { s with root := some .standard, rootDirty := true }
    flushQuietly
    rootOr .standard
  | .ok (some text) =>
    match RootReading.ofText (← context) text with
    | .unusable => degradeRoot
    | .failed e => throw e
    | .root r none =>
      onStore fun s => { s with root := some r }
      return r
    | .root r (some chats) =>
      onStore fun s => { s with root := some r }
      adopt chats
      onStore fun s => { s with rootDirty := true }
      flushQuietly
      rootOr r

/-- Reads the root document. -/
def readRoot : Activity Storage Root := do
  takeRoot (← readDocument (← get).store.rootName)

/-- The root; it is read if nobody else did meanwhile. -/
def readRootOnce : Activity Storage Root := do
  match (← get).store.root with
  | some r => return r
  | none => readRoot

/-- The root; it is read if it was not yet. -/
def load : Activity Storage Root := do
  match (← get).store.root with
  | some r => return r
  | none => holding (.root (← get).store.epoch) readRootOnce

/-! ## Values -/

/-- The raw values in the text of a values document, if it is of use. -/
def rawValues? (text : Option String) : Option (List (String × Json)) :=
  match text with
  | none => some []
  | some t =>
    match Json.parseText t with
    | .ok (.obj fields) =>
      match Migration.orElse ((Json.find? fields "values").getD .null) (.obj []) with
      | .obj vs => some vs
      | _ => none
    | _ => none

/-- The values that can be read; the others are passed over. -/
def readValues (ctx : Context) (raw : List (String × Json)) : ChatValues :=
  raw.filterMap fun (id, j) => ((Value.read ctx j).bind Checked.toOption).map fun v => (id, v)

/-- Serves no values in place of a document that cannot be read. -/
def degradeChat (chat : String) : Action Storage ChatValues := do
  onStore fun s =>
    { s with
      degraded := if s.degraded.contains chat then s.degraded else s.degraded ++ [chat]
      values := if (s.cached? chat).isSome then s.values else s.values ++ [(chat, [])] }
  return ((← get).store.cached? chat).getD []

/-- Takes over what reading the values document of a chat gave. -/
def takeChat (chat : String) (root : Root) (answer : Except StorageFault (Option String)) :
    Action Storage ChatValues := do
  match answer with
  | .error _ => degradeChat chat
  | .ok text =>
    match rawValues? text with
    | none => degradeChat chat
    | some raw =>
      let vs := readValues (← context) raw
      onStore fun s => { s.setValues chat vs with degraded := s.degraded.filter (· != chat) }
      sweep chat vs (← rootOr root)

/-- Reads the values document of a chat. -/
def readChat (chat : String) (root : Root) : Activity Storage ChatValues := do
  takeChat chat root (← readDocument (Store.valuesName (← get).store.valuesStart chat))

/-- The values of a chat; they are read if nobody else did meanwhile. -/
def readChatOnce (chat : String) (root : Root) : Activity Storage ChatValues := do
  match (← get).store.usable? chat with
  | some vs => return vs
  | none => readChat chat root

/-- The values of a chat; they are read if they were not yet, or could not be. -/
def loadValues (chat : String) : Activity Storage ChatValues := do
  match (← get).store.usable? chat with
  | some vs => return vs
  | none =>
    let root ← load
    holding (.chat (← get).store.epoch chat) (readChatOnce chat root)

def getValue (variableId chat : String) : Activity Storage (Option Value) :=
  return Json.find? (← loadValues chat) variableId

/-- Sets a value. The chat has to be writable before it is loaded, too: a value made from an earlier
reading that failed must not get in. -/
def setValue (variableId chat : String) (v : Value) : Activity Storage Unit := do
  checkWritable chat
  let vs ← loadValues chat
  checkWritable chat
  onStore (·.setValues chat (Json.insert vs variableId v))
  saveValuesSoon chat

/-- Changes a value that came from memory where it lies, and then sets it. If setting it is refused,
what lies in memory stays changed. -/
def editValue (variableId chat : String) (v : Value) : Activity Storage Unit := do
  onStore (·.amend variableId chat v)
  setValue variableId chat v

/-! ## Parts of the root -/

/-- Changes the root and leaves it to be written. -/
def changeRoot (f : Root → Root) : Activity Storage Unit := do
  let root ← load
  onStore fun s => { s with root := some (f (s.root.getD root)) }
  saveSoon

def suites : Activity Storage (List (String × Suite)) := return (← load).suites

def definitions : Activity Storage (List (String × Definition)) := return (← load).definitions

def settings : Activity Storage Settings := return (← load).settings

def saveSuites (suites : List (String × Suite)) : Activity Storage Unit :=
  changeRoot fun r => { r with suites := suites }

def saveDefinitions (ds : List (String × Definition)) : Activity Storage Unit :=
  changeRoot fun r => { r with definitions := ds }

def saveSettings (x : Settings) : Activity Storage Unit :=
  changeRoot fun r => { r with settings := x }

end TagLedger.Storage
