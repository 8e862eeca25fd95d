import TagLedger.Activity.Basic
import TagLedger.Identifier
import TagLedger.Json.Parser
import TagLedger.Store.Shelf

/-!
# The store

The store keeps the root document and the values of chats in memory. What changes is marked dirty
and written when a timer runs out, on request, or at the end. A document that could not be read is
served as if it were empty and never written over.

    (store.flush.run.run s).2.store.dirty = []          when nothing is refused
-/

namespace TagLedger

/-! ## State -/

structure Store where
  rootName : String
  /-- What the names of values documents start with. -/
  valuesStart : String
  /-- How long changes wait before they are written, in microseconds. -/
  debounce : Nat
  /-- Counts how often everything was forgotten. -/
  epoch : Nat
  root : Option Root
  rootDegraded : Bool
  rootDirty : Bool
  rootTimer : Option Nat
  /-- The values of the chats that were loaded, in order of loading. -/
  values : List (String × ChatValues)
  /-- Chats whose document could not be read. -/
  degraded : List String
  dirty : List String
  valuesTimer : Option Nat
  /-- Variables removed in this epoch. -/
  removed : List String
  /-- The locks that are held, with the number of activities that wait for each. -/
  held : List (Lock × Nat)
  /-- Locks that were just handed to the first that waits. -/
  granted : List Lock

structure Clock where
  /-- Milliseconds since the epoch. -/
  now : Int
  /-- Microseconds that timers have seen. -/
  elapsed : Nat

/-- The store with what it works on. -/
structure Storage where
  store : Store
  shelf : Shelf
  clock : Clock
  random : Identifier.Random

namespace Store

/-- A store that has read nothing yet. -/
def empty (rootName valuesStart : String) (debounce epoch : Nat) : Store :=
  ⟨rootName, valuesStart, debounce, epoch, none, false, false, none, [], [], [], none, [], [], []⟩

def isSafe (c : Char) : Bool := c.isAlphanum || c == '_' || c == '-'

/-- A name with a low line for every character that no file name should hold. -/
def safeName (s : String) : String :=
  String.ofList (s.toList.map fun c => if isSafe c then c else '_')

/-- The name of the document with the values of a chat. -/
def valuesName (start chat : String) : String := start ++ safeName chat ++ ".json"

def isDirty (s : Store) : Bool := s.rootDirty || !s.dirty.isEmpty

def isDegraded (s : Store) (chat : String) : Bool := s.degraded.contains chat

/-- The values of a chat, if they are in memory. -/
def cached? (s : Store) (chat : String) : Option ChatValues := Json.find? s.values chat

/-- The values of a chat, if they were read without fault. -/
def usable? (s : Store) (chat : String) : Option ChatValues :=
  if s.isDegraded chat then none else s.cached? chat

def value? (s : Store) (variableId chat : String) : Option Value :=
  (s.cached? chat).bind fun vs => Json.find? vs variableId

/-- The definitions, none before the root was loaded. -/
def definitions (s : Store) : List (String × Definition) :=
  match s.root with
  | some r => r.definitions
  | none => []

def markDirty (s : Store) (chat : String) : Store :=
  { s with dirty := if s.dirty.contains chat then s.dirty else s.dirty ++ [chat] }

def setValues (s : Store) (chat : String) (vs : ChatValues) : Store :=
  { s with values := Json.insert s.values chat vs }

/-- A value in memory is changed in its place by another one of its kind. -/
def amend (s : Store) (variableId chat : String) (v : Value) : Store :=
  match s.cached? chat with
  | some vs =>
    if (Json.find? vs variableId).any (·.sameKind v) then
      s.setValues chat (Json.insert vs variableId v)
    else s
  | none => s

/-- Everything is forgotten, changes that were not written too. Who holds a lock goes on to hold
it. -/
def forget (s : Store) : Store :=
  { empty s.rootName s.valuesStart s.debounce (s.epoch + 1) with
    held := s.held, granted := s.granted }

def stopTimers (s : Store) : Store := { s with rootTimer := none, valuesTimer := none }

end Store

/-! ## Actions -/

namespace Storage

def onStore (f : Store → Store) : Action Storage Unit :=
  modify fun s => { s with store := f s.store }

def store? {α : Type} (f : Store → α) : Action Storage α := return f (← get).store

/-- The time, in milliseconds. -/
def now : Action Storage Int := return (← get).clock.now

/-- How documents are read at this time. -/
def context : Action Storage Schema.Context := return ⟨← now, false⟩

/-- A new identifier of a kind. -/
def newId (kind : String) (n : Nat) : Action Storage String :=
  modifyGet fun s =>
    let (id, r) := Identifier.generate kind n s.clock.now s.random
    (id, { s with random := r })

/-- A use of the shelf. -/
def onShelf {α : Type} (f : Shelf → Except StorageFault α × Shelf) :
    Action Storage (Except StorageFault α) :=
  modifyGet fun s =>
    let (r, shelf) := f s.shelf
    (r, { s with shelf := shelf })

/-- The text of a document for the shelf. -/
def pageText (j : Json) : Action Storage String :=
  match Json.render? .page j with
  | .ok t => pure t
  | .error _ => throw .badValue

/-! ### Writing -/

/-- Writes the root now; it stays dirty if that fails. -/
def save : Action Storage Unit := do
  let s := (← get).store
  match s.root with
  | none => pure ()
  | some root =>
    onStore fun s => { s with rootTimer := none }
    if s.rootDegraded then throw (.storage (.rootUnreadable s.rootName))
    let text ← pageText root.document
    onStore fun s => { s with rootDirty := false }
    match ← onShelf (·.write s.rootName text) with
    | .ok _ => pure ()
    | .error e =>
      onStore fun s => { s with rootDirty := true }
      throw (.storage e)

/-- Marks the root dirty and starts its timer again. -/
def saveSoon : Action Storage Unit :=
  modify fun s => { s with store := { s.store with
    rootDirty := true, rootTimer := some (s.clock.elapsed + s.store.debounce) } }

/-- The values of a chat may be changed. -/
def checkWritable (chat : String) : Action Storage Unit := do
  if (← get).store.isDegraded chat then throw (.storage (.chatUnreadable chat))

/-- Writes the values of a chat now, or removes their document if there are none. -/
def saveValues (chat : String) : Action Storage Unit := do
  let s := (← get).store
  match s.cached? chat with
  | none => pure ()
  | some vs =>
    checkWritable chat
    let name := Store.valuesName s.valuesStart chat
    onStore fun s => { s with dirty := s.dirty.filter (· != chat) }
    let r ←
      if vs.isEmpty then onShelf (·.delete name)
      else do
        let text ← pageText (vs.document chat)
        onShelf (·.write name text)
    match r with
    | .ok _ => pure ()
    | .error e =>
      onStore (·.markDirty chat)
      throw (.storage e)

/-- Marks the values of a chat dirty and starts the timer of values again. -/
def saveValuesSoon (chat : String) : Action Storage Unit :=
  modify fun s => { s with store := { s.store.markDirty chat with
    valuesTimer := some (s.clock.elapsed + s.store.debounce) } }

/-- Does `x`; a document that cannot be kept is reported instead of failing. -/
def noting (x : Action Storage Unit) : Action Storage (Option StorageFault) :=
  tryCatch (x *> pure none) fun
    | .storage e => pure (some e)
    | e => throw e

/-- Writes the values of chats one by one; the faults met. -/
def saveEach : List String → Action Storage (List StorageFault)
  | [] => pure []
  | chat :: r => do
    let fault ← noting (saveValues chat)
    return fault.toList ++ (← saveEach r)

/-- Writes the root if it is dirty; the fault met. -/
def flushRoot : Action Storage (Option StorageFault) := do
  let s := (← get).store
  if s.rootDirty && s.root.isSome then noting save else pure none

/-- Writes the values of all chats that are dirty; the faults met. -/
def flushValues : Action Storage (List StorageFault) := do
  onStore fun s => { s with valuesTimer := none }
  saveEach (← store? (·.dirty))

/-- Writes everything that is dirty; the faults met. -/
def flushing : Action Storage (List StorageFault) := do
  let fault ← flushRoot
  return fault.toList ++ (← flushValues)

/-- Writes everything that is dirty; fails with the first fault after all was tried. -/
def flush : Action Storage Unit := do
  match ← flushing with
  | [] => pure ()
  | e :: _ => throw (.storage e)

/-- Writes everything that is dirty and leaves the rest for later. -/
def flushQuietly : Action Storage Unit := do
  let _ ← flushing

/-- Stops the timers and writes everything. -/
def close : Action Storage Unit := do
  onStore Store.stopTimers
  flush

/-! ### Timers -/

/-- Does `x`; nobody is told that it failed. -/
def unheard (x : Action Storage Unit) : Action Storage Unit := tryCatch x fun _ => pure ()

/-- What the timer of the root does. -/
def saveInTurn : Action Storage Unit := do
  onStore fun s => { s with rootTimer := none }
  if (← get).store.rootDirty then unheard save

/-- What the timer of values does. -/
def saveValuesInTurn : Action Storage Unit := do
  onStore fun s => { s with valuesTimer := none }
  unheard do
    let _ ← saveEach (← store? (·.dirty))

/-! ### Values -/

/-- Removes a variable from the chats in memory; the number of chats that had it. -/
def removeFromChats (variableId : String) : List (String × ChatValues) → Action Storage Nat
  | [] => pure 0
  | (chat, vs) :: r => do
    if (Json.find? vs variableId).isSome then
      onStore (·.setValues chat (vs.filter (·.1 != variableId)))
      saveValuesSoon chat
      return (← removeFromChats variableId r) + 1
    else removeFromChats variableId r

/-- Removes a variable from every chat, those loaded later included. -/
def removeValues (variableId : String) : Action Storage Nat := do
  onStore fun s => { s with removed := if s.removed.contains variableId then s.removed
    else s.removed ++ [variableId] }
  removeFromChats variableId (← store? (·.values))

/-- Drops the values of a chat whose variables are gone. -/
def sweep (chat : String) (vs : ChatValues) (root : Root) : Action Storage ChatValues := do
  let s := (← get).store
  let gone (id : String) : Bool :=
    s.removed.contains id || (!s.rootDegraded && (Json.find? root.definitions id).isNone)
  if vs.any fun v => gone v.1 then
    let kept := vs.filter fun v => !gone v.1
    onStore (·.setValues chat kept)
    saveValuesSoon chat
    return kept
  else return vs

end Storage

end TagLedger
