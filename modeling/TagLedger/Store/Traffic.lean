import TagLedger.Store.Basic

/-!
# Changes under way

Where documents are files, a worker thread changes them. A change of a document begins when its text
is taken, and from then on the document counts as clean. It is made when the worker has put the text
in the place of the old one. In between others may change what is in memory, and begin changes of
the same document; the changes that were begun are made in any order.

    exec startRoot t = (.ok (some n), u)  →  u.begun[n]? = some ⟨rootName, some r.text⟩
    exec (make n) u puts the text under the name, once
-/

namespace TagLedger

/-- What is to become of a document: a text in its place, or nothing. -/
structure Change where
  name : String
  text : Option String
  deriving DecidableEq

def Change.apply (c : Change) (s : Shelf) : Except StorageFault Unit × Shelf :=
  match c.text with
  | some text => s.write c.name text
  | none => s.delete c.name

/-- A storage with the changes of its documents. -/
structure Traffic where
  storage : Storage
  /-- Every change that was begun, in order. -/
  begun : List Change
  /-- The numbers of the changes that were made, in order. -/
  made : List Nat

namespace Traffic

variable {α : Type}

/-- Does something to the storage. -/
def onStorage (x : Action Storage α) : Action Traffic α := ExceptT.mk <| modifyGet fun t =>
  let (r, s) := x.run.run t.storage
  (r, { t with storage := s })

/-! ## Steps of a change -/

/-- Begins a change; its number. -/
def start (c : Change) : Action Traffic Nat := modifyGet fun t =>
  (t.begun.length, { t with begun := t.begun ++ [c] })

/-- Makes a change, if it is still to be made. -/
def make (n : Nat) : Action Traffic (Except StorageFault Unit) := modifyGet fun t =>
  match t.begun[n]? with
  | none => (.ok (), t)
  | some c =>
    if n ∈ t.made then (.ok (), t)
    else
      let (r, shelf) := c.apply t.storage.shelf
      (r, { t with
        storage := { t.storage with shelf := shelf }
        made := if r.isOk then t.made ++ [n] else t.made })

/-- Takes the text of the root, if there is one. It is clean from now on. -/
def startRoot : Action Traffic (Option Nat) := do
  let s := (← get).storage.store
  match s.root with
  | none => return none
  | some root =>
    onStorage (Storage.onStore fun s => { s with rootTimer := none })
    if s.rootDegraded then throw (.storage (.rootUnreadable s.rootName))
    let text ← onStorage (Storage.pageText root.document)
    onStorage (Storage.onStore fun s => { s with rootDirty := false })
    return some (← start ⟨s.rootName, some text⟩)

/-- Takes the text of the values of a chat, if they are in memory. They are clean from now on, even
if they are too long to be written. -/
def startChat (chat : String) : Action Traffic (Option Nat) := do
  let s := (← get).storage.store
  match s.cached? chat with
  | none => return none
  | some vs =>
    onStorage (Storage.checkWritable chat)
    let name := Store.valuesName s.valuesStart chat
    onStorage (Storage.onStore fun s => { s with dirty := s.dirty.filter (· != chat) })
    if vs.isEmpty then return some (← start ⟨name, none⟩)
    else
      let text ← onStorage (Storage.pageText (vs.document chat))
      return some (← start ⟨name, some text⟩)

/-- Waits until a change was made. If it was refused, the document is dirty again. -/
def complete (spoil : Store → Store) : Option Nat → Activity Traffic Unit
  | none => pure ()
  | some n => do
    Activity.pause .turn
    match ← make n with
    | .ok _ => pure ()
    | .error e =>
      onStorage (Storage.onStore spoil)
      throw (.storage e)

/-! ## Writing -/

/-- Writes the root. -/
def save : Activity Traffic Unit := do
  complete (fun s => { s with rootDirty := true }) (← startRoot)

/-- Writes the values of a chat. -/
def saveValues (chat : String) : Activity Traffic Unit := do
  complete (·.markDirty chat) (← startChat chat)

/-- Does `x`; a document that cannot be kept is reported instead of failing. -/
def noting (x : Activity Traffic Unit) : Activity Traffic (Option StorageFault) :=
  tryCatch (x >>= fun _ => pure none) fun
    | .storage e => pure (some e)
    | e => throw e

/-- Writes the values of chats, each when the one before was written; the faults met. -/
def saveEach : List String → Activity Traffic (List StorageFault)
  | [] => pure []
  | chat :: r => do
    let fault ← noting (saveValues chat)
    return fault.toList ++ (← saveEach r)

/-- Writes the root if it is dirty; the fault met. -/
def flushRoot : Activity Traffic (Option StorageFault) := do
  let s := (← get).storage.store
  if s.rootDirty && s.root.isSome then noting save else pure none

/-- Writes the values of all chats that are dirty now; the faults met. -/
def flushValues : Activity Traffic (List StorageFault) := do
  onStorage (Storage.onStore fun s => { s with valuesTimer := none })
  saveEach (← onStorage (Storage.store? (·.dirty)))

/-- Writes everything that is dirty; the faults met. -/
def flushing : Activity Traffic (List StorageFault) := do
  let fault ← flushRoot
  return fault.toList ++ (← flushValues)

/-- Writes everything that is dirty; fails with the first fault after all was tried. -/
def flush : Activity Traffic Unit := do
  match ← flushing with
  | [] => pure ()
  | e :: _ => throw (.storage e)

/-- Stops the timers, waits for what they began, and writes everything. -/
def close : Activity Traffic Unit := do
  onStorage (Storage.onStore Store.stopTimers)
  Activity.pause .turn
  flush

/-- Does `x`; nobody is told that it failed. -/
def unheard (x : Activity Traffic Unit) : Activity Traffic Unit := tryCatch x fun _ => pure ()

/-- What the timer of the root does. -/
def saveInTurn : Activity Traffic Unit := do
  onStorage (Storage.onStore fun s => { s with rootTimer := none })
  if (← get).storage.store.rootDirty then unheard save

/-- What the timer of values does. -/
def saveValuesInTurn : Activity Traffic Unit := do
  onStorage (Storage.onStore fun s => { s with valuesTimer := none })
  unheard do
    let _ ← saveEach (← onStorage (Storage.store? (·.dirty)))

end Traffic

end TagLedger
